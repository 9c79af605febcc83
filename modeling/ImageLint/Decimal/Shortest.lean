/-!
# Shortest decimal text of a binary number

The decimal text of a finite 64-bit binary floating point number with the fewest digits that
still reads back as the same number. The number is `m · 2 ^ q`; the reals that round to it form
an interval, and the first decimal grid with a point in that interval gives the digits.
-/

namespace ImageLint.Decimal

/-- A positive fraction of natural numbers. -/
structure Fraction where
  num : Nat
  den : Nat

/-- The fraction `n · 2 ^ e`. -/
def Fraction.scaleTwo (n : Nat) (e : Int) : Fraction :=
  if 0 ≤ e then ⟨n * Nat.pow 2 e.toNat, 1⟩ else ⟨n, Nat.pow 2 (-e).toNat⟩

/-- The number as `m · 2 ^ q`, from its 64 bits without the sign. -/
structure Binary where
  significand : Nat
  exponent : Int
  /-- Whether the next smaller number is only half as far away as the next larger one. -/
  onPowerOfTwo : Bool

/-- The parts of the bit pattern of a finite number. -/
def Binary.ofBits (bits : UInt64) : Binary :=
  let n : Nat := bits.toNat % Nat.pow 2 63
  let e : Nat := n / Nat.pow 2 52
  let f : Nat := n % Nat.pow 2 52
  if e = 0 then ⟨f, -1074, false⟩
  else ⟨f + Nat.pow 2 52, (e : Int) - 1075, f = 0 && e > 1⟩

namespace Binary

/-- The number itself. -/
def value (b : Binary) : Fraction := .scaleTwo (4 * b.significand) (b.exponent - 2)

/-- The least real that rounds to the number. -/
def lower (b : Binary) : Fraction :=
  .scaleTwo (4 * b.significand - if b.onPowerOfTwo then 1 else 2) (b.exponent - 2)

/-- The greatest real that rounds to the number. -/
def upper (b : Binary) : Fraction := .scaleTwo (4 * b.significand + 2) (b.exponent - 2)

/-- Whether `d · 10 ^ k` rounds to the number. The ends count where the significand is even. -/
def admits (b : Binary) (d : Nat) (k : Int) : Bool :=
  let x : Fraction := if 0 ≤ k then ⟨d * Nat.pow 10 k.toNat, 1⟩ else ⟨d, Nat.pow 10 (-k).toNat⟩
  let lo := b.lower
  let hi := b.upper
  if b.significand % 2 = 0 then
    lo.num * x.den ≤ x.num * lo.den && x.num * hi.den ≤ hi.num * x.den
  else
    lo.num * x.den < x.num * lo.den && x.num * hi.den < hi.num * x.den

/-- The exponent of the leading decimal digit of a positive number. -/
def leading (b : Binary) : Int :=
  let v := b.value
  if v.den ≤ v.num then ((Nat.toDigits 10 (v.num / v.den)).length : Int) - 1
  else
    let j := (Nat.toDigits 10 (v.den / v.num)).length - 1
    if v.num * Nat.pow 10 j < v.den then -((j : Int) + 1) else -(j : Int)

/-- The digits on the grid `10 ^ k`: the nearer of the two neighbours that rounds to the number. -/
def onGrid (b : Binary) (k : Int) : Option Nat :=
  let v := b.value
  let x : Fraction := if 0 ≤ k then ⟨v.num, v.den * Nat.pow 10 k.toNat⟩
    else ⟨v.num * Nat.pow 10 (-k).toNat, v.den⟩
  let d := x.num / x.den
  let rest := 2 * (x.num % x.den)
  let up := rest > x.den || (rest == x.den && d % 2 == 1)
  match b.admits d k, b.admits (d + 1) k with
  | true, true => some (if up then d + 1 else d)
  | true, false => some d
  | false, true => some (d + 1)
  | false, false => none

/-- The fewest digits, tried on grids of `n`, `n + 1`, … digits, and the exponent of their grid. -/
def shortestFrom (b : Binary) (top : Int) : Nat → Nat → Nat × Int
  | 0, n => (b.significand, top - n)
  | fuel + 1, n =>
    let k := top - n + 1
    match b.onGrid k with
    | some d => (d, k)
    | none => shortestFrom b top fuel (n + 1)

/-- The decimal `d · 10 ^ k` with the fewest digits that rounds to the number. Seventeen digits
always suffice. -/
def shortest (b : Binary) : Nat × Int := b.shortestFrom b.leading 17 1

end Binary

/-- Drops the zeros at the end. -/
def dropZeros (ds : List Char) : List Char := (ds.reverse.dropWhile (· = '0')).reverse

/-- How the digits `ds`, the first of which stands for `10 ^ top`, are written: positionally with
a digit on each side of the point from `10 ^ -5` to below `10 ^ 16`, and with a signed exponent
elsewhere. -/
def layOut (ds : List Char) (top : Int) : List Char :=
  if 0 ≤ top ∧ top ≤ 15 then
    let whole := top.toNat + 1
    let front := ds.take whole
    let back := ds.drop whole
    front ++ List.replicate (whole - front.length) '0' ++ ['.'] ++ if back = [] then ['0'] else back
  else if -5 ≤ top ∧ top < 0 then
    ['0', '.'] ++ List.replicate ((-top).toNat - 1) '0' ++ ds
  else
    let mantissa := match ds with
      | [] => ['0']
      | [d] => [d]
      | d :: rest => d :: '.' :: rest
    mantissa ++ ['e', if 0 ≤ top then '+' else '-'] ++ Nat.toDigits 10 top.natAbs

/-- The shortest text of a finite number. -/
def shortestText (f : Float) : String :=
  let bits := f.toBits
  let sign := if bits.toNat < Nat.pow 2 63 then [] else ['-']
  let b := Binary.ofBits bits
  let text :=
    if b.significand = 0 then ['0', '.', '0']
    else
      let (d, k) := b.shortest
      let all := Nat.toDigits 10 d
      layOut (dropZeros all) (k + all.length - 1)
  String.ofList (sign ++ text)

end ImageLint.Decimal
