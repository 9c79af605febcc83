import ImageLint.Decimal.Shortest
import ImageLint.Text.Digit

/-!
# Numbers of a JSON text

A number is kept as it is written. `Number.kind` says what a reader makes of it: a natural number
of 64 bits, a negative integer of 64 bits, or a binary floating point number.
-/

namespace ImageLint.Json

/-- A number as written: sign, whole part, digits after the point and decimal exponent. -/
structure Number where
  negative : Bool
  whole : Nat
  /-- The digits after the point, none when there is no point. -/
  fraction : List Char
  exponent : Option Int
  deriving DecidableEq, Repr

namespace Number

/-- The number `n` written as an integer. -/
def ofNat (n : Nat) : Number := ⟨false, n, [], none⟩

/-- An integer written with its sign. -/
def ofInt (n : Int) : Number := ⟨decide (n < 0), n.natAbs, [], none⟩

/-- The text of a number. -/
def text (n : Number) : List Char :=
  (if n.negative then ['-'] else []) ++ Nat.toDigits 10 n.whole ++
    (if n.fraction = [] then [] else '.' :: n.fraction) ++
    match n.exponent with
    | none => []
    | some e => 'e' :: (if e < 0 then ['-'] else []) ++ Nat.toDigits 10 e.natAbs

/-- What a reader makes of a number. -/
inductive Kind where
  | natural (n : UInt64)
  /-- The integer `-n`. -/
  | negative (n : Nat)
  | floating (f : Float)

/-- Appends digits to a significand as long as it fits 64 bits, and returns what is left. -/
def accumulate (significand : Nat) : List Char → Nat × List Char
  | [] => (significand, [])
  | c :: cs =>
    let next := significand * 10 + Text.digitValue c
    if next < Nat.pow 2 64 then accumulate next cs else (significand, c :: cs)

/-- The number as a significand of 64 bits and a power of ten. Digits beyond the significand count
only by their place. -/
def scale (n : Number) : Nat × Int :=
  let (front, left) := accumulate 0 (Nat.toDigits 10 n.whole)
  let (all, unused) := accumulate front n.fraction
  (all, left.length - ((n.fraction.length : Int) - unused.length) + n.exponent.getD 0)

/-- Multiplies `f` by a power of ten, a division by the largest power at a time when the exponent
is far below zero. There is no result when the exponent is too large. -/
def timesPowerOfTen (f : Float) (e : Int) : Nat → Option Float
  | 0 => some f
  | fuel + 1 =>
    if e.natAbs ≤ 308 then
      let p := Float.ofScientific 1 false e.natAbs
      if 0 ≤ e then
        let g := f * p
        if g.isInf then none else some g
      else some (f / p)
    else if f == 0.0 then some f
    else if 0 ≤ e then none
    else timesPowerOfTen (f / Float.ofScientific 1 false 308) (e + 308) fuel

/-- The number as a floating point number, if it is not too large. -/
def toFloat? (n : Number) : Option Float :=
  let (significand, e) := n.scale
  (timesPowerOfTen significand.toUInt64.toFloat e 4).map fun f => if n.negative then -f else f

/-- Whether the number is written without a point and an exponent. -/
def isInteger (n : Number) : Bool := n.fraction = [] && n.exponent.isNone

/-- What a reader makes of the number. Integers beyond 64 bits, and zero with a minus sign, are
floating point numbers. A number too large for one is out of range. -/
def kind (n : Number) : Option Kind :=
  if n.isInteger && !n.negative && n.whole < Nat.pow 2 64 then some (.natural n.whole.toUInt64)
  else if n.isInteger && n.negative && 0 < n.whole && n.whole ≤ Nat.pow 2 63 then
    some (.negative n.whole)
  else n.toFloat?.map .floating

/-- A natural number of 64 bits is read as itself. -/
theorem kind_ofNat (n : UInt64) : (ofNat n.toNat).kind = some (.natural n) := by
  have h : n.toNat < 2 ^ 64 := n.toNat_lt
  have integer : (ofNat n.toNat).isInteger = true := rfl
  have plus : (ofNat n.toNat).negative = false := rfl
  have small : (ofNat n.toNat).whole < Nat.pow 2 64 := h
  rw [kind, integer, plus, decide_eq_true small]
  exact congrArg (fun word => some (Kind.natural word)) UInt64.ofNat_toNat

end Number

end ImageLint.Json
