import ImageLint.Json.Number
import ImageLint.Json.Quoted

/-!
# Tokens of a JSON text

A JSON text is cut into tokens from left to right. Where a literal is broken, the token says what
each kind of reader finds wrong with it: the one that wants the value and the one that only passes
over it. After such a token nothing more is read.
-/

namespace ImageLint.Json

/-- A token. -/
inductive Token where
  | openObject
  | closeObject
  | openArray
  | closeArray
  | comma
  | colon
  | null
  | bool (b : Bool)
  | number (n : Number)
  /-- A string. Without a text it holds a surrogate escape that is not part of a pair. -/
  | string (s : Option String)
  /-- A string that is broken for a reader of its text and for one that passes over it. -/
  | brokenString (value skip : Fault)
  /-- A number that is broken for a reader of its value and for one that passes over it. -/
  | brokenNumber (value skip : Fault)
  /-- A character that begins no token, or a word that is none of `null`, `true`, `false`. -/
  | stray (fault : Fault)
  deriving DecidableEq, Repr

namespace Token

/-- White space between tokens. -/
def isSpace (c : Char) : Bool := c = ' ' || c = '\n' || c = '\t' || c = '\r'

/-- Digits in front and what comes after them. -/
def takeDigits (cs : List Char) : List Char × List Char :=
  (cs.takeWhile Text.isDigit, cs.dropWhile Text.isDigit)

/-- The token of a word whose first letter has been read: the remaining letters must follow. -/
def word (token : Token) : List Char → List Char → Token × List Char
  | [], cs => (token, cs)
  | _ :: _, [] => (.stray .truncated, [])
  | w :: ws, c :: cs => if c = w then word token ws cs else (.stray .malformed, cs)

/-- The value of a run of digits. -/
def digitsValue (ds : List Char) : Nat := Nat.ofDigitChars 10 ds 0

/-- A broken number: where the text ends, only a reader of the value notices that it ends. -/
def numberFault (rest : List Char) : Token :=
  .brokenNumber (if rest = [] then .truncated else .malformed) .malformed

/-- The exponent of a number, after its `e`. -/
def exponent (negative : Bool) (whole : Nat) (fraction cs : List Char) : Token × List Char :=
  let (minus, cs) : Bool × List Char := match cs with
    | '-' :: cs => (true, cs)
    | '+' :: cs => (false, cs)
    | cs => (false, cs)
  match takeDigits cs with
  | ([], rest) => (numberFault rest, rest)
  | (ds, rest) =>
    let e : Int := digitsValue ds
    (.number ⟨negative, whole, fraction, some (if minus then -e else e)⟩, rest)

/-- What follows the digits of a number. -/
def afterDigits (negative : Bool) (whole : Nat) (fraction : List Char) :
    List Char → Token × List Char
  | 'e' :: cs => exponent negative whole fraction cs
  | 'E' :: cs => exponent negative whole fraction cs
  | cs => (.number ⟨negative, whole, fraction, none⟩, cs)

/-- A number, after its sign. The whole part has no zero in front of another digit. -/
def numeral (negative : Bool) (cs : List Char) : Token × List Char :=
  match takeDigits cs with
  | ([], rest) => (numberFault rest, rest)
  | ('0' :: _ :: _, rest) => (.brokenNumber .malformed .malformed, rest)
  | (ds, '.' :: rest) =>
    match takeDigits rest with
    | ([], rest) => (numberFault rest, rest)
    | (fs, rest) => afterDigits negative (digitsValue ds) fs rest
  | (ds, rest) => afterDigits negative (digitsValue ds) [] rest

/-- A string, after its opening quote. -/
def quoted (cs : List Char) : Token × List Char :=
  match Quoted.decode cs, Quoted.skip cs with
  | .ok (s, _), .ok rest => (.string (some (String.ofList s)), rest)
  | .error _, .ok rest => (.string none, rest)
  | .error f, .error g => (.brokenString f g, [])
  | .ok _, .error g => (.brokenString g g, [])

/-- The token that begins with `c`, and what comes after it. -/
def next (c : Char) (cs : List Char) : Token × List Char :=
  match c with
  | '\x7b' => (.openObject, cs)
  | '\x7d' => (.closeObject, cs)
  | '[' => (.openArray, cs)
  | ']' => (.closeArray, cs)
  | ',' => (.comma, cs)
  | ':' => (.colon, cs)
  | 'n' => word .null ['u', 'l', 'l'] cs
  | 't' => word (.bool true) ['r', 'u', 'e'] cs
  | 'f' => word (.bool false) ['a', 'l', 's', 'e'] cs
  | '"' => quoted cs
  | '-' => numeral true cs
  | c => if Text.isDigit c then numeral false (c :: cs) else (.stray .malformed, cs)

/-! ### Tokens take something from the text -/

theorem length_takeDigits (cs : List Char) : (takeDigits cs).2.length ≤ cs.length :=
  (List.dropWhile_sublist _).length_le

theorem length_word (token : Token) (ws cs : List Char) :
    (word token ws cs).2.length ≤ cs.length := by
  induction ws generalizing cs with
  | nil => simp [word]
  | cons w ws ih =>
    cases cs with
    | nil => simp [word]
    | cons c cs =>
      simp only [word]
      split
      · exact Nat.le_succ_of_le (ih cs)
      · simp

theorem length_exponent (negative : Bool) (whole : Nat) (fraction cs : List Char) :
    (exponent negative whole fraction cs).2.length ≤ cs.length := by
  have main : ∀ (minus : Bool) (cs : List Char),
      (match takeDigits cs with
        | ([], rest) => (numberFault rest, rest)
        | (ds, rest) =>
          (Token.number ⟨negative, whole, fraction,
            some (if minus then -(digitsValue ds : Int) else (digitsValue ds : Int))⟩,
            rest)).2.length ≤ cs.length := by
    intro minus cs
    have h := length_takeDigits cs
    split <;> simp_all
  unfold exponent
  split
  next minus cs' heq =>
    have h := main minus cs'
    have hle : cs'.length ≤ cs.length := by
      split at heq <;> (cases heq; simp)
    exact Nat.le_trans h hle

theorem length_afterDigits (negative : Bool) (whole : Nat) (fraction cs : List Char) :
    (afterDigits negative whole fraction cs).2.length ≤ cs.length := by
  unfold afterDigits
  split
  · exact Nat.le_succ_of_le (length_exponent ..)
  · exact Nat.le_succ_of_le (length_exponent ..)
  · simp

theorem length_numeral (negative : Bool) (cs : List Char) :
    (numeral negative cs).2.length ≤ (takeDigits cs).2.length := by
  unfold numeral
  split
  next h => simp [h]
  next h => simp [h]
  next ds rest _ _ h =>
    rw [h]
    have h1 := length_takeDigits rest
    split
    next h2 => rw [h2] at h1; exact Nat.le_succ_of_le h1
    next fs rest' _ h2 =>
      rw [h2] at h1
      exact Nat.le_trans (length_afterDigits ..) (Nat.le_succ_of_le h1)
  next ds rest _ _ h => rw [h]; exact length_afterDigits ..

theorem length_quoted (cs : List Char) : (quoted cs).2.length ≤ cs.length := by
  unfold quoted
  split
  next h => exact Nat.le_of_lt (Quoted.length_skip h)
  next h => exact Nat.le_of_lt (Quoted.length_skip h)
  · simp
  · simp

theorem length_next (c : Char) (cs : List Char) : (next c cs).2.length ≤ cs.length := by
  unfold next
  split <;> try first
    | exact Nat.le_refl _
    | exact length_word ..
    | exact length_quoted ..
    | exact Nat.le_trans (length_numeral ..) (length_takeDigits ..)
  split
  next hd =>
    refine Nat.le_trans (length_numeral ..) ?_
    have : (takeDigits (c :: cs)).2 = (takeDigits cs).2 := by
      simp [takeDigits, hd]
    rw [this]
    exact length_takeDigits cs
  · exact Nat.le_refl _

/-- Whether nothing can be read after the token. -/
def isLast : Token → Bool
  | .brokenString .. => true
  | .brokenNumber .. => true
  | .stray _ => true
  | _ => false

end Token

/-- The tokens of a text, up to the first one after which nothing can be read. -/
def tokens : List Char → List Token
  | [] => []
  | c :: cs =>
    if Token.isSpace c then tokens cs
    else
      let step := Token.next c cs
      if step.1.isLast then [step.1] else step.1 :: tokens step.2
termination_by cs => cs.length
decreasing_by
  · simp
  · exact Nat.lt_succ_of_le (Token.length_next c cs)

end ImageLint.Json
