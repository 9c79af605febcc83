import ImageLint.Json.Tree
import ImageLint.Text.Shown

/-!
# What can be wrong with a value

The reasons why a JSON text is not what a reader wants, and their wording.
-/

namespace ImageLint.Json

/-- What stands in a place where something else is wanted. -/
inductive Found where
  | null
  | bool (b : Bool)
  | number (n : Number)
  | string (s : String)
  | sequence
  | map
  deriving DecidableEq, Repr

/-- What a reader wants. -/
inductive Wanted where
  | string
  | boolean
  | sequence
  | unsigned
  | unit
  | variant
  | record (name : String)
  | tagged (name : String)
  deriving DecidableEq, Repr

/-- Why a value is not what a reader wants. -/
inductive Mismatch where
  | missingField (name : String)
  | duplicateField (name : String)
  | unknownVariant (found : String) (known : List String)
  | wrongType (found : Found) (wanted : Wanted)
  /-- The integer `-n` where an unsigned one is wanted. -/
  | negative (n : Nat)
  /-- The number of a variant that is not below the number of variants. -/
  | variantIndex (n count : Nat)
  /-- An array that is too short for a record of so many fields. -/
  | tooShort (found : Nat) (record : String) (size : Nat)
  /-- An array with items after the last field. -/
  | tooLong (found size : Nat)
  deriving DecidableEq, Repr

/-- Why a text cannot be read. -/
inductive ReadError where
  | fault (f : Fault)
  | mismatch (m : Mismatch)
  deriving DecidableEq, Repr

/-- What stands there, in words. -/
def Found.text : Found → String
  | .null => "null"
  | .bool b => "boolean `" ++ (if b then "true" else "false") ++ "`"
  | .number n =>
    match n.kind with
    | some (.natural n) => "integer `" ++ toString n ++ "`"
    | some (.negative n) => "integer `-" ++ toString n ++ "`"
    | some (.floating f) => "floating point `" ++ Decimal.shortestText f ++ "`"
    | none => "number out of range"
  | .string s => "string " ++ Text.shown s
  | .sequence => "sequence"
  | .map => "map"

/-- What is wanted, in words. -/
def Wanted.text : Wanted → String
  | .string => "a string"
  | .boolean => "a boolean"
  | .sequence => "a sequence"
  | .unsigned => "usize"
  | .unit => "unit"
  | .variant => "variant identifier"
  | .record name => "struct " ++ name
  | .tagged name => "internally tagged enum " ++ name

/-- So many elements. -/
def elements (n : Nat) : String := if n = 1 then "1 element" else toString n ++ " elements"

/-- The names a variant may have, in words. -/
def oneOf : List String → String
  | [] => "there are no variants"
  | [a] => "expected `" ++ a ++ "`"
  | [a, b] => "expected `" ++ a ++ "` or `" ++ b ++ "`"
  | names => "expected one of " ++ ", ".intercalate (names.map fun n => "`" ++ n ++ "`")

/-- A mismatch in words. -/
def Mismatch.message : Mismatch → String
  | .missingField name => "missing field `" ++ name ++ "`"
  | .duplicateField name => "duplicate field `" ++ name ++ "`"
  | .unknownVariant found known => "unknown variant `" ++ found ++ "`, " ++ oneOf known
  | .wrongType found wanted => "invalid type: " ++ found.text ++ ", expected " ++ wanted.text
  | .negative n => "invalid value: integer `-" ++ toString n ++ "`, expected usize"
  | .variantIndex n count =>
    "invalid value: integer `" ++ toString n ++ "`, expected variant index 0 <= i < " ++
      toString count
  | .tooShort found record size =>
    "invalid length " ++ toString found ++ ", expected struct " ++ record ++ " with " ++
      elements size
  | .tooLong found size =>
    "invalid length " ++ toString found ++ ", expected " ++ elements size ++ " in sequence"

/-- What stands in the place of a value, unless nothing can be read there. -/
def Tree.found : Tree → Except ReadError Found
  | .null => .ok .null
  | .bool b => .ok (.bool b)
  | .number n => if n.kind.isSome then .ok (.number n) else .error (.fault .malformed)
  | .string (some s) => .ok (.string s)
  | .string none => .error (.fault .malformed)
  | .array .. => .ok .sequence
  | .object .. => .ok .map
  | .hole place => .error (.fault place.fault)

/-- The error of a reader that wants something else than what stands there. -/
def Tree.refuse {α : Type} (t : Tree) (wanted : Wanted) : Except ReadError α :=
  match t.found with
  | .ok found => .error (.mismatch (.wrongType found wanted))
  | .error e => .error e

/-- What a value is. -/
def found : Json → Found
  | .null => .null
  | .bool b => .bool b
  | .number n => .number n
  | .string s => .string s
  | .array _ => .sequence
  | .object _ => .map

/-- The error of a reader that wants something else than a value. -/
def refuse {α : Type} (v : Json) (wanted : Wanted) : Except ReadError α :=
  .error (.mismatch (.wrongType v.found wanted))

end ImageLint.Json
