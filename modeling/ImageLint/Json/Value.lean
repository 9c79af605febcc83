import ImageLint.Json.Number

/-!
# JSON values

The values of a JSON text. The members of an object keep the order in which they are written.
-/

namespace ImageLint

/-- A JSON value. -/
inductive Json where
  | null
  | bool (b : Bool)
  | number (n : Json.Number)
  | string (s : String)
  | array (items : List Json)
  | object (members : List (String × Json))
  deriving Repr

namespace Json

instance : Inhabited Json := ⟨.null⟩

/-- A natural number. -/
def nat (n : Nat) : Json := .number (.ofNat n)

/-- A list of texts. -/
def strings (ss : List String) : Json := .array (ss.map .string)

/-- A value that may be absent, written as `null` then. -/
def option {α : Type} (encode : α → Json) : Option α → Json
  | none => .null
  | some a => encode a

/-- The member of an object with the given name, the last one if there are several. -/
def get? (name : String) : Json → Option Json
  | .object members => (members.reverse.find? (·.1 = name)).map (·.2)
  | _ => none

end Json

end ImageLint
