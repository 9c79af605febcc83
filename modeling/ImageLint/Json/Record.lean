import ImageLint.Json.Mismatch

/-!
# Reading records

A record is read from an object, by the names of its fields and in any order, or from an array, in
the order of its declaration. Members with other names are passed over. A field that is named twice
is an error, as is one that must be there and is not.

The same rules hold for a text that may still prove broken (`Schema.ofTree`) and for a value that
has been read whole (`Schema.ofJson`). They differ in what comes after the last item of an array:
in a text it is malformed, in a value it is an item too many.
-/

namespace ImageLint.Json

/-- The fields of a record in the order of their declaration. -/
structure Schema (F : Type) where
  name : String
  fields : List F
  key : F → String

/-- The fields that have been read so far. -/
def Fields {F : Type} (V : F → Type) : Type := (f : F) → Option (V f)

namespace Fields

variable {F : Type} {V : F → Type} [DecidableEq F]

/-- No field yet. -/
def empty : Fields V := fun _ => none

/-- One more field. -/
def set (p : Fields V) (f : F) (v : V f) : Fields V := fun g =>
  if h : f = g then some (h ▸ v) else p g

omit [DecidableEq F] in
@[simp] theorem empty_apply (f : F) : (empty : Fields V) f = none := rfl

@[simp] theorem set_same (p : Fields V) (f : F) (v : V f) : p.set f v f = some v := by
  simp [set]

@[simp] theorem set_other (p : Fields V) {f g : F} (v : V f) (h : f ≠ g) : p.set f v g = p g := by
  simp [set, h]

/-- A field that must be there. -/
def need (p : Fields V) (f : F) : Except F (V f) :=
  match p f with
  | some v => .ok v
  | none => .error f

end Fields

namespace Schema

variable {F α T : Type} {V : F → Type} [DecidableEq F]

omit [DecidableEq F] in
/-- The field with the given name. -/
def field? (s : Schema F) (name : String) : Option F := s.fields.find? (s.key · = name)

/-- Reads members in order. A name that cannot be read is malformed. -/
def collectMembers (s : Schema F) (pass : α → Except ReadError Unit)
    (decode : (f : F) → α → Except ReadError (V f)) :
    List (Option String × α) → Fields V → Except ReadError (Fields V)
  | [], p => .ok p
  | (none, _) :: _, _ => .error (.fault .malformed)
  | (some name, a) :: rest, p =>
    match s.field? name with
    | none => do
      pass a
      collectMembers s pass decode rest p
    | some f =>
      if (p f).isSome then .error (.mismatch (.duplicateField (s.key f)))
      else do
        let v ← decode f a
        collectMembers s pass decode rest (p.set f v)

/-- Reads items in order as long as there are fields, and returns the fields without an item and
the items without a field. -/
def collectItems (decode : (f : F) → α → Except ReadError (V f)) :
    List F → List α → Fields V → Except ReadError (Fields V × List F × List α)
  | f :: fs, a :: rest, p => do
    let v ← decode f a
    collectItems decode fs rest (p.set f v)
  | fs, rest, p => .ok (p, fs, rest)

omit [DecidableEq F] in
/-- The record, unless a field is missing in an object. -/
def finishObject (s : Schema F) (build : Fields V → Except F T) (p : Fields V) :
    Except ReadError T :=
  match build p with
  | .ok t => .ok t
  | .error f => .error (.mismatch (.missingField (s.key f)))

/-- The record, unless a field is missing in an array. -/
def finishArray (s : Schema F) (build : Fields V → Except F T) (p : Fields V) :
    Except ReadError T :=
  match build p with
  | .ok t => .ok t
  | .error f => .error (.mismatch (.tooShort (s.fields.idxOf f) s.name s.fields.length))

/-- What is wrong after the last field of a record in an array, if anything. -/
def afterLast (left : List α) : Ending → Option Fault
  | .closed => if left.isEmpty then none else some .malformed
  | .cut => some (if left.isEmpty then .truncated else .malformed)
  | _ => some .malformed

/-- Reads a record from a text that may still prove broken. -/
def ofTree (s : Schema F) (decode : (f : F) → Tree → Except ReadError (V f))
    (build : Fields V → Except F T) : Tree → Except ReadError T
  | .object members ending => do
    let p ← s.collectMembers (fun t => t.skip.mapError .fault) decode members .empty
    match ending.fault with
    | some f => throw (.fault f)
    | none => s.finishObject build p
  | .array items ending => do
    let (p, fields, left) ← collectItems decode s.fields items .empty
    match if fields.isEmpty then afterLast left ending else ending.fault with
    | some f => throw (.fault f)
    | none => s.finishArray build p
  | t => t.refuse (.record s.name)

/-- Reads a record from a value. -/
def ofJson (s : Schema F) (decode : (f : F) → Json → Except ReadError (V f))
    (build : Fields V → Except F T) : Json → Except ReadError T
  | .object members => do
    let p ← s.collectMembers (fun _ => .ok ()) decode
      (members.map fun m => (some m.1, m.2)) .empty
    s.finishObject build p
  | .array items => do
    let (p, _, left) ← collectItems decode s.fields items .empty
    if left.isEmpty then s.finishArray build p
    else throw (.mismatch (.tooLong items.length s.fields.length))
  | v => v.refuse (.record s.name)

end Schema

/-! ## Single values -/

namespace Tree

/-- A text. -/
def text : Tree → Except ReadError String
  | .string (some s) => .ok s
  | t => t.refuse .string

/-- An unsigned integer. -/
def unsigned : Tree → Except ReadError UInt64
  | .number n =>
    match n.kind with
    | some (.natural n) => .ok n
    | some (.negative n) => .error (.mismatch (.negative n))
    | _ => (Tree.number n).refuse .unsigned
  | t => t.refuse .unsigned

/-- A value that may be `null`. -/
def optional {α : Type} (decode : Tree → Except ReadError α) :
    Tree → Except ReadError (Option α)
  | .null => .ok none
  | t => some <$> decode t

/-- The items of an array. -/
def list {α : Type} (decode : Tree → Except ReadError α) : Tree → Except ReadError (List α)
  | .array items ending => do
    let as ← items.mapM decode
    match ending.fault with
    | some f => throw (.fault f)
    | none => pure as
  | t => t.refuse .sequence

end Tree

/-- A text. -/
def text : Json → Except ReadError String
  | .string s => .ok s
  | v => v.refuse .string

/-- A truth value. -/
def truth : Json → Except ReadError Bool
  | .bool b => .ok b
  | v => v.refuse .boolean

/-- An unsigned integer. -/
def unsigned : Json → Except ReadError UInt64
  | .number n =>
    match n.kind with
    | some (.natural n) => .ok n
    | some (.negative n) => .error (.mismatch (.negative n))
    | _ => (Json.number n).refuse .unsigned
  | v => v.refuse .unsigned

/-- A value that may be `null`. -/
def optional {α : Type} (decode : Json → Except ReadError α) : Json → Except ReadError (Option α)
  | .null => .ok none
  | v => some <$> decode v

/-- The items of an array. -/
def list {α : Type} (decode : Json → Except ReadError α) : Json → Except ReadError (List α)
  | .array items => items.mapM decode
  | v => v.refuse .sequence

/-! ## Tagged values -/

/-- The name of the member, or the place of the item, that says which variant a value is. -/
def tagName : String := "kind"

/-- The variants of a tagged value, with their names. -/
abbrev Variants (τ : Type) : Type := List (String × τ)

/-- The variant with the given name. -/
def Variants.named {τ : Type} (variants : Variants τ) (name : String) : Except ReadError τ :=
  match variants.lookup name with
  | some t => .ok t
  | none => .error (.mismatch (.unknownVariant name (variants.map (·.1))))

/-- The variant that a text names. -/
def Variants.ofTree {τ : Type} (variants : Variants τ) : Tree → Except ReadError τ
  | .string (some name) => variants.named name
  | t => t.refuse .variant

/-- The variant that a value names, by its name or by its number. -/
def Variants.ofJson {τ : Type} (variants : Variants τ) : Json → Except ReadError τ
  | .string name => variants.named name
  | .number n =>
    match n.kind with
    | some (.natural i) =>
      match variants[i.toNat]? with
      | some t => .ok t.2
      | none => .error (.mismatch (.variantIndex i.toNat variants.length))
    | _ => (Json.number n).refuse .variant
  | v => v.refuse .variant

/-- Takes the tag out of the members of an object; the other members are read whole. -/
def splitMembers {α τ : Type} (readTag : α → Except ReadError τ)
    (readValue : α → Except ReadError Json) :
    List (Option String × α) → Option τ → Except ReadError (Option τ × List (String × Json))
  | [], tag => .ok (tag, [])
  | (none, _) :: _, _ => .error (.fault .malformed)
  | (some name, a) :: rest, tag =>
    if name = tagName then
      if tag.isSome then .error (.mismatch (.duplicateField tagName))
      else do
        let t ← readTag a
        splitMembers readTag readValue rest (some t)
    else do
      let v ← readValue a
      let (tag, members) ← splitMembers readTag readValue rest tag
      pure (tag, (name, v) :: members)

/-- The variant of a tagged value in a text that may still prove broken, and the rest of the value,
in which at most `depth` arrays and objects are inside one another. -/
def Variants.splitTree {τ : Type} (variants : Variants τ) (name : String) (depth : Nat)
    (t : Tree) : Except ReadError (τ × Json) :=
  let whole (t : Tree) : Except ReadError Json := (t.value (depth - 1)).mapError .fault
  match t with
  | .object members ending => do
    if depth = 0 then throw (.fault .malformed)
    let (tag, members) ← splitMembers variants.ofTree whole members none
    match ending.fault, tag with
    | some f, _ => throw (.fault f)
    | none, none => throw (.mismatch (.missingField tagName))
    | none, some tag => pure (tag, .object members)
  | .array items ending => do
    if depth = 0 then throw (.fault .malformed)
    match items with
    | [] =>
      match ending.fault with
      | some f => throw (.fault f)
      | none => throw (.mismatch (.missingField tagName))
    | tag :: items =>
      let tag ← variants.ofTree tag
      let items ← items.mapM whole
      match ending.fault with
      | some f => throw (.fault f)
      | none => pure (tag, .array items)
  | t => t.refuse (.tagged name)

/-- The variant of a tagged value, and the rest of the value. -/
def Variants.splitJson {τ : Type} (variants : Variants τ) (name : String) :
    Json → Except ReadError (τ × Json)
  | .object members => do
    let (tag, members) ← splitMembers variants.ofJson .ok
      (members.map fun m => (some m.1, m.2)) none
    match tag with
    | none => throw (.mismatch (.missingField tagName))
    | some tag => pure (tag, .object members)
  | .array [] => throw (.mismatch (.missingField tagName))
  | .array (tag :: items) => do
    let tag ← variants.ofJson tag
    pure (tag, .array items)
  | v => v.refuse (.tagged name)

end ImageLint.Json
