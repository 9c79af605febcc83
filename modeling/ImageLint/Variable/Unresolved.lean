import ImageLint.Association
import ImageLint.Model.Node
import ImageLint.Rule
import ImageLint.Variable.Reference

/-!
# Variables of a model

References to variables may stand in the path of a deployment, in the value of an attribute and in
the path of a content, and nowhere else: texts in braces are left alone. `Model.substitute` replaces
the references, and `Model.unresolved` reports each one that is left.
-/

namespace ImageLint

open Variable

/-- The values of some variables. -/
structure Bindings where
  /-- The variables with a value, the latest first. -/
  pairs : List (String × String)
  deriving DecidableEq, Repr

namespace Bindings

def empty : Bindings := ⟨[]⟩

/-- The value of a variable. -/
def value (b : Bindings) (name : String) : Option String := b.pairs.lookup name

/-- Binds a variable, whether it had a value or not. -/
def insert (b : Bindings) (pair : String × String) : Bindings := ⟨pair :: b.pairs⟩

/-- Binds variables one after another, so that the last of a name wins. -/
def insertAll (b : Bindings) (pairs : List (String × String)) : Bindings := pairs.foldl insert b

/-- Whether no variable has a value. -/
def isEmpty (b : Bindings) : Bool := b.pairs.isEmpty

/-- The variables with their values, each variable once. -/
def toList (b : Bindings) : List (String × String) :=
  b.pairs.foldr (fun p entries => Association.set p.1 p.2 entries) []

/-- A bound variable has the value it was bound to last. -/
theorem value_insert (b : Bindings) (pair : String × String) (name : String) :
    (b.insert pair).value name = if name = pair.1 then some pair.2 else b.value name := by
  exact Association.lookup_cons pair.1 pair.2 b.pairs name

/-- The list holds the value of each variable. -/
theorem lookup_toList (b : Bindings) (name : String) : b.toList.lookup name = b.value name := by
  obtain ⟨pairs⟩ := b
  unfold toList value
  induction pairs with
  | nil => rfl
  | cons p pairs ih =>
    rw [List.foldr_cons, Association.lookup_set, Association.lookup_cons, ih]

end Bindings

/-- Replaces the references to variables with a value. Without any variable nothing is done. -/
def Model.substitute (m : Model) (b : Bindings) : Model :=
  if b.isEmpty then m else m.mapStrings (Variable.substitute b.value)

namespace Variable

/-- Where a reference stands, in words. -/
def whereabouts : Node → String
  | .deploymentStatement s => "path '" ++ s.path ++ "'"
  | .valuedAttribute a => "attribute " ++ a.name ++ "=" ++ a.value
  | .path p => "content '" ++ p.value ++ "'"
  | _ => ""

/-- The finding for a reference without a value. -/
def finding (level : Severity) (file : Option String) (n : Node) (name : String) : Diagnostic :=
  let message := "Unresolved variable " ++ String.ofList (referenceText name.toList) ++ " in " ++
    whereabouts n
  let d : Diagnostic := { level, message, code := some Rule.unresolvedVariable.code }
  (d.atLocation n.location).inFile file

/-- The findings for the references in a node. -/
def findings (level : Severity) (file : Option String) (n : Node) : List Diagnostic :=
  match n.replaceable with
  | some s => (references s).map (finding level file n)
  | none => []

/-- The severity of an unresolved variable. -/
def severity (strict : Bool) : Severity := if strict then .error else .warning

end Variable

/-- A finding for every reference in a model, in document order. -/
def Model.unresolved (m : Model) (strict : Bool) (file : Option String) : List Diagnostic :=
  m.nodes.flatMap (Variable.findings (Variable.severity strict) file)

end ImageLint
