import ImageLint.Model.Basic

/-!
# Drafts of documents

A document written step by step, as if each statement stood on a line of its own. Attributes and
contents share the line of their statement, so every finding in a drafted document has a place
that is easy to tell in advance.
-/

namespace ImageLint

/-- A document in the making. -/
structure Draft where
  statements : List Statement := []
  syntaxDiagnostics : List Diagnostic := []
  deriving DecidableEq, Repr

namespace Draft

/-- One step of writing a document. -/
inductive Step where
  /-- Begins a statement of attributes on their own. -/
  | attributeStatement
  /-- Begins a deployment without content. -/
  | deploy (target : String)
  /-- Begins a deployment from a path on the host. -/
  | assign (target source : String)
  /-- Begins a deployment of a text. -/
  | inline (target text : String)
  /-- Sets the path on the host of the last statement, if it is a deployment. -/
  | source (path : String)
  /-- Adds an attribute to the last statement. -/
  | boolean (name : String) (enabled : Bool)
  /-- Adds an attribute with a value to the last statement. -/
  | valued (name value : String)
  /-- Adds an error of the parser. -/
  | syntaxError (message : String)
  deriving DecidableEq, Repr

/-- Why a step cannot be taken. -/
inductive Error where
  /-- There is no statement yet that could take an attribute. -/
  | noStatement
  deriving DecidableEq, Repr

def Error.message : Error → String
  | .noStatement => "attributes must follow a statement"

/-- The place of the statement with the given number, counted from zero. -/
def placeOf (n : Nat) : Location := ⟨(n + 1).toUInt64, 1⟩

/-- The place of the next statement. -/
def nextPlace (d : Draft) : Option Location := some (placeOf d.statements.length)

/-- Changes the last item of a list, if there is one. -/
def mapLast {α : Type} (f : α → α) : List α → List α
  | [] => []
  | [a] => [f a]
  | a :: b :: rest => a :: mapLast f (b :: rest)

/-- Begins a statement. -/
def begin (d : Draft) (s : Statement) : Draft := { d with statements := d.statements ++ [s] }

/-- A deployment without attributes and content. -/
def bareDeployment (target : String) (place : Option Location) : DeploymentStatement :=
  { path := target, isAssignment := false, attributeSection := none, content := none,
    location := place }

/-- Gives a deployment a content, at its own place. -/
def withContent (make : Option Location → Content) (s : DeploymentStatement) :
    DeploymentStatement :=
  { s with isAssignment := true, content := some (make s.location) }

/-- Gives a statement a content, if it is a deployment. -/
def setContent (make : Option Location → Content) : Statement → Statement
  | .deployment s => .deployment (withContent make s)
  | s => s

/-- The section with one more attribute, at the place of the statement. -/
def addToSection (place : Option Location) (a : Attribute) :
    Option AttributeSection → AttributeSection
  | some s => { s with attributes := s.attributes ++ [a] }
  | none => { attributes := [a], location := place }

/-- Adds an attribute to a statement, at its place. -/
def addAttribute (make : Option Location → Attribute) : Statement → Statement
  | .attribute s =>
    .attribute { s with
      attributeSection := some (addToSection s.location (make s.location) s.attributeSection) }
  | .deployment s =>
    .deployment { s with
      attributeSection := some (addToSection s.location (make s.location) s.attributeSection) }

/-- Adds an attribute to the last statement. -/
def attach (d : Draft) (make : Option Location → Attribute) : Except Error Draft :=
  if d.statements.isEmpty then .error .noStatement
  else .ok { d with statements := mapLast (addAttribute make) d.statements }

/-- Takes a step. -/
def step (d : Draft) : Step → Except Error Draft
  | .attributeStatement =>
    let place := d.nextPlace
    .ok (d.begin (.attribute
      { attributeSection := some { attributes := [], location := place }, location := place }))
  | .deploy target => .ok (d.begin (.deployment (bareDeployment target d.nextPlace)))
  | .assign target source =>
    .ok (d.begin (.deployment (withContent (fun l => .path ⟨source, l⟩)
      (bareDeployment target d.nextPlace))))
  | .inline target text =>
    .ok (d.begin (.deployment (withContent (fun l => .block ⟨text, l⟩)
      (bareDeployment target d.nextPlace))))
  | .source path =>
    .ok { d with statements := mapLast (setContent fun l => .path ⟨path, l⟩) d.statements }
  | .boolean name enabled => d.attach fun l => .boolean ⟨name, enabled, l⟩
  | .valued name value => d.attach fun l => .valued ⟨name, value, l⟩
  | .syntaxError message =>
    .ok { d with syntaxDiagnostics := d.syntaxDiagnostics ++
      [{ Diagnostic.error message with
        line := some (max 1 d.statements.length).toUInt64, column := some 1 }] }

/-- Takes steps one after another. -/
def run (d : Draft) (steps : List Step) : Except Error Draft := steps.foldlM step d

/-- The draft before the first step and after each one. -/
def states (d : Draft) : List Step → Except Error (List Draft)
  | [] => .ok [d]
  | s :: rest => do
    let next ← d.step s
    let later ← next.states rest
    pure (d :: later)

def model (d : Draft) : Model := ⟨d.statements⟩

/-- The drafted document under the name of a file. -/
def document (d : Draft) (file : String) : Document :=
  { file := some file, model := d.model, syntaxDiagnostics := d.syntaxDiagnostics }

end Draft

end ImageLint
