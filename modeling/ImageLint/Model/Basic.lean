import ImageLint.Diagnostic

/-!
# The model of a build file

A build file says which files an image holds. Its statements are either attributes on their own,
which hold for what follows, or the deployment of a target path, with attributes of its own and
with a content: the path of a file on the host, or a text that stands in the build file itself.
-/

namespace ImageLint

/-- An attribute that is switched on or off: `+name` or `-name`. -/
structure BooleanAttribute where
  name : String
  enabled : Bool
  location : Option Location
  deriving DecidableEq, Repr

/-- An attribute with a value: `name=value`. -/
structure ValuedAttribute where
  name : String
  value : String
  location : Option Location
  deriving DecidableEq, Repr

inductive Attribute where
  | boolean (a : BooleanAttribute)
  | valued (a : ValuedAttribute)
  deriving DecidableEq, Repr

/-- Attributes in brackets. -/
structure AttributeSection where
  attributes : List Attribute
  location : Option Location
  deriving DecidableEq, Repr

/-- The path of a file or directory on the host. -/
structure PathContent where
  value : String
  location : Option Location
  deriving DecidableEq, Repr

/-- A text in braces. It is never looked into. -/
structure ContentBlock where
  text : String
  location : Option Location
  deriving DecidableEq, Repr

inductive Content where
  | path (p : PathContent)
  | block (b : ContentBlock)
  deriving DecidableEq, Repr

/-- Attributes that stand on their own. -/
structure AttributeStatement where
  attributeSection : Option AttributeSection
  location : Option Location
  deriving DecidableEq, Repr

/-- The deployment of a target path. -/
structure DeploymentStatement where
  path : String
  /-- Whether the target is followed by an equals sign. -/
  isAssignment : Bool
  attributeSection : Option AttributeSection
  content : Option Content
  location : Option Location
  deriving DecidableEq, Repr

inductive Statement where
  | attribute (s : AttributeStatement)
  | deployment (s : DeploymentStatement)
  deriving DecidableEq, Repr

/-- A build file: its statements in order. -/
structure Model where
  statements : List Statement
  deriving DecidableEq, Repr

def Attribute.name : Attribute → String
  | .boolean a => a.name
  | .valued a => a.name

namespace Statement

def attributeSection : Statement → Option AttributeSection
  | .attribute s => s.attributeSection
  | .deployment s => s.attributeSection

def location : Statement → Option Location
  | .attribute s => s.location
  | .deployment s => s.location

def deployment? : Statement → Option DeploymentStatement
  | .deployment s => some s
  | .attribute _ => none

end Statement

/-- The deployments of a build file, in order. -/
def Model.deployments (m : Model) : List DeploymentStatement :=
  m.statements.filterMap Statement.deployment?

namespace DeploymentStatement

/-- The attributes of the statement's own section. -/
def attributes (s : DeploymentStatement) : List Attribute :=
  match s.attributeSection with
  | some a => a.attributes
  | none => []

/-- The path on the host, unless the content is a block or missing. -/
def sourcePath (s : DeploymentStatement) : Option String :=
  match s.content with
  | some (.path p) => some p.value
  | _ => none

/-- The first valued attribute with the given name. -/
def valuedAttribute (s : DeploymentStatement) (name : String) : Option ValuedAttribute :=
  s.attributes.findSome? fun
    | .valued a => if a.name = name then some a else none
    | .boolean _ => none

/-- Whether some attribute of the section is `name=value`. -/
def hasValuedAttribute (s : DeploymentStatement) (name value : String) : Bool :=
  s.attributes.any fun
    | .valued a => a.name = name && a.value = value
    | .boolean _ => false

end DeploymentStatement

/-- A build file as a parser hands it over: with the name of the file and with what the parser
found wrong. -/
structure Document where
  file : Option String
  model : Model
  syntaxDiagnostics : List Diagnostic
  deriving DecidableEq, Repr

/-- Whether the parser found an error. -/
def Document.hasErrors (d : Document) : Bool := d.syntaxDiagnostics.any Diagnostic.isError

end ImageLint
