import ImageLint.Model.Basic

/-!
# Nodes of a model and how to walk over them

The nodes of a model stand in document order: the model, then for each statement the statement
itself, its section, the attributes of the section and, for a deployment, its content.

`Model.nodes` lists them. `Model.walk` visits them one by one with a state, and `Model.replaceStrings`
visits those that hold a string that may be replaced: the path of a deployment, the value of an
attribute and the path of a content.
-/

namespace ImageLint

/-- The kinds of nodes. -/
inductive NodeKind where
  | model
  | attributeStatement
  | deploymentStatement
  | attributeSection
  | booleanAttribute
  | valuedAttribute
  | contentBlock
  | path
  deriving DecidableEq, Repr

namespace NodeKind

/-- Every kind, in the order of the declaration. -/
def all : List NodeKind :=
  [.model, .attributeStatement, .deploymentStatement, .attributeSection, .booleanAttribute,
    .valuedAttribute, .contentBlock, .path]

def name : NodeKind → String
  | .model => "Model"
  | .attributeStatement => "AttributeStatement"
  | .deploymentStatement => "DeploymentStatement"
  | .attributeSection => "AttributeSection"
  | .booleanAttribute => "BooleanAttribute"
  | .valuedAttribute => "ValuedAttribute"
  | .contentBlock => "ContentBlock"
  | .path => "Path"

/-- The kind with the given name, in exactly that spelling. -/
def ofName? (s : String) : Option NodeKind := all.find? (·.name = s)

/-- Every kind is found under its own name. -/
theorem ofName?_name (k : NodeKind) : ofName? k.name = some k := by cases k <;> decide

end NodeKind

/-- One node of a model. -/
inductive Node where
  | model (m : Model)
  | attributeStatement (s : AttributeStatement)
  | deploymentStatement (s : DeploymentStatement)
  | attributeSection (s : AttributeSection)
  | booleanAttribute (a : BooleanAttribute)
  | valuedAttribute (a : ValuedAttribute)
  | contentBlock (b : ContentBlock)
  | path (p : PathContent)
  deriving DecidableEq, Repr

namespace Node

def kind : Node → NodeKind
  | .model _ => .model
  | .attributeStatement _ => .attributeStatement
  | .deploymentStatement _ => .deploymentStatement
  | .attributeSection _ => .attributeSection
  | .booleanAttribute _ => .booleanAttribute
  | .valuedAttribute _ => .valuedAttribute
  | .contentBlock _ => .contentBlock
  | .path _ => .path

/-- The place of a node. A model has none. -/
def location : Node → Option Location
  | .model _ => none
  | .attributeStatement s => s.location
  | .deploymentStatement s => s.location
  | .attributeSection s => s.location
  | .booleanAttribute a => a.location
  | .valuedAttribute a => a.location
  | .contentBlock b => b.location
  | .path p => p.location

/-- A node in one word: what it is called, or how many parts it has. -/
def text : Node → String
  | .model m => toString m.statements.length
  | .attributeStatement s =>
    match s.attributeSection with
    | some a => toString a.attributes.length
    | none => "none"
  | .deploymentStatement s => s.path
  | .attributeSection s => toString s.attributes.length
  | .booleanAttribute a => (if a.enabled then "+" else "-") ++ a.name
  | .valuedAttribute a => a.name ++ "=" ++ a.value
  | .contentBlock b => b.text
  | .path p => p.value

/-- The string of a node that may be replaced, if it has one. -/
def replaceable : Node → Option String
  | .deploymentStatement s => some s.path
  | .valuedAttribute a => some a.value
  | .path p => some p.value
  | _ => none

end Node

/-! ## The list of nodes -/

def Attribute.node : Attribute → Node
  | .boolean a => .booleanAttribute a
  | .valued a => .valuedAttribute a

def AttributeSection.nodes (s : AttributeSection) : List Node :=
  .attributeSection s :: s.attributes.map Attribute.node

def Content.node : Content → Node
  | .path p => .path p
  | .block b => .contentBlock b

/-- The nodes of a section that may be missing. -/
def AttributeSection.optionalNodes : Option AttributeSection → List Node
  | some s => s.nodes
  | none => []

def Statement.nodes : Statement → List Node
  | .attribute s => .attributeStatement s :: AttributeSection.optionalNodes s.attributeSection
  | .deployment s =>
    .deploymentStatement s ::
      (AttributeSection.optionalNodes s.attributeSection ++ (s.content.map Content.node).toList)

/-- Every node of a model, in document order. -/
def Model.nodes (m : Model) : List Node := .model m :: m.statements.flatMap Statement.nodes

/-! ## Visiting the nodes -/

/-- What to do with a state at each kind of node. -/
structure Visitor (σ : Type) where
  model : Model → σ → σ := fun _ s => s
  attributeStatement : AttributeStatement → σ → σ := fun _ s => s
  deploymentStatement : DeploymentStatement → σ → σ := fun _ s => s
  attributeSection : AttributeSection → σ → σ := fun _ s => s
  booleanAttribute : BooleanAttribute → σ → σ := fun _ s => s
  valuedAttribute : ValuedAttribute → σ → σ := fun _ s => s
  contentBlock : ContentBlock → σ → σ := fun _ s => s
  path : PathContent → σ → σ := fun _ s => s

namespace Visitor

variable {σ : Type}

/-- What a visitor does at a node. -/
def visit (v : Visitor σ) : Node → σ → σ
  | .model m => v.model m
  | .attributeStatement s => v.attributeStatement s
  | .deploymentStatement s => v.deploymentStatement s
  | .attributeSection s => v.attributeSection s
  | .booleanAttribute a => v.booleanAttribute a
  | .valuedAttribute a => v.valuedAttribute a
  | .contentBlock b => v.contentBlock b
  | .path p => v.path p

def walkAttributes (v : Visitor σ) : List Attribute → σ → σ
  | [], s => s
  | .boolean a :: rest, s => v.walkAttributes rest (v.booleanAttribute a s)
  | .valued a :: rest, s => v.walkAttributes rest (v.valuedAttribute a s)

def walkSection (v : Visitor σ) : Option AttributeSection → σ → σ
  | none, s => s
  | some a, s => v.walkAttributes a.attributes (v.attributeSection a s)

def walkContent (v : Visitor σ) : Option Content → σ → σ
  | none, s => s
  | some (.path p), s => v.path p s
  | some (.block b), s => v.contentBlock b s

def walkStatement (v : Visitor σ) : Statement → σ → σ
  | .attribute a, s => v.walkSection a.attributeSection (v.attributeStatement a s)
  | .deployment d, s =>
    v.walkContent d.content (v.walkSection d.attributeSection (v.deploymentStatement d s))

def walkStatements (v : Visitor σ) : List Statement → σ → σ
  | [], s => s
  | a :: rest, s => v.walkStatements rest (v.walkStatement a s)

end Visitor

/-- Visits every node of a model in document order. -/
def Model.walk {σ : Type} (m : Model) (v : Visitor σ) (s : σ) : σ :=
  v.walkStatements m.statements (v.model m s)

/-! ## Replacing strings -/

/-- New strings for the nodes that hold one that may be replaced, with a state. -/
structure Replacer (σ : Type) where
  deploymentPath : DeploymentStatement → StateM σ String := fun d => pure d.path
  attributeValue : ValuedAttribute → StateM σ String := fun a => pure a.value
  contentPath : PathContent → StateM σ String := fun p => pure p.value

namespace Replacer

variable {σ : Type}

/-- Replaces every such string in the same way. -/
def ofFunction (f : String → String) : Replacer Unit where
  deploymentPath d := pure (f d.path)
  attributeValue a := pure (f a.value)
  contentPath p := pure (f p.value)

def replaceInAttribute (r : Replacer σ) : Attribute → StateM σ Attribute
  | .boolean a => pure (.boolean a)
  | .valued a => do
    let value ← r.attributeValue a
    pure (.valued { a with value })

def replaceInAttributes (r : Replacer σ) : List Attribute → StateM σ (List Attribute)
  | [] => pure []
  | a :: rest => do
    let a ← r.replaceInAttribute a
    let rest ← r.replaceInAttributes rest
    pure (a :: rest)

def replaceInSection (r : Replacer σ) :
    Option AttributeSection → StateM σ (Option AttributeSection)
  | none => pure none
  | some s => do
    let attributes ← r.replaceInAttributes s.attributes
    pure (some { s with attributes })

def replaceInContent (r : Replacer σ) : Option Content → StateM σ (Option Content)
  | some (.path p) => do
    let value ← r.contentPath p
    pure (some (.path { p with value }))
  | c => pure c

def replaceInStatement (r : Replacer σ) : Statement → StateM σ Statement
  | .attribute s => do
    let attributeSection ← r.replaceInSection s.attributeSection
    pure (.attribute { s with attributeSection })
  | .deployment s => do
    let path ← r.deploymentPath s
    let attributeSection ← r.replaceInSection s.attributeSection
    let content ← r.replaceInContent s.content
    pure (.deployment { s with path, attributeSection, content })

def replaceInStatements (r : Replacer σ) : List Statement → StateM σ (List Statement)
  | [] => pure []
  | s :: rest => do
    let s ← r.replaceInStatement s
    let rest ← r.replaceInStatements rest
    pure (s :: rest)

end Replacer

/-- Replaces the strings of a model in document order. -/
def Model.replaceStrings {σ : Type} (m : Model) (r : Replacer σ) : StateM σ Model := do
  let statements ← r.replaceInStatements m.statements
  pure { statements }

/-- Replaces the path of every deployment, the value of every attribute and the path of every
content in the same way. -/
def Model.mapStrings (m : Model) (f : String → String) : Model :=
  (m.replaceStrings (.ofFunction f)).run () |>.1

end ImageLint
