import ImageLint.Json.Record
import ImageLint.Model.Basic

/-!
# Reading documents

Documents, models, attributes and diagnostics from their JSON texts. The first thing wrong in
reading order is what is reported. A statement is taken apart only after it has been read whole, up
to the name of its kind, which is looked at as soon as it is met.
-/

namespace ImageLint

open Json

/-! ## Locations -/

namespace Location

inductive Field where
  | line
  | column
  deriving DecidableEq

def schema : Schema Field where
  name := "SourceLocation"
  fields := [.line, .column]
  key
    | .line => "line"
    | .column => "column"

abbrev Value : Field → Type := fun _ => UInt64

def build (p : Fields Value) : Except Field Location := do
  let line ← p.need .line
  let column ← p.need .column
  pure { line, column }

def ofJson : Json → Except ReadError Location := schema.ofJson (fun _ => Json.unsigned) build

end Location

/-! ## Attributes -/

namespace BooleanAttribute

inductive Field where
  | name
  | enabled
  | location
  deriving DecidableEq

def schema : Schema Field where
  name := "BooleanAttribute"
  fields := [.name, .enabled, .location]
  key
    | .name => "name"
    | .enabled => "enabled"
    | .location => "location"

abbrev Value : Field → Type
  | .name => String
  | .enabled => Bool
  | .location => Option Location

def decode : (f : Field) → Json → Except ReadError (Value f)
  | .name => Json.text
  | .enabled => Json.truth
  | .location => Json.optional Location.ofJson

def build (p : Fields Value) : Except Field BooleanAttribute := do
  let name ← p.need .name
  pure { name, enabled := (p .enabled).getD true, location := (p .location).getD none }

def ofJson : Json → Except ReadError BooleanAttribute := schema.ofJson decode build

end BooleanAttribute

namespace ValuedAttribute

inductive Field where
  | name
  | value
  | location
  deriving DecidableEq

def schema : Schema Field where
  name := "ValuedAttribute"
  fields := [.name, .value, .location]
  key
    | .name => "name"
    | .value => "value"
    | .location => "location"

abbrev Value : Field → Type
  | .name => String
  | .value => String
  | .location => Option Location

def decode : (f : Field) → Json → Except ReadError (Value f)
  | .name => Json.text
  | .value => Json.text
  | .location => Json.optional Location.ofJson

def build (p : Fields Value) : Except Field ValuedAttribute := do
  let name ← p.need .name
  let value ← p.need .value
  pure { name, value, location := (p .location).getD none }

def ofJson : Json → Except ReadError ValuedAttribute := schema.ofJson decode build

end ValuedAttribute

namespace Attribute

inductive Kind where
  | boolean
  | valued
  deriving DecidableEq

def kinds : Variants Kind := [("boolean", .boolean), ("valued", .valued)]

/-- The attribute of a kind, from the members besides the kind. -/
def ofBody (kind : Kind) (body : Json) : Except ReadError Attribute :=
  match kind with
  | .boolean => .boolean <$> BooleanAttribute.ofJson body
  | .valued => .valued <$> ValuedAttribute.ofJson body

def ofJson (v : Json) : Except ReadError Attribute := do
  let (kind, body) ← kinds.splitJson "Attribute" v
  ofBody kind body

/-- An attribute from a text that may still prove broken. -/
def ofTree (depth : Nat) (t : Tree) : Except ReadError Attribute := do
  let (kind, body) ← kinds.splitTree "Attribute" depth t
  ofBody kind body

end Attribute

namespace AttributeSection

inductive Field where
  | attributes
  | location
  deriving DecidableEq

def schema : Schema Field where
  name := "AttributeSection"
  fields := [.attributes, .location]
  key
    | .attributes => "attributes"
    | .location => "location"

abbrev Value : Field → Type
  | .attributes => List Attribute
  | .location => Option Location

def decode : (f : Field) → Json → Except ReadError (Value f)
  | .attributes => Json.list Attribute.ofJson
  | .location => Json.optional Location.ofJson

def build (p : Fields Value) : Except Field AttributeSection :=
  .ok { attributes := (p .attributes).getD [], location := (p .location).getD none }

def ofJson : Json → Except ReadError AttributeSection := schema.ofJson decode build

end AttributeSection

/-! ## Contents -/

namespace PathContent

inductive Field where
  | value
  | location
  deriving DecidableEq

def schema : Schema Field where
  name := "PathContent"
  fields := [.value, .location]
  key
    | .value => "value"
    | .location => "location"

abbrev Value : Field → Type
  | .value => String
  | .location => Option Location

def decode : (f : Field) → Json → Except ReadError (Value f)
  | .value => Json.text
  | .location => Json.optional Location.ofJson

def build (p : Fields Value) : Except Field PathContent := do
  let value ← p.need .value
  pure { value, location := (p .location).getD none }

def ofJson : Json → Except ReadError PathContent := schema.ofJson decode build

end PathContent

namespace ContentBlock

inductive Field where
  | text
  | location
  deriving DecidableEq

def schema : Schema Field where
  name := "ContentBlock"
  fields := [.text, .location]
  key
    | .text => "text"
    | .location => "location"

abbrev Value : Field → Type
  | .text => String
  | .location => Option Location

def decode : (f : Field) → Json → Except ReadError (Value f)
  | .text => Json.text
  | .location => Json.optional Location.ofJson

def build (p : Fields Value) : Except Field ContentBlock :=
  .ok { text := (p .text).getD "", location := (p .location).getD none }

def ofJson : Json → Except ReadError ContentBlock := schema.ofJson decode build

end ContentBlock

namespace Content

inductive Kind where
  | path
  | block
  deriving DecidableEq

def kinds : Variants Kind := [("path", .path), ("block", .block)]

def ofJson (v : Json) : Except ReadError Content := do
  let (kind, body) ← kinds.splitJson "Content" v
  match kind with
  | .path => .path <$> PathContent.ofJson body
  | .block => .block <$> ContentBlock.ofJson body

end Content

/-! ## Statements -/

namespace AttributeStatement

inductive Field where
  | attributeSection
  | location
  deriving DecidableEq

def schema : Schema Field where
  name := "AttributeStatement"
  fields := [.attributeSection, .location]
  key
    | .attributeSection => "attribute_section"
    | .location => "location"

abbrev Value : Field → Type
  | .attributeSection => Option AttributeSection
  | .location => Option Location

def decode : (f : Field) → Json → Except ReadError (Value f)
  | .attributeSection => Json.optional AttributeSection.ofJson
  | .location => Json.optional Location.ofJson

def build (p : Fields Value) : Except Field AttributeStatement :=
  .ok { attributeSection := (p .attributeSection).getD none,
        location := (p .location).getD none }

def ofJson : Json → Except ReadError AttributeStatement := schema.ofJson decode build

end AttributeStatement

namespace DeploymentStatement

inductive Field where
  | path
  | isAssignment
  | attributeSection
  | content
  | location
  deriving DecidableEq

def schema : Schema Field where
  name := "DeploymentStatement"
  fields := [.path, .isAssignment, .attributeSection, .content, .location]
  key
    | .path => "path"
    | .isAssignment => "is_assignment"
    | .attributeSection => "attribute_section"
    | .content => "content"
    | .location => "location"

abbrev Value : Field → Type
  | .path => String
  | .isAssignment => Bool
  | .attributeSection => Option AttributeSection
  | .content => Option Content
  | .location => Option Location

def decode : (f : Field) → Json → Except ReadError (Value f)
  | .path => Json.text
  | .isAssignment => Json.truth
  | .attributeSection => Json.optional AttributeSection.ofJson
  | .content => Json.optional Content.ofJson
  | .location => Json.optional Location.ofJson

def build (p : Fields Value) : Except Field DeploymentStatement := do
  let path ← p.need .path
  pure {
    path
    isAssignment := (p .isAssignment).getD false
    attributeSection := (p .attributeSection).getD none
    content := (p .content).getD none
    location := (p .location).getD none }

def ofJson : Json → Except ReadError DeploymentStatement := schema.ofJson decode build

end DeploymentStatement

namespace Statement

inductive Kind where
  | attribute
  | deployment
  deriving DecidableEq

def kinds : Variants Kind := [("attribute", .attribute), ("deployment", .deployment)]

/-- A statement from a text that may still prove broken. -/
def ofTree (depth : Nat) (t : Tree) : Except ReadError Statement := do
  let (kind, body) ← kinds.splitTree "Statement" depth t
  match kind with
  | .attribute => .attribute <$> AttributeStatement.ofJson body
  | .deployment => .deployment <$> DeploymentStatement.ofJson body

end Statement

/-! ## Models, diagnostics and documents -/

namespace Model

inductive Field where
  | statements
  deriving DecidableEq

def schema : Schema Field where
  name := "Model"
  fields := [.statements]
  key
    | .statements => "statements"

abbrev Value : Field → Type := fun _ => List Statement

def build (p : Fields Value) : Except Field Model :=
  .ok { statements := (p .statements).getD [] }

/-- A model, in which at most `depth` arrays and objects are inside one another. -/
def ofTree (depth : Nat) : Tree → Except ReadError Model :=
  schema.ofTree (fun _ => Tree.list (Statement.ofTree (depth - 2))) build

end Model

namespace Severity

def kinds : Variants Severity := [("warning", .warning), ("error", .error)]

/-- A severity by its name, or as the name of an only member that is `null`. Anything else is
malformed. -/
def ofTree : Tree → Except ReadError Severity
  | .string (some name) => kinds.named name
  | .hole .atEnd => .error (.fault .truncated)
  | .hole (.inString f _) => .error (.fault f)
  | .object [] (.bad found) => do
    let (t, _) := Tree.read 1 [found]
    match found with
    | .openArray => (Tree.array [] .closed).refuse .variant
    | .openObject => (Tree.object [] .closed).refuse .variant
    | _ => t.refuse .variant
  | .object [] ending => .error (.fault (ending.fault.getD .malformed))
  | .object ((some name, value) :: rest) ending => do
    let level ← kinds.named name
    match value with
    | .null => pure ()
    | t => t.refuse .unit
    match rest, ending with
    | [], .closed => pure level
    | [], .cut => throw (.fault .truncated)
    | _, _ => throw (.fault .malformed)
  | _ => .error (.fault .malformed)

end Severity

namespace Diagnostic

inductive Field where
  | level
  | message
  | code
  | file
  | line
  | column
  | context
  | suggestion
  deriving DecidableEq

def schema : Schema Field where
  name := "Diagnostic"
  fields := [.level, .message, .code, .file, .line, .column, .context, .suggestion]
  key
    | .level => "level"
    | .message => "message"
    | .code => "code"
    | .file => "file"
    | .line => "line"
    | .column => "column"
    | .context => "context"
    | .suggestion => "suggestion"

abbrev Value : Field → Type
  | .level => Severity
  | .message => String
  | .line => Option UInt64
  | .column => Option UInt64
  | _ => Option String

def decode : (f : Field) → Tree → Except ReadError (Value f)
  | .level => Severity.ofTree
  | .message => Tree.text
  | .code => Tree.optional Tree.text
  | .file => Tree.optional Tree.text
  | .line => Tree.optional Tree.unsigned
  | .column => Tree.optional Tree.unsigned
  | .context => Tree.optional Tree.text
  | .suggestion => Tree.optional Tree.text

def build (p : Fields Value) : Except Field Diagnostic := do
  let level ← p.need .level
  let message ← p.need .message
  pure {
    level
    message
    code := (p .code).getD none
    file := (p .file).getD none
    line := (p .line).getD none
    column := (p .column).getD none
    context := (p .context).getD none
    suggestion := (p .suggestion).getD none }

def ofTree : Tree → Except ReadError Diagnostic := schema.ofTree decode build

end Diagnostic

namespace Document

inductive Field where
  | file
  | model
  | syntaxDiagnostics
  deriving DecidableEq

def schema : Schema Field where
  name := "ParsedDocument"
  fields := [.file, .model, .syntaxDiagnostics]
  key
    | .file => "file"
    | .model => "model"
    | .syntaxDiagnostics => "syntax_diagnostics"

abbrev Value : Field → Type
  | .file => Option String
  | .model => Model
  | .syntaxDiagnostics => List Diagnostic

def decode (depth : Nat) : (f : Field) → Tree → Except ReadError (Value f)
  | .file => Tree.optional Tree.text
  | .model => Model.ofTree (depth - 1)
  | .syntaxDiagnostics => Tree.list Diagnostic.ofTree

def build (p : Fields Value) : Except Field Document :=
  .ok {
    file := (p .file).getD none
    model := (p .model).getD ⟨[]⟩
    syntaxDiagnostics := (p .syntaxDiagnostics).getD [] }

/-- A document, in which at most `depth` arrays and objects are inside one another. -/
def ofTree (depth : Nat) : Tree → Except ReadError Document := schema.ofTree (decode depth) build

end Document

/-! ## Whole texts -/

/-- Reads a text that holds one value and nothing else. -/
def Json.readText {α : Type} (decode : Tree → Except ReadError α) (text : String) :
    Except ReadError α := do
  let (tree, rest) := Tree.ofText text
  let a ← decode tree
  if rest.isEmpty then pure a else throw (.fault .malformed)

def Document.parse (text : String) : Except ReadError Document :=
  Json.readText (Document.ofTree maxDepth) text

def Model.parse (text : String) : Except ReadError Model :=
  Json.readText (Model.ofTree maxDepth) text

def Attribute.parse (text : String) : Except ReadError Attribute :=
  Json.readText (Attribute.ofTree maxDepth) text

def Diagnostic.parse (text : String) : Except ReadError Diagnostic :=
  Json.readText Diagnostic.ofTree text

end ImageLint
