import ImageLint.Json.Printer
import ImageLint.Model.Basic

/-!
# Writing documents

The JSON values of documents and their parts. Every field is written, a missing one as `null`, in
the order of its declaration; the kind of a tagged value comes first.
-/

namespace ImageLint

def Location.toJson (l : Location) : Json :=
  .object [("line", .nat l.line.toNat), ("column", .nat l.column.toNat)]

/-- A location that may be missing. -/
def Location.optionalJson (l : Option Location) : Json := Json.option Location.toJson l

def Attribute.toJson : Attribute → Json
  | .boolean a => .object [("kind", .string "boolean"), ("name", .string a.name),
      ("enabled", .bool a.enabled), ("location", Location.optionalJson a.location)]
  | .valued a => .object [("kind", .string "valued"), ("name", .string a.name),
      ("value", .string a.value), ("location", Location.optionalJson a.location)]

def AttributeSection.toJson (s : AttributeSection) : Json :=
  .object [("attributes", .array (s.attributes.map Attribute.toJson)),
    ("location", Location.optionalJson s.location)]

def Content.toJson : Content → Json
  | .path p => .object [("kind", .string "path"), ("value", .string p.value),
      ("location", Location.optionalJson p.location)]
  | .block b => .object [("kind", .string "block"), ("text", .string b.text),
      ("location", Location.optionalJson b.location)]

def Statement.toJson : Statement → Json
  | .attribute s => .object [("kind", .string "attribute"),
      ("attribute_section", Json.option AttributeSection.toJson s.attributeSection),
      ("location", Location.optionalJson s.location)]
  | .deployment s => .object [("kind", .string "deployment"), ("path", .string s.path),
      ("is_assignment", .bool s.isAssignment),
      ("attribute_section", Json.option AttributeSection.toJson s.attributeSection),
      ("content", Json.option Content.toJson s.content),
      ("location", Location.optionalJson s.location)]

def Model.toJson (m : Model) : Json :=
  .object [("statements", .array (m.statements.map Statement.toJson))]

def Diagnostic.toJson (d : Diagnostic) : Json :=
  .object [("level", .string d.level.name), ("message", .string d.message),
    ("code", Json.option .string d.code), ("file", Json.option .string d.file),
    ("line", Json.option (fun n => .nat n.toNat) d.line),
    ("column", Json.option (fun n => .nat n.toNat) d.column),
    ("context", Json.option .string d.context), ("suggestion", Json.option .string d.suggestion)]

def Document.toJson (d : Document) : Json :=
  .object [("file", Json.option .string d.file), ("model", d.model.toJson),
    ("syntax_diagnostics", .array (d.syntaxDiagnostics.map Diagnostic.toJson))]

end ImageLint
