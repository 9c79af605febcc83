import ImageLint.Document.Decoder
import ImageLint.Document.Encoder
import ImageLint.Proofs.Document.Legible
import ImageLint.Proofs.Json.Record

/-!
# Documents survive being written and read

Each part of a document is written with all its fields, and read back from every value that says
the same as the written one. For a record this takes two facts: every field is read back from its
member, and the record is built from the fields that are there, since a field that is missing is
read as what its absence stands for (`build_of_fills`). A tagged value is split first.

Documents, models and diagnostics are read from the text as it comes, statements only after they
have been read whole. That is why a statement must be legible at its place, eight levels at most
from the outside.
-/

namespace ImageLint

open Json

namespace Document

/-- What the absence of a member stands for, by its name. -/
def defaults : String → Option Json
  | "file" | "code" | "line" | "column" | "context" | "suggestion" => some .null
  | "location" | "attribute_section" | "content" => some .null
  | "attributes" | "statements" | "syntax_diagnostics" => some (.array [])
  | "is_assignment" => some (.bool false)
  | "enabled" => some (.bool true)
  | "text" => some (.string "")
  | "model" => some (.object [("statements", .array [])])
  | _ => none

end Document

open Document (defaults)

/-- A value that is written as `null` is missing. -/
theorem Json.eq_none_of_option {α : Type} {encode : α → Json} (present : ∀ a, encode a ≠ .null)
    {o : Option α} (h : some Json.null = some (Json.option encode o)) : o = none := by
  cases o with
  | none => rfl
  | some a => exact absurd (Option.some.inj h).symm (present a)

/-- A list that is written as an empty array is empty. -/
theorem Json.eq_nil_of_array {α : Type} {encode : α → Json} {as : List α}
    (h : some (Json.array []) = some (Json.array (as.map encode))) : as = [] :=
  List.map_eq_nil_iff.mp (Json.array.inj (Option.some.inj h)).symm

/-- A text that is made of the tokens of a value, and of nothing else, is read like the value. -/
theorem Json.readText_of_tokens {α : Type} {decode : Tree → Except ReadError α} {text : String}
    {v : Json} {a : α} (h : tokens text.toList = spell v)
    (read : decode (Tree.ofJson v) = .ok a) : Json.readText decode text = .ok a := by
  unfold Json.readText
  rw [Tree.ofText_of_tokens h]
  simp only [read]
  rfl

/-! ## Locations -/

namespace Location

theorem wellNamed : schema.WellNamed := ⟨by decide, fun f => by cases f <;> rfl⟩

def field (l : Location) : (f : Field) → Value f
  | .line => l.line
  | .column => l.column

theorem build_of_fills {l : Location} {p : Fields Value}
    (h : schema.Fills defaults l.field (fun f => .nat (l.field f).toNat) p) : build p = .ok l := by
  have line := h.need (f := .line) nofun
  have column := h.need (f := .column) nofun
  simp only [build, line, column]
  rfl

theorem recovers : Recovers defaults toJson ofJson := by
  intro l w h
  refine Schema.ofJson_respelled wellNamed ?_ (fun p => build_of_fills (l := l)) h
  intro f w hw
  exact Recovers.unsigned (l.field f) w hw

theorem recovers_optional : Recovers defaults optionalJson (Json.optional ofJson) :=
  recovers.optional nofun

theorem eq_none {l : Option Location} (h : some Json.null = some (optionalJson l)) : l = none :=
  eq_none_of_option nofun h

end Location

/-! ## Attributes -/

namespace BooleanAttribute

theorem wellNamed : schema.WellNamed := ⟨by decide, fun f => by cases f <;> rfl⟩

def field (a : BooleanAttribute) : (f : Field) → Value f
  | .name => a.name
  | .enabled => a.enabled
  | .location => a.location

def fieldJson (a : BooleanAttribute) : Field → Json
  | .name => .string a.name
  | .enabled => .bool a.enabled
  | .location => Location.optionalJson a.location

theorem build_of_fills {a : BooleanAttribute} {p : Fields Value}
    (h : schema.Fills defaults a.field a.fieldJson p) : build p = .ok a := by
  have name := h.need (f := .name) nofun
  have enabled := h.getD (f := .enabled) (d := true) fun stands =>
    (Json.bool.inj (Option.some.inj stands)).symm
  have location := h.getD (f := .location) (d := none) Location.eq_none
  simp only [build, name, enabled, location]
  rfl

theorem recovers : Recovers defaults (fun a => schema.written a.fieldJson) ofJson := by
  intro a w h
  refine Schema.ofJson_respelled wellNamed ?_ (fun p => build_of_fills (a := a)) h
  intro f w hw
  cases f with
  | name => exact Recovers.text a.name w hw
  | enabled => exact Recovers.truth a.enabled w hw
  | location => exact Location.recovers_optional a.location w hw

end BooleanAttribute

namespace ValuedAttribute

theorem wellNamed : schema.WellNamed := ⟨by decide, fun f => by cases f <;> rfl⟩

def field (a : ValuedAttribute) : (f : Field) → Value f
  | .name => a.name
  | .value => a.value
  | .location => a.location

def fieldJson (a : ValuedAttribute) : Field → Json
  | .name => .string a.name
  | .value => .string a.value
  | .location => Location.optionalJson a.location

theorem build_of_fills {a : ValuedAttribute} {p : Fields Value}
    (h : schema.Fills defaults a.field a.fieldJson p) : build p = .ok a := by
  have name := h.need (f := .name) nofun
  have value := h.need (f := .value) nofun
  have location := h.getD (f := .location) (d := none) Location.eq_none
  simp only [build, name, value, location]
  rfl

theorem recovers : Recovers defaults (fun a => schema.written a.fieldJson) ofJson := by
  intro a w h
  refine Schema.ofJson_respelled wellNamed ?_ (fun p => build_of_fills (a := a)) h
  intro f w hw
  cases f with
  | name => exact Recovers.text a.name w hw
  | value => exact Recovers.text a.value w hw
  | location => exact Location.recovers_optional a.location w hw

end ValuedAttribute

namespace Attribute

theorem recovers : Recovers defaults toJson ofJson := by
  intro a w h
  cases a with
  | boolean a =>
    obtain ⟨body, split, rest⟩ :=
      Variants.splitJson_respelled kinds "Attribute" (t := .boolean) rfl rfl (by simp [tagName]) h
    have read : BooleanAttribute.ofJson body = .ok a := BooleanAttribute.recovers a body rest
    simp only [ofJson, split]
    simp only [bind, Except.bind, ofBody, read]
    rfl
  | valued a =>
    obtain ⟨body, split, rest⟩ :=
      Variants.splitJson_respelled kinds "Attribute" (t := .valued) rfl rfl (by simp [tagName]) h
    have read : ValuedAttribute.ofJson body = .ok a := ValuedAttribute.recovers a body rest
    simp only [ofJson, split]
    simp only [bind, Except.bind, ofBody, read]
    rfl

end Attribute

namespace AttributeSection

theorem wellNamed : schema.WellNamed := ⟨by decide, fun f => by cases f <;> rfl⟩

def field (s : AttributeSection) : (f : Field) → Value f
  | .attributes => s.attributes
  | .location => s.location

def fieldJson (s : AttributeSection) : Field → Json
  | .attributes => .array (s.attributes.map Attribute.toJson)
  | .location => Location.optionalJson s.location

theorem build_of_fills {s : AttributeSection} {p : Fields Value}
    (h : schema.Fills defaults s.field s.fieldJson p) : build p = .ok s := by
  have attributes := h.getD (f := .attributes) (d := []) eq_nil_of_array
  have location := h.getD (f := .location) (d := none) Location.eq_none
  simp only [build, attributes, location]
  rfl

theorem recovers : Recovers defaults toJson ofJson := by
  intro s w h
  refine Schema.ofJson_respelled wellNamed ?_ (fun p => build_of_fills (s := s)) h
  intro f w hw
  cases f with
  | attributes => exact Attribute.recovers.list s.attributes w hw
  | location => exact Location.recovers_optional s.location w hw

end AttributeSection

/-! ## Contents -/

namespace PathContent

theorem wellNamed : schema.WellNamed := ⟨by decide, fun f => by cases f <;> rfl⟩

def field (c : PathContent) : (f : Field) → Value f
  | .value => c.value
  | .location => c.location

def fieldJson (c : PathContent) : Field → Json
  | .value => .string c.value
  | .location => Location.optionalJson c.location

theorem build_of_fills {c : PathContent} {p : Fields Value}
    (h : schema.Fills defaults c.field c.fieldJson p) : build p = .ok c := by
  have value := h.need (f := .value) nofun
  have location := h.getD (f := .location) (d := none) Location.eq_none
  simp only [build, value, location]
  rfl

theorem recovers : Recovers defaults (fun c => schema.written c.fieldJson) ofJson := by
  intro c w h
  refine Schema.ofJson_respelled wellNamed ?_ (fun p => build_of_fills (c := c)) h
  intro f w hw
  cases f with
  | value => exact Recovers.text c.value w hw
  | location => exact Location.recovers_optional c.location w hw

end PathContent

namespace ContentBlock

theorem wellNamed : schema.WellNamed := ⟨by decide, fun f => by cases f <;> rfl⟩

def field (c : ContentBlock) : (f : Field) → Value f
  | .text => c.text
  | .location => c.location

def fieldJson (c : ContentBlock) : Field → Json
  | .text => .string c.text
  | .location => Location.optionalJson c.location

theorem build_of_fills {c : ContentBlock} {p : Fields Value}
    (h : schema.Fills defaults c.field c.fieldJson p) : build p = .ok c := by
  have text := h.getD (f := .text) (d := "") fun stands =>
    (Json.string.inj (Option.some.inj stands)).symm
  have location := h.getD (f := .location) (d := none) Location.eq_none
  simp only [build, text, location]
  rfl

theorem recovers : Recovers defaults (fun c => schema.written c.fieldJson) ofJson := by
  intro c w h
  refine Schema.ofJson_respelled wellNamed ?_ (fun p => build_of_fills (c := c)) h
  intro f w hw
  cases f with
  | text => exact Recovers.text c.text w hw
  | location => exact Location.recovers_optional c.location w hw

end ContentBlock

namespace Content

theorem toJson_ne_null (c : Content) : c.toJson ≠ .null := by
  cases c <;> nofun

theorem recovers : Recovers defaults toJson ofJson := by
  intro c w h
  cases c with
  | path c =>
    obtain ⟨body, split, rest⟩ :=
      Variants.splitJson_respelled kinds "Content" (t := .path) rfl rfl (by simp [tagName]) h
    have read : PathContent.ofJson body = .ok c := PathContent.recovers c body rest
    simp only [ofJson, split]
    simp only [bind, Except.bind, read]
    rfl
  | block c =>
    obtain ⟨body, split, rest⟩ :=
      Variants.splitJson_respelled kinds "Content" (t := .block) rfl rfl (by simp [tagName]) h
    have read : ContentBlock.ofJson body = .ok c := ContentBlock.recovers c body rest
    simp only [ofJson, split]
    simp only [bind, Except.bind, read]
    rfl

end Content

/-! ## Statements -/

namespace AttributeStatement

theorem wellNamed : schema.WellNamed := ⟨by decide, fun f => by cases f <;> rfl⟩

def field (s : AttributeStatement) : (f : Field) → Value f
  | .attributeSection => s.attributeSection
  | .location => s.location

def fieldJson (s : AttributeStatement) : Field → Json
  | .attributeSection => Json.option AttributeSection.toJson s.attributeSection
  | .location => Location.optionalJson s.location

theorem build_of_fills {s : AttributeStatement} {p : Fields Value}
    (h : schema.Fills defaults s.field s.fieldJson p) : build p = .ok s := by
  have attributeSection := h.getD (f := .attributeSection) (d := none) (eq_none_of_option nofun)
  have location := h.getD (f := .location) (d := none) Location.eq_none
  simp only [build, attributeSection, location]
  rfl

theorem recovers : Recovers defaults (fun s => schema.written s.fieldJson) ofJson := by
  intro s w h
  refine Schema.ofJson_respelled wellNamed ?_ (fun p => build_of_fills (s := s)) h
  intro f w hw
  cases f with
  | attributeSection =>
    exact AttributeSection.recovers.optional nofun s.attributeSection w hw
  | location => exact Location.recovers_optional s.location w hw

end AttributeStatement

namespace DeploymentStatement

theorem wellNamed : schema.WellNamed := ⟨by decide, fun f => by cases f <;> rfl⟩

def field (s : DeploymentStatement) : (f : Field) → Value f
  | .path => s.path
  | .isAssignment => s.isAssignment
  | .attributeSection => s.attributeSection
  | .content => s.content
  | .location => s.location

def fieldJson (s : DeploymentStatement) : Field → Json
  | .path => .string s.path
  | .isAssignment => .bool s.isAssignment
  | .attributeSection => Json.option AttributeSection.toJson s.attributeSection
  | .content => Json.option Content.toJson s.content
  | .location => Location.optionalJson s.location

theorem build_of_fills {s : DeploymentStatement} {p : Fields Value}
    (h : schema.Fills defaults s.field s.fieldJson p) : build p = .ok s := by
  have path := h.need (f := .path) nofun
  have isAssignment := h.getD (f := .isAssignment) (d := false) fun stands =>
    (Json.bool.inj (Option.some.inj stands)).symm
  have attributeSection := h.getD (f := .attributeSection) (d := none) (eq_none_of_option nofun)
  have content := h.getD (f := .content) (d := none) (eq_none_of_option Content.toJson_ne_null)
  have location := h.getD (f := .location) (d := none) Location.eq_none
  simp only [build, path, isAssignment, attributeSection, content, location]
  rfl

theorem recovers : Recovers defaults (fun s => schema.written s.fieldJson) ofJson := by
  intro s w h
  refine Schema.ofJson_respelled wellNamed ?_ (fun p => build_of_fills (s := s)) h
  intro f w hw
  cases f with
  | path => exact Recovers.text s.path w hw
  | isAssignment => exact Recovers.truth s.isAssignment w hw
  | attributeSection =>
    exact AttributeSection.recovers.optional nofun s.attributeSection w hw
  | content => exact Content.recovers.optional Content.toJson_ne_null s.content w hw
  | location => exact Location.recovers_optional s.location w hw

end DeploymentStatement

namespace Statement

theorem recovers (depth : Nat) :
    Recovers defaults toJson fun w => ofTree (depth + 5) (Tree.ofJson w) := by
  intro s w h
  have legible : Legible (depth + 5) w := h.legible (Statement.legible depth s)
  match s, h with
  | .attribute s, h =>
    obtain ⟨body, split, rest⟩ := Variants.splitTree_respelled kinds "Statement"
      (t := .attribute) rfl rfl (by simp [tagName]) h legible
    have read : AttributeStatement.ofJson body = .ok s := AttributeStatement.recovers s body rest
    simp only [ofTree, split]
    simp only [bind, Except.bind, read]
    rfl
  | .deployment s, h =>
    obtain ⟨body, split, rest⟩ := Variants.splitTree_respelled kinds "Statement"
      (t := .deployment) rfl rfl (by simp [tagName]) h legible
    have read : DeploymentStatement.ofJson body = .ok s :=
      DeploymentStatement.recovers s body rest
    simp only [ofTree, split]
    simp only [bind, Except.bind, read]
    rfl

end Statement

/-! ## Models, diagnostics and documents -/

namespace Model

theorem wellNamed : schema.WellNamed := ⟨by decide, fun f => by cases f; rfl⟩

def field (m : Model) : (f : Field) → Value f
  | .statements => m.statements

def fieldJson (m : Model) : Field → Json
  | .statements => .array (m.statements.map Statement.toJson)

theorem build_of_fills {m : Model} {p : Fields Value}
    (h : schema.Fills defaults m.field m.fieldJson p) : build p = .ok m := by
  have statements := h.getD (f := .statements) (d := []) eq_nil_of_array
  simp only [build, statements]
  rfl

theorem recovers (depth : Nat) :
    Recovers defaults toJson fun w => ofTree (depth + 7) (Tree.ofJson w) := by
  intro m w h
  refine Schema.ofTree_respelled wellNamed ?_ (fun p => build_of_fills (m := m)) h
  intro f w hw
  cases f with
  | statements => exact (Statement.recovers depth).treeList m.statements w hw

theorem eq_nil {m : Model} (h : some (Json.object [("statements", .array [])]) = some m.toJson) :
    m = ⟨[]⟩ := by
  have members := Json.object.inj (Option.some.inj h)
  have statements : m.statements = [] := by simpa using members
  exact congrArg Model.mk statements

end Model

namespace Severity

theorem recovers :
    Recovers defaults (fun l => .string (name l)) fun w => ofTree (Tree.ofJson w) := by
  intro l w h
  rw [h.eq_string]
  cases l <;> rfl

end Severity

namespace Diagnostic

theorem wellNamed : schema.WellNamed := ⟨by decide, fun f => by cases f <;> rfl⟩

def field (d : Diagnostic) : (f : Field) → Value f
  | .level => d.level
  | .message => d.message
  | .code => d.code
  | .file => d.file
  | .line => d.line
  | .column => d.column
  | .context => d.context
  | .suggestion => d.suggestion

def fieldJson (d : Diagnostic) : Field → Json
  | .level => .string d.level.name
  | .message => .string d.message
  | .code => Json.option .string d.code
  | .file => Json.option .string d.file
  | .line => Json.option (fun n => .nat n.toNat) d.line
  | .column => Json.option (fun n => .nat n.toNat) d.column
  | .context => Json.option .string d.context
  | .suggestion => Json.option .string d.suggestion

theorem build_of_fills {d : Diagnostic} {p : Fields Value}
    (h : schema.Fills defaults d.field d.fieldJson p) : build p = .ok d := by
  have level := h.need (f := .level) nofun
  have message := h.need (f := .message) nofun
  have code := h.getD (f := .code) (d := none) (eq_none_of_option nofun)
  have file := h.getD (f := .file) (d := none) (eq_none_of_option nofun)
  have line := h.getD (f := .line) (d := none) (eq_none_of_option nofun)
  have column := h.getD (f := .column) (d := none) (eq_none_of_option nofun)
  have context := h.getD (f := .context) (d := none) (eq_none_of_option nofun)
  have suggestion := h.getD (f := .suggestion) (d := none) (eq_none_of_option nofun)
  simp only [build, level, message, code, file, line, column, context, suggestion]
  rfl

theorem recovers : Recovers defaults toJson fun w => ofTree (Tree.ofJson w) := by
  intro d w h
  refine Schema.ofTree_respelled wellNamed ?_ (fun p => build_of_fills (d := d)) h
  have text : Recovers defaults (Json.option .string)
      fun w => Tree.optional Tree.text (Tree.ofJson w) := Recovers.treeText.treeOptional nofun
  have unsigned : Recovers defaults (Json.option fun n => .nat n.toNat)
      fun w => Tree.optional Tree.unsigned (Tree.ofJson w) :=
    Recovers.treeUnsigned.treeOptional nofun
  intro f w hw
  cases f with
  | level => exact Severity.recovers d.level w hw
  | message => exact Recovers.treeText d.message w hw
  | code => exact text d.code w hw
  | file => exact text d.file w hw
  | line => exact unsigned d.line w hw
  | column => exact unsigned d.column w hw
  | context => exact text d.context w hw
  | suggestion => exact text d.suggestion w hw

end Diagnostic

namespace Document

theorem wellNamed : schema.WellNamed := ⟨by decide, fun f => by cases f <;> rfl⟩

def field (d : Document) : (f : Field) → Value f
  | .file => d.file
  | .model => d.model
  | .syntaxDiagnostics => d.syntaxDiagnostics

def fieldJson (d : Document) : Field → Json
  | .file => Json.option .string d.file
  | .model => d.model.toJson
  | .syntaxDiagnostics => .array (d.syntaxDiagnostics.map Diagnostic.toJson)

theorem build_of_fills {d : Document} {p : Fields Value}
    (h : schema.Fills defaults d.field d.fieldJson p) : build p = .ok d := by
  have file := h.getD (f := .file) (d := none) (eq_none_of_option nofun)
  have model := h.getD (f := .model) (d := ⟨[]⟩) Model.eq_nil
  have syntaxDiagnostics := h.getD (f := .syntaxDiagnostics) (d := []) eq_nil_of_array
  simp only [build, file, model, syntaxDiagnostics]
  rfl

theorem recovers (depth : Nat) :
    Recovers defaults toJson fun w => ofTree (depth + 8) (Tree.ofJson w) := by
  intro d w h
  refine Schema.ofTree_respelled wellNamed ?_ (fun p => build_of_fills (d := d)) h
  intro f w hw
  cases f with
  | file => exact Recovers.treeText.treeOptional nofun d.file w hw
  | model => exact Model.recovers depth d.model w hw
  | syntaxDiagnostics => exact Diagnostic.recovers.treeList d.syntaxDiagnostics w hw

/-- **A document survives being written and read.** It is read back from the text of every value that
says the same as the one that is written for it: with its members in any order, without members that
hold what their absence stands for, and with further members. -/
theorem parse_respelled (d : Document) {w : Json} (h : Respelled defaults d.toJson w) :
    parse w.compactText = .ok d ∧ parse w.indentedText = .ok d := by
  -- a document takes up eight of the levels that a text may have, and 119 are left
  have legible : Legible maxDepth w := h.legible (Document.legible 119 d)
  have read : ofTree maxDepth (Tree.ofJson w) = .ok d := recovers 119 d w h
  exact ⟨readText_of_tokens (tokens_compactText legible) read,
    readText_of_tokens (tokens_indentedText legible) read⟩

/-- A document with one deployment, `/bin/tool [+dir]`. -/
def toolDocument : Document where
  file := none
  model := ⟨[.deployment {
    path := "/bin/tool"
    isAssignment := false
    attributeSection := some {
      attributes := [.boolean { name := "dir", enabled := true, location := none }]
      location := none }
    content := none
    location := some { line := 1, column := 2 } }]⟩
  syntaxDiagnostics := []

/-- The kind at the end, a note, and neither the flag nor the place. -/
def noted : Json :=
  .object [("name", .string "dir"), ("note", .number (.ofInt (-1))), ("kind", .string "boolean")]

/-- The kind at the end, the column in front of the line, and no members that are `null`. -/
def turned : Json :=
  .object [("path", .string "/bin/tool"),
    ("attribute_section", .object [("attributes", .array [noted])]),
    ("location", .object [("column", .nat 2), ("line", .nat 1)]), ("kind", .string "deployment")]

/-- The same document in other words. -/
def turnedDocument : Json :=
  .object [("model", .object [("statements", .array [turned])]), ("tool", .bool true)]

theorem respelled_turnedDocument : Respelled defaults toolDocument.toJson turnedDocument := by
  have note : Plain (.number (.ofInt (-1))) :=
    legible_number.mpr ⟨-1, by decide, by decide, rfl⟩
  have flag : Respelled defaults (Attribute.toJson (.boolean ⟨"dir", true, none⟩)) noted :=
    .object (.keep (.string _) (.keep (.string _) (.drop rfl (.drop rfl .nil))))
      (List.forall_mem_singleton.mpr ⟨by decide, note⟩)
      (@List.perm_append_comm _ [_, _] [_])
  have attributes : Respelled defaults
      (AttributeSection.toJson ⟨[.boolean ⟨"dir", true, none⟩], none⟩)
      (.object [("attributes", .array [noted])]) :=
    .object (.keep (.array (.cons flag .nil)) (.drop rfl .nil)) (List.forall_mem_nil _) (.refl _)
  have location : Respelled defaults (Location.toJson ⟨1, 2⟩)
      (.object [("column", .nat 2), ("line", .nat 1)]) :=
    .object (.keep (.number _) (.keep (.number _) .nil)) (List.forall_mem_nil _) (.swap _ _ _)
  have statement : Respelled defaults (Statement.toJson (.deployment
      ⟨"/bin/tool", false, some ⟨[.boolean ⟨"dir", true, none⟩], none⟩, none, some ⟨1, 2⟩⟩))
      turned :=
    .object (.keep (.string _) (.keep (.string _) (.drop rfl (.keep attributes (.drop rfl
      (.keep location .nil)))))) (List.forall_mem_nil _) (@List.perm_append_comm _ [_, _, _] [_])
  have model : Respelled defaults toolDocument.model.toJson
      (.object [("statements", .array [turned])]) :=
    .object (.keep (.array (.cons statement .nil)) .nil) (List.forall_mem_nil _) (.refl _)
  exact .object (.drop rfl (.keep model (.drop rfl .nil)))
    (List.forall_mem_singleton.mpr ⟨by decide, by simp [Plain]⟩) (.refl _)

/-- The document is read back from the other words. -/
theorem parse_turnedDocument : Respelled defaults toolDocument.toJson turnedDocument ∧
    parse turnedDocument.compactText = .ok toolDocument :=
  ⟨respelled_turnedDocument, (parse_respelled toolDocument respelled_turnedDocument).1⟩

end Document

end ImageLint
