import ImageLint.Proofs.Document.RoundTrip
import ImageLint.Proofs.Report.Json
import ImageLint.Proofs.Report.Tally

/-!
# Nothing is lost in a JSON report

Reports are read back from the text that is rendered for them. The reader is put together like that
of documents: a schema for each record, and for each schema the two facts that every field is read
back from its member and that the record is built from its fields. The counts and the summary are
passed over, so the reader does not depend on how many findings there are.

* `Report.listOfText_renderJson`: the reports are read back.
* `Report.renderJson_lossless`: the shape of the text, what each entry holds, and that different
  lists of reports are rendered differently.
-/

namespace ImageLint

open Json
open Document (defaults)

/-- Passes over a value that is not wanted. -/
def Json.Tree.passOver (t : Tree) : Except ReadError Unit := t.skip.mapError .fault

theorem Json.recovers_passOver (encode : Unit → Json) :
    Recovers defaults encode fun w => (Tree.ofJson w).passOver := by
  intro _ w _
  simp only [Tree.passOver, Tree.skip_ofJson]
  rfl

namespace Location

/-- A location from a text that may still prove broken. -/
def ofTree : Tree → Except ReadError Location := schema.ofTree (fun _ => Tree.unsigned) build

theorem recovers_tree : Recovers defaults toJson fun w => ofTree (Tree.ofJson w) := by
  intro l w h
  refine Schema.ofTree_respelled wellNamed ?_ (fun p => build_of_fills (l := l)) h
  intro f w hw
  exact Recovers.treeUnsigned (l.field f) w hw

end Location

/-! ## Deployments of directories -/

namespace DirectoryDeployment

inductive Field where
  | targetPath
  | sourcePath
  | location
  | warning
  | suggestions
  deriving DecidableEq

def schema : Schema Field where
  name := "DirectoryDeployment"
  fields := [.targetPath, .sourcePath, .location, .warning, .suggestions]
  key
    | .targetPath => "target_path"
    | .sourcePath => "source_path"
    | .location => "location"
    | .warning => "warning"
    | .suggestions => "suggestions"

abbrev Value : Field → Type
  | .targetPath => String
  | .sourcePath => String
  | .location => Option Location
  | .warning => Diagnostic
  | .suggestions => Option (List String)

def decode : (f : Field) → Tree → Except ReadError (Value f)
  | .targetPath => Tree.text
  | .sourcePath => Tree.text
  | .location => Tree.optional Location.ofTree
  | .warning => Diagnostic.ofTree
  | .suggestions => Tree.optional (Tree.list Tree.text)

def build (p : Fields Value) : Except Field DirectoryDeployment := do
  let targetPath ← p.need .targetPath
  let sourcePath ← p.need .sourcePath
  let warning ← p.need .warning
  let suggestions ← p.need .suggestions
  pure { targetPath, sourcePath, location := (p .location).getD none, warning, suggestions }

/-- A deployment of a directory, as it stands in a JSON report. -/
def ofTree : Tree → Except ReadError DirectoryDeployment := schema.ofTree decode build

theorem wellNamed : schema.WellNamed := ⟨by decide, fun f => by cases f <;> rfl⟩

def field (d : DirectoryDeployment) : (f : Field) → Value f
  | .targetPath => d.targetPath
  | .sourcePath => d.sourcePath
  | .location => d.location
  | .warning => d.warning
  | .suggestions => d.suggestions

def fieldJson (d : DirectoryDeployment) : Field → Json
  | .targetPath => .string d.targetPath
  | .sourcePath => .string d.sourcePath
  | .location => Location.optionalJson d.location
  | .warning => d.warning.toJson
  | .suggestions => Json.option Json.strings d.suggestions

theorem build_of_fills {d : DirectoryDeployment} {p : Fields Value}
    (h : schema.Fills defaults d.field d.fieldJson p) : build p = .ok d := by
  have targetPath := h.need (f := .targetPath) nofun
  have sourcePath := h.need (f := .sourcePath) nofun
  have location := h.getD (f := .location) (d := none) Location.eq_none
  have warning := h.need (f := .warning) nofun
  have suggestions := h.need (f := .suggestions) nofun
  simp only [build, targetPath, sourcePath, location, warning, suggestions]
  rfl

theorem recovers : Recovers defaults toJson fun w => ofTree (Tree.ofJson w) := by
  intro d w h
  refine Schema.ofTree_respelled wellNamed ?_ (fun p => build_of_fills (d := d)) h
  have lines : Recovers defaults Json.strings fun w => Tree.list Tree.text (Tree.ofJson w) :=
    Recovers.treeText.treeList
  intro f w hw
  cases f with
  | targetPath => exact Recovers.treeText d.targetPath w hw
  | sourcePath => exact Recovers.treeText d.sourcePath w hw
  | location => exact Location.recovers_tree.treeOptional nofun d.location w hw
  | warning => exact Diagnostic.recovers d.warning w hw
  | suggestions => exact lines.treeOptional nofun d.suggestions w hw

end DirectoryDeployment

/-! ## Reports -/

namespace Report

inductive Field where
  | file
  | errors
  | warnings
  | diagnostics
  | directoryDeployments
  deriving DecidableEq

def schema : Schema Field where
  name := "Report"
  fields := [.file, .errors, .warnings, .diagnostics, .directoryDeployments]
  key
    | .file => "file"
    | .errors => "errors"
    | .warnings => "warnings"
    | .diagnostics => "diagnostics"
    | .directoryDeployments => "directory_deployments"

abbrev Value : Field → Type
  | .file => Option String
  | .errors => Unit
  | .warnings => Unit
  | .diagnostics => List Diagnostic
  | .directoryDeployments => List DirectoryDeployment

def decode : (f : Field) → Tree → Except ReadError (Value f)
  | .file => Tree.optional Tree.text
  | .errors => Tree.passOver
  | .warnings => Tree.passOver
  | .diagnostics => Tree.list Diagnostic.ofTree
  | .directoryDeployments => Tree.list DirectoryDeployment.ofTree

def build (p : Fields Value) : Except Field Report := do
  let diagnostics ← p.need .diagnostics
  let directoryDeployments ← p.need .directoryDeployments
  pure { file := (p .file).getD none, diagnostics, directoryDeployments }

/-- A report, as it stands in a JSON report. -/
def ofTree : Tree → Except ReadError Report := schema.ofTree decode build

theorem wellNamed : schema.WellNamed := ⟨by decide, fun f => by cases f <;> rfl⟩

def field (r : Report) : (f : Field) → Value f
  | .file => r.file
  | .errors => ()
  | .warnings => ()
  | .diagnostics => r.diagnostics
  | .directoryDeployments => r.directoryDeployments

def fieldJson (r : Report) : Field → Json
  | .file => Json.option .string r.file
  | .errors => .nat r.errorCount
  | .warnings => .nat r.warningCount
  | .diagnostics => r.diagnosticsJson
  | .directoryDeployments => r.directoriesJson

theorem build_of_fills {r : Report} {p : Fields Value}
    (h : schema.Fills defaults r.field r.fieldJson p) : build p = .ok r := by
  have file := h.getD (f := .file) (d := none) (eq_none_of_option nofun)
  have diagnostics := h.need (f := .diagnostics) nofun
  have directoryDeployments := h.need (f := .directoryDeployments) nofun
  simp only [build, file, diagnostics, directoryDeployments]
  rfl

theorem recovers : Recovers defaults toJson fun w => ofTree (Tree.ofJson w) := by
  intro r w h
  refine Schema.ofTree_respelled wellNamed ?_ (fun p => build_of_fills (r := r)) h
  intro f w hw
  cases f with
  | file => exact Recovers.treeText.treeOptional nofun r.file w hw
  | errors => exact recovers_passOver (fun _ => .nat r.errorCount) () w hw
  | warnings => exact recovers_passOver (fun _ => .nat r.warningCount) () w hw
  | diagnostics => exact Diagnostic.recovers.treeList r.diagnostics w hw
  | directoryDeployments =>
    exact DirectoryDeployment.recovers.treeList r.directoryDeployments w hw

/-! ## Lists of reports -/

inductive ListField where
  | files
  | summary
  deriving DecidableEq

def listSchema : Schema ListField where
  name := "Reports"
  fields := [.files, .summary]
  key
    | .files => "files"
    | .summary => "summary"

abbrev ListValue : ListField → Type
  | .files => List Report
  | .summary => Unit

def listDecode : (f : ListField) → Tree → Except ReadError (ListValue f)
  | .files => Tree.list ofTree
  | .summary => Tree.passOver

/-- The reports in the text of a JSON report. -/
def listOfText (text : String) : Except ReadError (List Report) :=
  Json.readText (listSchema.ofTree listDecode fun p => p.need .files) text

theorem listWellNamed : listSchema.WellNamed := ⟨by decide, fun f => by cases f <;> rfl⟩

def listField (rs : List Report) : (f : ListField) → ListValue f
  | .files => rs
  | .summary => ()

def listFieldJson (rs : List Report) : ListField → Json
  | .files => .array (rs.map toJson)
  | .summary => (totals rs).toJson

/-- The reports are read back from the text that is rendered for them. -/
theorem listOfText_renderJson (rs : List Report) : listOfText (renderJson rs) = .ok rs := by
  have decoded : ∀ f w, Respelled defaults (listFieldJson rs f) w →
      listDecode f (Tree.ofJson w) = .ok (listField rs f) := by
    intro f w hw
    cases f with
    | files => exact recovers.treeList rs w hw
    | summary => exact recovers_passOver (fun _ => (totals rs).toJson) () w hw
  have built : ∀ p : Fields ListValue,
      listSchema.Fills defaults (listField rs) (listFieldJson rs) p → p.need .files = .ok rs :=
    fun p fills => fills.need (f := .files) nofun
  exact readText_of_tokens (tokens_renderJson rs)
    (Schema.ofTree_respelled listWellNamed decoded built (Respelled.refl (listJson rs)))

/-- What a report leaves in its entry: each finding and each deployment of a directory has an item
of its own, in order, from which it is read back, and the report is read back from the whole. -/
structure Entry (r : Report) (entry : Json) : Prop where
  file : entry.get? "file" = some (Json.option .string r.file)
  diagnostics : ∃ items, entry.get? "diagnostics" = some (.array items) ∧
    List.Forall₂ (fun d v => Diagnostic.ofTree (Tree.ofJson v) = .ok d) r.diagnostics items
  directoryDeployments : ∃ items, entry.get? "directory_deployments" = some (.array items) ∧
    List.Forall₂ (fun d v => DirectoryDeployment.ofTree (Tree.ofJson v) = .ok d)
      r.directoryDeployments items
  whole : ofTree (Tree.ofJson entry) = .ok r

/-- Items that are written one by one are read back one by one. -/
theorem forall₂_of_recovers {α : Type} {encode : α → Json} {decode : Tree → Except ReadError α}
    (h : Recovers defaults encode fun w => decode (Tree.ofJson w)) (as : List α) :
    List.Forall₂ (fun a v => decode (Tree.ofJson v) = .ok a) as (as.map encode) := by
  rw [List.forall₂_map_right_iff, List.forall₂_same]
  intro a _
  exact h a (encode a) (Respelled.refl _)

theorem entry_toJson (r : Report) : Entry r r.toJson where
  file := rfl
  diagnostics := ⟨_, rfl, forall₂_of_recovers Diagnostic.recovers r.diagnostics⟩
  directoryDeployments :=
    ⟨_, rfl, forall₂_of_recovers DirectoryDeployment.recovers r.directoryDeployments⟩
  whole := recovers r r.toJson (Respelled.refl _)

/-- **Nothing is lost in a JSON report.** Its text holds one object and nothing else, with an entry
for each report in order. As long as the counts fit 64 bits it is read as this object. The reports
are read back from the entries and from the text, so different reports are rendered differently. -/
theorem renderJson_lossless (rs : List Report) :
    ∃ entries summary, List.Forall₂ Entry rs entries ∧
      Tree.ofText (renderJson rs) =
        (Tree.ofJson (.object [("files", .array entries), ("summary", summary)]), []) ∧
      ((tally rs).errors < UInt64.size → (tally rs).warnings < UInt64.size →
        Json.parse (renderJson rs) =
          .ok (.object [("files", .array entries), ("summary", summary)])) ∧
      listOfText (renderJson rs) = .ok rs ∧
      ∀ rs', renderJson rs' = renderJson rs → rs' = rs := by
  have hentries : List.Forall₂ Entry rs (rs.map toJson) := by
    rw [List.forall₂_map_right_iff, List.forall₂_same]
    exact fun r _ => entry_toJson r
  refine ⟨rs.map toJson, (totals rs).toJson, hentries,
    Tree.ofText_of_tokens (tokens_renderJson rs), ?_, listOfText_renderJson rs, ?_⟩
  · intro herrors hwarnings
    have heach : ∀ r ∈ rs, r.errorCount < UInt64.size ∧ r.warningCount < UInt64.size := by
      intro r hr
      have hle := counts_le_tally hr
      omega
    rw [← totals_eq_tally] at herrors hwarnings
    exact parse_renderJson heach herrors hwarnings
  · intro rs' h
    have hread := listOfText_renderJson rs'
    rw [h, listOfText_renderJson rs] at hread
    exact (Except.ok.inj hread).symm

/-- A report without a file. Its finding holds a quote, a backslash, the end of a line, an escape
character and a letter beyond ASCII; the last column there is, but no line; an empty code. -/
def awkwardReport (suggestions : Option (List String)) : Report where
  file := none
  diagnostics := [{
    level := .error
    message := "\"\\\n\x1b\u00e9"
    code := some ""
    column := some 18446744073709551615 }]
  directoryDeployments := [{
    targetPath := "/opt/app"
    sourcePath := ""
    location := some { line := 4, column := 1 }
    warning := Diagnostic.warning "Directory deployment"
    suggestions }]

/-- No list of suggestions is told from an empty one. -/
theorem renderJson_lossless_awkward :
    (tally [awkwardReport none]).errors < UInt64.size ∧
      (tally [awkwardReport none]).warnings < UInt64.size ∧
      (∃ entries summary, List.Forall₂ Entry [awkwardReport none] entries ∧
        Json.parse (renderJson [awkwardReport none]) =
          .ok (.object [("files", .array entries), ("summary", summary)])) ∧
      renderJson [awkwardReport (some [])] ≠ renderJson [awkwardReport none] := by
  have herrors : (tally [awkwardReport none]).errors < UInt64.size := by decide
  have hwarnings : (tally [awkwardReport none]).warnings < UInt64.size := by decide
  obtain ⟨entries, summary, hentries, -, hparse, -, hinjective⟩ :=
    renderJson_lossless [awkwardReport none]
  refine ⟨herrors, hwarnings, ⟨entries, summary, hentries, hparse herrors hwarnings⟩, ?_⟩
  intro h
  exact absurd (hinjective _ h) (by decide)

end Report

end ImageLint
