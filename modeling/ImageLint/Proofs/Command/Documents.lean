import ImageLint.Command.Lint
import ImageLint.Proofs.Document.Legible
import ImageLint.Proofs.Document.RoundTrip
import ImageLint.Proofs.Host.Resolution

/-!
# Documents on the host

A document on the host is loaded, or it has a fault: its file cannot be read, or what stands in the
file is no document. Nothing else can go wrong with it.
-/

namespace ImageLint

open Host

theorem Document.parse_compactText (d : Document) : parse d.toJson.compactText = .ok d :=
  Json.readText_of_tokens (Json.tokens_compactText (Document.legible 119 d))
    (recovers 119 d d.toJson (Json.Respelled.refl _))

namespace Command

/-- What is wrong with the document at a path. -/
inductive DocumentFault (fs : FileSystem) (path : String) : DocumentError → Prop where
  | unreadable {e : PathError} : fs.readText path = .error e → DocumentFault fs path (.unreadable e)
  | malformed {text : String} {e : Json.ReadError} :
      fs.readText path = .ok text → Document.parse text = .error e →
      DocumentFault fs path (.malformed e)

variable {fs : FileSystem} {path : String}

theorem loadDocument_eq_error_iff {e : LintError} : loadDocument fs path = .error e ↔
    ∃ fault, DocumentFault fs path fault ∧ e = .document path fault := by
  unfold loadDocument
  constructor
  · intro h
    split at h
    · rename_i pe hread
      cases h
      exact ⟨.unreadable pe, .unreadable hread, rfl⟩
    · rename_i text hread
      split at h
      · rename_i re hparse
        cases h
        exact ⟨.malformed re, .malformed hread hparse, rfl⟩
      · cases h
  · rintro ⟨fault, hfault, rfl⟩
    cases hfault with
    | unreadable hread => rw [hread]
    | malformed hread hparse => simp only [hread, hparse]

theorem isOk_loadDocument_iff :
    (loadDocument fs path).isOk = true ↔ ∀ fault, ¬ DocumentFault fs path fault := by
  constructor
  · intro h fault hfault
    have herror := loadDocument_eq_error_iff.mpr ⟨fault, hfault, rfl⟩
    rw [herror] at h
    cases h
  · intro h
    cases hload : loadDocument fs path with
    | ok d => rfl
    | error e =>
      obtain ⟨fault, hfault, -⟩ := loadDocument_eq_error_iff.mp hload
      exact absurd hfault (h fault)

/-- A document that was written to the host is loaded, under its own name or else its path. -/
theorem loadDocument_written {d : Document} (h : fs.readText path = .ok d.toJson.compactText) :
    loadDocument fs path = .ok { d with file := some (d.file.getD path) } := by
  unfold loadDocument
  simp only [h, Document.parse_compactText]

/-! ## A host with two documents -/

/-- A host with two files. -/
def twoFiles (a b : String) : FileSystem where
  root := .directory [("a", .file (.text a) 0), ("b", .file (.text b) 0)] 0
  workingDirectory := ⟨[]⟩
  clock := 0

theorem find_twoFiles (a b : String) : (twoFiles a b).find "c" = .error .notFound :=
  FileSystem.find_of_absent (FileSystem.resolve_of_isName (by decide) rfl)

theorem readText_twoFiles (a b : String) :
    (twoFiles a b).readText "a" = .ok a ∧ (twoFiles a b).readText "b" = .ok b ∧
      (twoFiles a b).readText "c" = .error .notFound := by
  have hfile {path s : String} (h : (twoFiles a b).find path = .ok (.file (.text s) 0)) :
      (twoFiles a b).readText path = .ok s := by
    unfold FileSystem.readText FileSystem.contentOf
    rw [h]
  refine ⟨hfile ?_, hfile ?_, ?_⟩
  · exact FileSystem.find_of_at? (d := (twoFiles a b).root) (by decide) rfl rfl nofun
  · exact FileSystem.find_of_at? (d := (twoFiles a b).root) (by decide) rfl rfl nofun
  · unfold FileSystem.readText FileSystem.contentOf
    rw [find_twoFiles]

theorem isPresent_twoFiles (a b : String) : (twoFiles a b).isPresent "c" = false := by
  unfold FileSystem.isPresent
  rw [find_twoFiles]
  rfl

/-- A document in which the parser has found an error. -/
def cutShort : Document := ⟨none, ⟨[]⟩, [.error "cut short"]⟩

/-- A document with one target path for two deployments. -/
def deployedAgain : Document :=
  ⟨some "b.build", ⟨List.replicate 2 (.deployment ⟨"/x", false, none, none, none⟩)⟩, []⟩

/-- A host with these two documents. -/
def twoDocuments : FileSystem :=
  twoFiles cutShort.toJson.compactText deployedAgain.toJson.compactText

/-- Settings for which a warning is enough to fail. -/
def strict : Settings where
  customValidator := none
  bindings := .empty
  strictVariables := false
  failOnWarning := true
  format := .stylish
  reportPath := none
  quiet := false

def cutShortReport : Report where
  file := some "a"
  diagnostics := [{ Diagnostic.error "cut short" with file := some "a" }]
  directoryDeployments := []

def deployedAgainReport : Report where
  file := some "b.build"
  diagnostics := List.replicate 2 {
    level := .warning
    message := "Duplicate path /x"
    code := some "duplicatePath"
    file := some "b.build"
    context := some "2 deployments target /x" }
  directoryDeployments := []

theorem analyze_cutShort (site : Site) :
    Engine.fresh.analyze .builtIn site none strict.analysisOptions
      { cutShort with file := some "a" } = ⟨.fresh, cutShortReport, []⟩ := rfl

theorem analyze_deployedAgain (site : Site) :
    Engine.fresh.analyze .builtIn site none strict.analysisOptions deployedAgain =
      ⟨.fresh, deployedAgainReport, []⟩ := by
  have hunresolved : deployedAgain.model.unresolved false deployedAgain.file = [] := by cbv
  calc Engine.fresh.analyze .builtIn site none strict.analysisOptions deployedAgain
    _ = ⟨.fresh,
          { file := deployedAgain.file
            diagnostics := deployedAgain.model.unresolved false deployedAgain.file ++
              deployedAgainReport.diagnostics
            directoryDeployments := [] }, []⟩ := rfl
    _ = ⟨.fresh, deployedAgainReport, []⟩ := by
      rw [hunresolved]
      rfl

theorem lintFiles_twoDocuments : lintFiles twoDocuments ["a", "b"] strict =
    .ok (⟨[cutShortReport, deployedAgainReport], true⟩, []) := by
  have hread := readText_twoFiles cutShort.toJson.compactText deployedAgain.toJson.compactText
  have ha : loadDocument twoDocuments "a" = .ok { cutShort with file := some "a" } :=
    loadDocument_written hread.1
  have hb : loadDocument twoDocuments "b" = .ok deployedAgain := loadDocument_written hread.2.1
  have hvalidator : strict.customValidator = none := rfl
  unfold lintFiles lintAt
  simp only [checkValidator, hvalidator, analyzeAll, ha, hb, bind, Except.bind, analyze_cutShort,
    analyze_deployedAgain]
  rfl

end Command

end ImageLint
