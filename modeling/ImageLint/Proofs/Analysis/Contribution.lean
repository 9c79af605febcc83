import ImageLint.Analysis
import ImageLint.Proofs.Validation.Dispatch
import ImageLint.Proofs.Validation.SharedLoader

/-!
# What a custom validator adds to a report

The findings of a report come from the unresolved variables, the rules for attributes, the duplicate
paths and the custom validator, in this order. Whatever becomes of the validator, only the last part
depends on it.

* `Situation`: what becomes of the validator, and `Situation.findings`: what it then adds.
* `situation_cases`: the situation of a pass is told by what the loader remembers or by what the
  host shows.
* `diagnostics_validateModel_eq`: the parts of a pass.
* `custom_validator_adds_suffix`: the parts of a report, and its counts.
-/

namespace ImageLint

open Host

/-- What becomes of the custom validator in a pass. -/
inductive Situation where
  | unconfigured
  | unloadable (e : LoadError)
  | loaded (v : CustomValidator)

namespace Situation

def ofLoad : Except LoadError CustomValidator → Situation
  | .ok v => .loaded v
  | .error e => .unloadable e

def findings (m : Model) (file : Option String) : Situation → List Diagnostic
  | .unconfigured => []
  | .unloadable e =>
    [{ level := .warning
       message := "Unable to load custom validator: " ++ e.message
       code := some "customValidatorLoad"
       file }]
  | .loaded v => (v.meetings m).flatMap (CustomValidator.reportedAt file)

end Situation

namespace Engine

variable {e : Engine} {s : Site} {provided : Option String} {m : Model} {file : Option String}

/-- What becomes of the custom validator when an engine makes a pass at a site. -/
def situation (e : Engine) (s : Site) : Option String → Situation
  | none => .unconfigured
  | some path =>
    .ofLoad (Loader.validatorOf ((e.switch s.files.workingDirectory (some path)).1.loader.load
      s.files s.opener path).outcome)

/-- No path is given, or the outcome is one that is remembered for the time of the artifact, or the
artifact is loaded as the host shows it. -/
theorem situation_cases (e : Engine) (s : Site) (provided : Option String) :
    (provided = none ∧ e.situation s provided = .unconfigured) ∨
    (∃ path entry, provided = some path ∧
      (e.switch s.files.workingDirectory provided).1.loader.entry? (s.key path) = some entry ∧
      entry.stamp = s.stamp (s.key path) ∧
      e.situation s provided = .ofLoad (Loader.validatorOf entry.outcome)) ∨
    (∃ path, provided = some path ∧
      ¬ (e.switch s.files.workingDirectory provided).1.loader.IsHit (s.key path)
        (s.stamp (s.key path)) ∧
      e.situation s provided = .ofLoad
        (if s.shows (s.key path) then s.opener.validator (s.key path)
          else .error (.missing (s.key path)))) := by
  cases provided with
  | none => exact Or.inl ⟨rfl, rfl⟩
  | some path =>
    have hload : e.situation s (some path) = .ofLoad (Loader.validatorOf
        ((e.switch s.files.workingDirectory (some path)).1.loader.loadAt s (s.key path)).outcome) :=
      rfl
    refine Or.inr ?_
    by_cases hit : (e.switch s.files.workingDirectory (some path)).1.loader.IsHit (s.key path)
        (s.stamp (s.key path))
    · obtain ⟨entry, he, hs⟩ := hit
      refine Or.inl ⟨path, entry, rfl, he, hs, ?_⟩
      rw [hload, Loader.loadAt_hit he hs]
    · refine Or.inr ⟨path, rfl, hit, ?_⟩
      rw [hload, Loader.validatorOf_loadAt_miss hit]

/-- A fresh engine remembers nothing and goes by what the host shows. -/
theorem situation_fresh {path : String} {key : NormalPath} (hkey : s.key path = key)
    (h : s.shows key = true) :
    fresh.situation s (some path) = .ofLoad (s.opener.validator key) := by
  subst hkey
  rcases fresh.situation_cases s (some path) with
    ⟨hnone, -⟩ | ⟨p, entry, -, hentry, -, -⟩ | ⟨p, hp, -, hload⟩
  · cases hnone
  · cases hentry
  · obtain rfl := Option.some.inj hp
    rw [hload, if_pos h]

/-! ## The parts of a pass -/

theorem map_fillFile_reportedAt (file : Option String) (i : Node × Check) :
    (CustomValidator.reportedAt file i).map (·.fillFile file) =
      CustomValidator.reportedAt file i := by
  unfold CustomValidator.reportedAt
  rw [List.map_map]
  refine List.map_congr_left ?_
  intro d _
  exact d.fillFile_placed file i.1.location

theorem map_fillFile_runValidator (e : Engine) (s : Site) (path : String) (m : Model)
    (file : Option String) :
    (e.runValidator s path m file).diagnostics.map (·.fillFile file) =
      (Situation.ofLoad (Loader.validatorOf
        (e.loader.loadAt s (s.key path)).outcome)).findings m file := by
  rcases e.runValidator_cases s path m file with ⟨h, ho, -, hd⟩ | ⟨err, ho, -, hd⟩
  · have hrun : (h.validator.run m file).sink.diagnostics =
        (h.validator.meetings m).flatMap (CustomValidator.reportedAt file) :=
      congrArg (fun p => p.sink.diagnostics) (h.validator.run_eq m file)
    rw [hd, ho, hrun, List.map_flatMap]
    simp only [map_fillFile_reportedAt]
    rfl
  · rw [hd, ho]
    rfl

theorem map_fillFile_runCustom (e : Engine) (s : Site) (provided : Option String) (m : Model)
    (file : Option String) :
    (e.runCustom s provided m file).diagnostics.map (·.fillFile file) =
      (e.situation s provided).findings m file := by
  cases provided with
  | none => rfl
  | some path => exact map_fillFile_runValidator _ s path m file

theorem diagnostics_validateModel_eq (e : Engine) (rules : AttributeRules) (s : Site)
    (provided : Option String) (m : Model) (file : Option String) :
    (e.validateModel rules s provided m file).diagnostics =
      (rules.checkModel m).map (·.fillFile file) ++ m.duplicatePaths.map (·.fillFile file) ++
        (e.situation s provided).findings m file := by
  unfold validateModel ownFindings
  rw [← map_fillFile_runCustom, ← List.map_append, ← List.map_append]

/-! ## The parts of a report -/

theorem validate_of_clean {d : Document} (hd : d.syntaxDiagnostics = []) (e : Engine)
    (rules : AttributeRules) (s : Site) (provided : Option String) :
    e.validate rules s provided d = e.validateModel rules s provided d.model d.file := by
  unfold validate validateAsking
  rw [hd]
  rfl

theorem report_analyze_of_clean {d : Document} (hd : d.syntaxDiagnostics = []) (e : Engine)
    (rules : AttributeRules) (s : Site) (provided : Option String) (options : AnalysisOptions) :
    (e.analyze rules s provided options d).report =
      { file := d.file
        diagnostics := (d.model.substitute options.bindings).unresolved options.strictVariables
            d.file ++
          (e.validateModel rules s provided (d.model.substitute options.bindings)
            d.file).diagnostics
        directoryDeployments :=
          (d.model.substitute options.bindings).directoryDeployments s.files d.file } := by
  have hpass : e.validate rules s provided { d with model := d.model.substitute options.bindings } =
      e.validateModel rules s provided (d.model.substitute options.bindings) d.file :=
    validate_of_clean (d := { d with model := d.model.substitute options.bindings }) hd e rules s
      provided
  have hempty : d.syntaxDiagnostics.isEmpty = true := List.isEmpty_iff.mpr hd
  unfold analyze analyzeAsking
  rw [if_pos hempty, ← hpass]
  rfl

/-- **A custom validator only adds a suffix.** The findings of a document that is looked into are
those about variables, attributes and duplicate paths, which are the same for every engine, every
opener and every answer about the path, and then what the situation of the validator adds. The
deployments of directories are the same as well, and the counts are sums over these parts. -/
theorem custom_validator_adds_suffix (rules : AttributeRules) (files : FileSystem)
    (options : AnalysisOptions) (d : Document) (hd : d.syntaxDiagnostics = []) :
    let m := d.model.substitute options.bindings
    let unresolved := m.unresolved options.strictVariables d.file
    let attributes := (rules.checkModel m).map (·.fillFile d.file)
    let duplicates := m.duplicatePaths.map (·.fillFile d.file)
    let deployments := m.directoryDeployments files d.file
    ∀ (e : Engine) (opener : Opener) (provided : Option String),
      let added := (e.situation ⟨files, opener⟩ provided).findings m d.file
      let report := (e.analyze rules ⟨files, opener⟩ provided options d).report
      report.diagnostics = unresolved ++ attributes ++ duplicates ++ added ∧
        report.directoryDeployments = deployments ∧
        report.errorCount =
          unresolved.countP Diagnostic.isError + attributes.countP Diagnostic.isError +
            duplicates.countP Diagnostic.isError + added.countP Diagnostic.isError ∧
        report.warningCount =
          unresolved.countP Diagnostic.isWarning + attributes.countP Diagnostic.isWarning +
            duplicates.countP Diagnostic.isWarning + added.countP Diagnostic.isWarning +
            deployments.length := by
  intro m unresolved attributes duplicates deployments e opener provided added report
  have hreport : report = { file := d.file
                            diagnostics := unresolved ++ attributes ++ duplicates ++ added
                            directoryDeployments := deployments } := by
    have hparts := e.diagnostics_validateModel_eq rules ⟨files, opener⟩ provided m d.file
    refine (report_analyze_of_clean hd e rules ⟨files, opener⟩ provided options).trans ?_
    rw [hparts, ← List.append_assoc, ← List.append_assoc]
  refine ⟨?_, ?_, ?_, ?_⟩
  · rw [hreport]
  · rw [hreport]
  · rw [hreport]
    unfold Report.errorCount
    rw [← List.countP_eq_length_filter]
    simp only [List.countP_append]
  · rw [hreport]
    unfold Report.warningCount
    rw [← List.countP_eq_length_filter]
    simp only [List.countP_append]

/-! ## A validator that cannot be opened -/

/-- A document with one target path for two deployments. -/
def deployedTwice : Document where
  file := some "f"
  model := ⟨List.replicate 2 (.deployment ⟨"/a", false, none, none, none⟩)⟩
  syntaxDiagnostics := []

theorem validator_site_of_error {f : Behaviour} {files : FileSystem} {key : NormalPath} {time : Int}
    {err : LoadError} (ht : (f.site files).stamp key = some time) (hf : f key time = .error err) :
    (f.site files).opener.validator key = .error err := by
  have hsteady := steady_site f files key time ht
  rw [hf] at hsteady
  cases hv : (f.site files).opener.validator key with
  | ok v =>
    rw [hv] at hsteady
    cases hsteady
  | error err' =>
    rw [hv] at hsteady
    exact congrArg Except.error (Except.error.inj hsteady)

theorem situation_lateValidator :
    fresh.situation (Fleet.lateValidator.site (oneFile 3)) (some "v") =
      .unloadable (.unreadable ⟨["v"]⟩ "") := by
  have hkey : (Fleet.lateValidator.site (oneFile 3)).key "v" = ⟨["v"]⟩ := by decide
  have hstamp : (Fleet.lateValidator.site (oneFile 3)).stamp ⟨["v"]⟩ = some 3 :=
    modified?_oneFile 3
  have hshows : (Fleet.lateValidator.site (oneFile 3)).shows ⟨["v"]⟩ = true := by
    rw [← Site.isSome_stamp, hstamp]
    rfl
  have hopener : (Fleet.lateValidator.site (oneFile 3)).opener.validator ⟨["v"]⟩ =
      .error (.unreadable ⟨["v"]⟩ "") :=
    validator_site_of_error hstamp rfl
  rw [situation_fresh hkey hshows, hopener]
  rfl

theorem custom_validator_adds_suffix_unreadable :
    deployedTwice.syntaxDiagnostics = [] ∧
      ∀ options : AnalysisOptions,
        let without :=
          (fresh.analyze .builtIn (Fleet.lateValidator.site (oneFile 3)) none options
            deployedTwice).report
        let report :=
          (fresh.analyze .builtIn (Fleet.lateValidator.site (oneFile 3)) (some "v") options
            deployedTwice).report
        report.diagnostics = without.diagnostics ++
            (Situation.unloadable (.unreadable ⟨["v"]⟩ "")).findings
              (deployedTwice.model.substitute options.bindings) (some "f") ∧
          report.errorCount = without.errorCount ∧
          report.warningCount = without.warningCount + 1 := by
  refine ⟨rfl, ?_⟩
  intro options without report
  have suffix := custom_validator_adds_suffix .builtIn (oneFile 3) options deployedTwice rfl fresh
    (Fleet.lateValidator.site (oneFile 3)).opener
  obtain ⟨hnone, -, enone, wnone⟩ := suffix none
  obtain ⟨hsome, -, esome, wsome⟩ := suffix (some "v")
  have hadded : fresh.situation ⟨oneFile 3, (Fleet.lateValidator.site (oneFile 3)).opener⟩
      (some "v") = .unloadable (.unreadable ⟨["v"]⟩ "") :=
    situation_lateValidator
  have hadds : fresh.situation ⟨oneFile 3, (Fleet.lateValidator.site (oneFile 3)).opener⟩ none =
      .unconfigured := rfl
  rw [hadded] at hsome esome wsome
  rw [hadds] at hnone enone wnone
  refine ⟨?_, ?_, ?_⟩
  · have hwithout : without.diagnostics = _ := hnone.trans (List.append_nil _)
    rw [hwithout]
    exact hsome
  · exact esome.trans enone.symm
  · have hwarning : ∀ m : Model,
        ((Situation.unloadable (.unreadable ⟨["v"]⟩ "")).findings m (some "f")).countP
          Diagnostic.isWarning = 1 := fun _ => rfl
    have hnothing : ∀ m : Model,
        (Situation.unconfigured.findings m (some "f")).countP Diagnostic.isWarning = 0 :=
      fun _ => rfl
    have hd : deployedTwice.file = some "f" := rfl
    rw [hd, hwarning] at wsome
    rw [hd, hnothing] at wnone
    have hr : report.warningCount = _ := wsome
    have hw : without.warningCount = _ := wnone
    omega

end Engine

end ImageLint
