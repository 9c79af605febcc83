import ImageLint.Proofs.Attribute.Registry
import ImageLint.Proofs.Command.Failure
import ImageLint.Proofs.Variable.Coverage

/-!
# Every finding is about a file

Many hands attribute findings to a file: the search for variables, the sink of a check, the end of a
pass, the search for directories and the report on what the parser has found. Here a finding is
first taken raw, as it is made. Only the parser and the checks of a custom validator say which file
a raw finding is about, and then it stays with that file. Every other one gets the file of its
document.

* `AttributeRules.file_eq_none_of_mem_checkModel` and its neighbours: raw findings that name no
  file.
* `Engine.diagnostics_analyze_eq_map_settle`: the findings of a report are settled raw findings.
* `Command.every_finding_attributed`: what every report and every lint run says about files.
-/

namespace ImageLint

open Host

/-- What makes a finding. -/
inductive Maker where
  | parser
  | variables
  | attributes
  | duplicates
  | loading
  | check (n : Node) (c : Check)

namespace Maker

/-- Whether a maker may say which file a finding is about. -/
def MayNameFile : Maker → Prop
  | parser => True
  | check _ _ => True
  | _ => False

/-- Where the findings are that have no line. -/
def location : Maker → Option Location
  | check n _ => n.location
  | _ => none

end Maker

/-- A finding as it is made. -/
structure RawFinding where
  maker : Maker
  diagnostic : Diagnostic

/-- The finding in a report on a document with the given file. -/
def RawFinding.settle (file : Option String) (x : RawFinding) : Diagnostic :=
  x.diagnostic.placed file x.maker.location

theorem RawFinding.file_settle (f : String) (x : RawFinding) :
    (x.settle (some f)).file = some (x.diagnostic.file.getD f) := by
  show x.diagnostic.file.or (some f) = _
  cases x.diagnostic.file <;> rfl

theorem Diagnostic.placed_none (d : Diagnostic) (file : Option String) :
    d.placed file none = d.fillFile file := by
  rw [← fillLocation_fillFile]
  unfold fillLocation
  split <;> rfl

theorem RawFinding.map_settle (maker : Maker) (h : maker.location = none) (file : Option String)
    (ds : List Diagnostic) :
    (ds.map (RawFinding.mk maker)).map (RawFinding.settle file) = ds.map (·.fillFile file) := by
  rw [List.map_map]
  refine List.map_congr_left ?_
  intro d _
  show d.placed file maker.location = _
  rw [h, d.placed_none]

namespace Situation

/-- What the custom validator adds, as it is made. -/
def raw (m : Model) : Situation → List RawFinding
  | .unconfigured => []
  | .unloadable e => [⟨.loading, Engine.loadFinding e⟩]
  | .loaded v =>
    (v.meetings m).flatMap fun i => (i.2.inspect i.1).reported.map (RawFinding.mk (.check i.1 i.2))

theorem findings_eq_map_settle (m : Model) (file : Option String) (s : Situation) :
    s.findings m file = (s.raw m).map (RawFinding.settle file) := by
  cases s with
  | unconfigured => rfl
  | unloadable e => rfl
  | loaded v =>
    unfold findings raw
    rw [List.map_flatMap]
    simp only [List.map_map]
    rfl

end Situation

/-- The findings of a document, as they are made. -/
def Engine.raw (e : Engine) (rules : AttributeRules) (site : Site) (provided : Option String)
    (options : AnalysisOptions) (d : Document) : List RawFinding :=
  if d.syntaxDiagnostics = [] then
    let m := d.model.substitute options.bindings
    (m.unresolved options.strictVariables none).map (RawFinding.mk .variables) ++
      (rules.checkModel m).map (RawFinding.mk .attributes) ++
      m.duplicatePaths.map (RawFinding.mk .duplicates) ++ (e.situation site provided).raw m
  else d.syntaxDiagnostics.map (RawFinding.mk .parser)

/-! ## Raw findings that name no file -/

theorem Diagnostic.file_atLocation (d : Diagnostic) (location : Option Location) :
    (d.atLocation location).file = d.file := by
  cases location <;> rfl

theorem Model.file_eq_none_of_mem_unresolved {m : Model} {strict : Bool} {x : Diagnostic}
    (hx : x ∈ m.unresolved strict none) : x.file = none := by
  rw [unresolved_eq_map_occurrences] at hx
  obtain ⟨o, -, rfl⟩ := List.mem_map.mp hx
  rfl

theorem Model.map_fillFile_unresolved (m : Model) (strict : Bool) (file : Option String) :
    (m.unresolved strict none).map (·.fillFile file) = m.unresolved strict file := by
  rw [unresolved_eq_map_occurrences, unresolved_eq_map_occurrences, List.map_map]
  rfl

namespace AttributeRules

variable {rules : AttributeRules}

theorem file_unknownName (what name : String) (location : Option Location) (known : List String) :
    (unknownName what name location known).file = none := by
  unfold unknownName withSuggestion
  split <;> exact Diagnostic.file_atLocation _ location

theorem file_wrongFormat (rule : ValueRule) (a : ValuedAttribute) :
    (wrongFormat rule a).file = none :=
  Diagnostic.file_atLocation _ a.location

theorem file_of_checkBoolean {a : BooleanAttribute} {x : Diagnostic}
    (hx : checkBoolean a = some x) : x.file = none := by
  unfold checkBoolean at hx
  split at hx
  · cases hx
  · cases hx
    exact file_unknownName _ _ _ _

theorem file_of_checkValued {a : ValuedAttribute} {x : Diagnostic}
    (hx : rules.checkValued a = some x) : x.file = none := by
  unfold checkValued at hx
  split at hx
  · split at hx
    · split at hx
      · cases hx
      · cases hx
        exact file_wrongFormat _ a
    · cases hx
  · cases hx
    exact file_unknownName _ _ _ _

theorem file_eq_none_of_mem_checkModel {m : Model} {x : Diagnostic}
    (hx : x ∈ rules.checkModel m) : x.file = none := by
  rw [checkModel_eq] at hx
  obtain ⟨a, -, ha⟩ := List.mem_filterMap.mp hx
  cases a with
  | boolean a => exact file_of_checkBoolean ha
  | valued a => exact file_of_checkValued ha

end AttributeRules

theorem Model.file_eq_none_of_mem_duplicatePaths {m : Model} {x : Diagnostic}
    (hx : x ∈ m.duplicatePaths) : x.file = none := by
  obtain ⟨g, -, hg⟩ := List.mem_flatMap.mp hx
  unfold Duplicate.Group.findings at hg
  split at hg
  · obtain ⟨s, -, rfl⟩ := List.mem_map.mp hg
    exact Diagnostic.file_atLocation _ s.location
  · cases hg

theorem Situation.mayNameFile_of_mem_raw {m : Model} {s : Situation} {x : RawFinding}
    (hx : x ∈ s.raw m) : x.maker.MayNameFile ∨ x.diagnostic.file = none := by
  cases s with
  | unconfigured => cases hx
  | unloadable e =>
    obtain rfl := List.mem_singleton.mp hx
    exact Or.inr rfl
  | loaded v =>
    obtain ⟨i, -, hi⟩ := List.mem_flatMap.mp hx
    obtain ⟨d, -, rfl⟩ := List.mem_map.mp hi
    exact Or.inl trivial

/-! ## Reports -/

namespace Engine

variable (e : Engine) (rules : AttributeRules) (site : Site) (provided : Option String)
  (options : AnalysisOptions) (d : Document)

theorem mayNameFile_of_mem_raw {x : RawFinding} (hx : x ∈ e.raw rules site provided options d) :
    x.maker.MayNameFile ∨ x.diagnostic.file = none := by
  unfold raw at hx
  split at hx
  · simp only [List.mem_append, List.mem_map] at hx
    rcases hx with ((⟨y, hy, rfl⟩ | ⟨y, hy, rfl⟩) | ⟨y, hy, rfl⟩) | hadded
    · exact Or.inr (Model.file_eq_none_of_mem_unresolved hy)
    · exact Or.inr (AttributeRules.file_eq_none_of_mem_checkModel hy)
    · exact Or.inr (Model.file_eq_none_of_mem_duplicatePaths hy)
    · exact Situation.mayNameFile_of_mem_raw hadded
  · obtain ⟨y, -, rfl⟩ := List.mem_map.mp hx
    exact Or.inl trivial

theorem file_analyze : (e.analyze rules site provided options d).report.file = d.file := by
  by_cases hd : d.syntaxDiagnostics = []
  · rw [report_analyze_of_clean hd]
  · rw [analyze_of_broken hd]
    rfl

theorem diagnostics_analyze_eq_map_settle :
    (e.analyze rules site provided options d).report.diagnostics =
      (e.raw rules site provided options d).map (RawFinding.settle d.file) := by
  unfold raw
  by_cases hd : d.syntaxDiagnostics = []
  · rw [report_analyze_of_clean hd, if_pos hd]
    dsimp only
    rw [diagnostics_validateModel_eq, Situation.findings_eq_map_settle]
    simp only [List.map_append, List.append_assoc,
      RawFinding.map_settle .variables rfl, RawFinding.map_settle .attributes rfl,
      RawFinding.map_settle .duplicates rfl, Model.map_fillFile_unresolved]
  · rw [analyze_of_broken hd, if_neg hd, RawFinding.map_settle .parser rfl]
    exact List.map_congr_left fun x _ => (x.fillFile_eq d.file).symm

theorem file_warning_analyze {w : DirectoryDeployment} {f : String} (hf : d.file = some f)
    (hw : w ∈ (e.analyze rules site provided options d).report.directoryDeployments) :
    w.warning.file = some f := by
  by_cases hd : d.syntaxDiagnostics = []
  · rw [report_analyze_of_clean hd, hf] at hw
    obtain ⟨s, -, hs⟩ := List.mem_filterMap.mp hw
    unfold DirectoryDeployment.ofStatement? at hs
    split at hs
    · cases hs
    · split at hs
      · cases hs
        rfl
      · cases hs
  · rw [analyze_of_broken hd] at hw
    cases hw

end Engine

/-- Whether a report and everything in it is about a file. -/
structure Report.Attributed (r : Report) : Prop where
  file : r.file ≠ none
  diagnostics : ∀ x ∈ r.diagnostics, x.file ≠ none
  directoryDeployments : ∀ w ∈ r.directoryDeployments, w.warning.file ≠ none

theorem Engine.attributed_analyze (e : Engine) (rules : AttributeRules) (site : Site)
    (provided : Option String) (options : AnalysisOptions) {d : Document} (hd : d.file ≠ none) :
    (e.analyze rules site provided options d).report.Attributed := by
  obtain ⟨f, hf⟩ := Option.ne_none_iff_exists'.mp hd
  constructor
  · rwa [file_analyze]
  · intro x hx
    rw [diagnostics_analyze_eq_map_settle, hf] at hx
    obtain ⟨y, -, rfl⟩ := List.mem_map.mp hx
    rw [RawFinding.file_settle]
    exact Option.some_ne_none _
  · intro w hw
    rw [file_warning_analyze e rules site provided options d hf hw]
    exact Option.some_ne_none f

/-! ## Runs -/

namespace Command

theorem file_ne_none_of_loadDocument {fs : FileSystem} {path : String} {d : Document}
    (h : loadDocument fs path = .ok d) : d.file ≠ none := by
  unfold loadDocument at h
  split at h
  · cases h
  · split at h
    · cases h
    · cases h
      exact Option.some_ne_none _

theorem attributed_reportAt {site : Site} {s : Settings} {path : String} {r : Report}
    (h : reportAt site s path = .ok r) : r.Attributed := by
  unfold reportAt at h
  cases hload : loadDocument site.files path with
  | error err =>
    rw [hload] at h
    cases h
  | ok d =>
    rw [hload] at h
    cases h
    exact Engine.attributed_analyze _ _ _ _ _ (file_ne_none_of_loadDocument hload)

theorem attributed_of_lintAt {site : Site} {paths : List String} {s : Settings} {o : Outcome}
    {log : List Log.Line} (h : lintAt site paths s = .ok (o, log)) :
    ∀ r ∈ o.reports, r.Attributed := by
  obtain ⟨-, hok, rfl⟩ := (outcomeAt_eq_ok_iff site s).mp (outcomeAt_of_lintAt h)
  intro r hr
  obtain ⟨path, hpath, rfl⟩ := List.mem_map.mp hr
  exact attributed_reportAt (eq_ok_of_isOk _ (hok path hpath))

theorem lintFiles_of_lint {decode : Config.Decoder} {fs : FileSystem} {a : Arguments}
    {environment : List (String × String)} {coloured : Bool} {o : Outcome}
    (h : (lint decode fs a environment coloured).result = .ok o) :
    ∃ log, lintFiles fs a.files (settingsOf decode fs a environment) = .ok (o, log) := by
  rcases lint_cases decode fs a environment coloured with
    ⟨notes, e, hstop, -⟩ | ⟨-, -, -, outcome, notes, log, hrun, hdeliver⟩
  · rw [hstop] at h
    cases h
  · rw [hdeliver] at h
    unfold deliver at h
    split at h
    · cases h
      exact ⟨log, hrun⟩
    · split at h
      · cases h
      · cases h
        exact ⟨log, hrun⟩

/-- **Every finding is about a file.** In the report on a document with a file stand the findings
that were made, in their order, and each of them is about the file that it named when it was made,
or else about the file of the document. Only the parser and the checks of a custom validator name a
file. Deployments of directories are about the file of the document. A document that is loaded has a
file, so no report of a lint run has a finding without one. -/
theorem every_finding_attributed :
    (∀ (d : Document) (f : String), d.file = some f →
      ∀ (e : Engine) (rules : AttributeRules) (site : Site) (provided : Option String)
        (options : AnalysisOptions),
        let raw := e.raw rules site provided options d
        let report := (e.analyze rules site provided options d).report
        report.diagnostics = raw.map (RawFinding.settle (some f)) ∧
          report.diagnostics.map (·.file) =
            raw.map (fun x => some (x.diagnostic.file.getD f)) ∧
          (∀ x ∈ raw, x.maker.MayNameFile ∨ x.diagnostic.file = none) ∧
          ∀ w ∈ report.directoryDeployments, w.warning.file = some f) ∧
      (∀ fs path d, loadDocument fs path = .ok d → d.file ≠ none) ∧
      (∀ site paths s o log, lintAt site paths s = .ok (o, log) → ∀ r ∈ o.reports, r.Attributed) ∧
      ∀ decode fs a environment coloured o, (lint decode fs a environment coloured).result = .ok o →
        ∀ r ∈ o.reports, r.Attributed := by
  refine ⟨?_, fun _ _ _ => file_ne_none_of_loadDocument, fun _ _ _ _ _ => attributed_of_lintAt, ?_⟩
  · intro d f hf e rules site provided options raw report
    have hfindings : report.diagnostics = raw.map (RawFinding.settle (some f)) := by
      rw [← hf]
      exact e.diagnostics_analyze_eq_map_settle rules site provided options d
    refine ⟨hfindings, ?_, ?_, ?_⟩
    · rw [hfindings, List.map_map]
      exact List.map_congr_left fun x _ => x.file_settle f
    · intro x hx
      exact e.mayNameFile_of_mem_raw rules site provided options d hx
    · intro w hw
      exact e.file_warning_analyze rules site provided options d hf hw
  · intro decode fs a environment coloured o h
    obtain ⟨log, hrun⟩ := lintFiles_of_lint h
    exact attributed_of_lintAt hrun

/-! ## A check that names a file -/

/-- A validator with a check that names a file for one of its findings. -/
def namingValidator : CustomValidator where
  entryPoint := "p"
  name := "n"
  checks := [{
    name := "c"
    accepts := .model
    inspect := fun _ =>
      ⟨[.warning "here", { Diagnostic.warning "there" with file := "g" }], .succeeded⟩ }]

/-- A site where every artifact holds this validator. -/
def namingSite : Site where
  files := oneFile 3
  opener := fun _ => .ok ⟨kitVersion, "p", .ok ⟨"n", namingValidator.checks⟩⟩

theorem situation_namingSite :
    Engine.fresh.situation namingSite (some "v") = .loaded namingValidator := by
  have hkey : namingSite.key "v" = ⟨["v"]⟩ := by decide
  have hstamp : namingSite.stamp ⟨["v"]⟩ = some 3 := modified?_oneFile 3
  have hshows : namingSite.shows ⟨["v"]⟩ = true := by
    rw [← Site.isSome_stamp, hstamp]
    rfl
  rw [Engine.situation_fresh hkey hshows]
  rfl

/-- A run over the document of a host with an empty configuration. -/
def strictRun : Arguments where
  files := ["b"]
  configPath := some "a"
  failOnWarning := true

theorem loadDocument_configured : loadDocument configured "b" = .ok deployedAgain :=
  loadDocument_written (readText_twoFiles _ _).2.1

theorem lintAt_configured : lintAt ⟨configured, .native configured⟩ ["b"] strict =
    .ok (⟨[deployedAgainReport], true⟩, []) := by
  have hvalidator : strict.customValidator = none := rfl
  unfold lintAt
  simp only [checkValidator, hvalidator, analyzeAll, loadDocument_configured, bind, Except.bind,
    analyze_deployedAgain]
  rfl

theorem lint_strictRun : lint Config.ofYaml configured strictRun [] false =
    deliver configured strict false ⟨[deployedAgainReport], true⟩ [] [] := by
  have hsettings : settingsOf Config.ofYaml configured strictRun [] = strict :=
    settingsOf_configured rfl
  have hrun : lintFiles configured strictRun.files strict = _ := lintAt_configured
  rw [lint_of_configured false (not_configFault_configured rfl), hsettings,
    lintWith_of_ok false hrun]
  rfl

theorem every_finding_attributed_named :
    Engine.deployedTwiceWarned.file = some "f" ∧
      (Engine.fresh.analyze .builtIn namingSite (some "v") strict.analysisOptions
        Engine.deployedTwiceWarned).report.diagnostics.map (·.file) = [some "f", some "g"] ∧
      Engine.deployedTwice.file = some "f" ∧
      (Engine.fresh.analyze .builtIn namingSite (some "v") strict.analysisOptions
        Engine.deployedTwice).report.diagnostics.map (·.file) =
          [some "f", some "f", some "f", some "g"] ∧
      loadDocument configured "b" = .ok deployedAgain ∧ deployedAgain.file ≠ none ∧
      lintAt ⟨configured, .native configured⟩ ["b"] strict =
        .ok (⟨[deployedAgainReport], true⟩, []) ∧
      deployedAgainReport.Attributed ∧
      (lint Config.ofYaml configured strictRun [] false).result =
        .ok ⟨[deployedAgainReport], true⟩ ∧
      ∀ r ∈ [deployedAgainReport], r.Attributed := by
  obtain ⟨hanalysis, hload, hlintAt, hlint⟩ := every_finding_attributed
  have hwarned : Engine.deployedTwiceWarned.file = some "f" := rfl
  have hclean : Engine.deployedTwice.file = some "f" := rfl
  have hresult : (lint Config.ofYaml configured strictRun [] false).result =
      .ok ⟨[deployedAgainReport], true⟩ := by
    rw [lint_strictRun]
    rfl
  have hfound : Engine.deployedTwice.syntaxDiagnostics = [] := rfl
  obtain ⟨-, hsyntax, -, -⟩ :=
    hanalysis _ _ hwarned .fresh .builtIn namingSite (some "v") strict.analysisOptions
  obtain ⟨-, hchecked, -, -⟩ :=
    hanalysis _ _ hclean .fresh .builtIn namingSite (some "v") strict.analysisOptions
  have hreports := hlintAt _ _ _ _ _ lintAt_configured
  refine ⟨hwarned, hsyntax, hclean, ?_, loadDocument_configured,
    hload _ _ _ loadDocument_configured, lintAt_configured, hreports _ List.mem_cons_self, hresult,
    hlint _ _ _ _ _ _ hresult⟩
  have hunresolved :
      (Engine.deployedTwice.model.substitute strict.analysisOptions.bindings).unresolved
        strict.analysisOptions.strictVariables none = [] := by
    cbv
  rw [hchecked]
  unfold Engine.raw
  rw [situation_namingSite, if_pos hfound]
  simp only [hunresolved]
  rfl

end Command

end ImageLint
