import ImageLint.Proofs.Analysis.ShortCircuit
import ImageLint.Proofs.Report.Tally
import ImageLint.Proofs.Variable.Coverage

/-!
# Strictness

Two analyses of a document that differ only in whether an unresolved variable is an error. The search
for unresolved variables is the only thing that is told; so the reports differ only in how grave the
findings at their front are, and a strict analysis fails wherever a lenient one does.

* `Document.unresolved`: what the search finds in an analysis.
* `Report.Escalated`: the relation between the two reports, with its consequences for the counts.
* `Engine.strictness_changes_severity`: all of it together.
-/

namespace ImageLint

/-- What the search for unresolved variables finds in an analysis. A document in which the parser has
found something is not searched. -/
def Document.unresolved (d : Document) (options : AnalysisOptions) : List Diagnostic :=
  if d.syntaxDiagnostics = [] then
    (d.model.substitute options.bindings).unresolved options.strictVariables d.file
  else []

/-- The same finding as an error. -/
def Diagnostic.asError (d : Diagnostic) : Diagnostic := { d with level := .error }

theorem Model.unresolved_strict (m : Model) (file : Option String) :
    m.unresolved true file = (m.unresolved false file).map Diagnostic.asError := by
  rw [unresolved_eq_map_occurrences, unresolved_eq_map_occurrences, List.map_map]
  rfl

theorem Model.level_of_mem_unresolved {m : Model} {strict : Bool} {file : Option String}
    {d : Diagnostic} (h : d ∈ m.unresolved strict file) : d.level = Variable.severity strict := by
  rw [unresolved_eq_map_occurrences] at h
  obtain ⟨o, -, rfl⟩ := List.mem_map.mp h
  rfl

theorem Document.unresolved_strict (d : Document) (bindings : Bindings) :
    d.unresolved ⟨bindings, true⟩ = (d.unresolved ⟨bindings, false⟩).map Diagnostic.asError := by
  unfold unresolved
  split
  · exact Model.unresolved_strict _ _
  · rfl

theorem Document.level_of_mem_unresolved {d : Document} {options : AnalysisOptions}
    {x : Diagnostic} (h : x ∈ d.unresolved options) :
    x.level = Variable.severity options.strictVariables := by
  unfold unresolved at h
  split at h
  · exact Model.level_of_mem_unresolved h
  · cases h

/-! ## Reports that differ in severity -/

namespace Report

/-- `strict` is `lenient` with the first `k` findings, which are warnings, turned into errors. -/
structure Escalated (k : Nat) (lenient strict : Report) : Prop where
  file : strict.file = lenient.file
  directoryDeployments : strict.directoryDeployments = lenient.directoryDeployments
  le_length : k ≤ lenient.diagnostics.length
  warnings : ∀ d ∈ lenient.diagnostics.take k, d.level = .warning
  take : strict.diagnostics.take k = (lenient.diagnostics.take k).map Diagnostic.asError
  drop : strict.diagnostics.drop k = lenient.diagnostics.drop k

namespace Escalated

variable {k : Nat} {lenient strict : Report}

theorem of_append {file : Option String} {found rest : List Diagnostic}
    {deployments : List DirectoryDeployment} (h : ∀ d ∈ found, d.level = .warning) :
    Escalated found.length ⟨file, found ++ rest, deployments⟩
      ⟨file, found.map Diagnostic.asError ++ rest, deployments⟩ where
  file := rfl
  directoryDeployments := rfl
  le_length := by simp
  warnings := by
    rw [List.take_left]
    exact h
  take := by
    rw [List.take_left]
    exact List.take_left' (List.length_map _)
  drop := by
    rw [List.drop_left]
    exact List.drop_left' (List.length_map _)

/-- Findings of one severity count as many as they are, and as none for another severity. -/
theorem countP_take (h : Escalated k lenient strict) (level : Severity) :
    (lenient.diagnostics.take k).countP (·.level = level) = (if level = .warning then k else 0) ∧
      (strict.diagnostics.take k).countP (·.level = level) = (if level = .error then k else 0) := by
  have hlength : (lenient.diagnostics.take k).length = k := List.length_take_of_le h.le_length
  rw [h.take, List.countP_map]
  cases level with
  | warning =>
    refine ⟨?_, List.countP_eq_zero.mpr fun d _ => by simp [Diagnostic.asError]⟩
    rw [List.countP_eq_length.mpr fun d hd => by simpa using h.warnings d hd, hlength]
    rfl
  | error =>
    refine ⟨List.countP_eq_zero.mpr fun d hd => by simp [h.warnings d hd], ?_⟩
    rw [List.countP_eq_length.mpr fun d _ => by simp [Diagnostic.asError], hlength]
    rfl

theorem countP_diagnostics (h : Escalated k lenient strict) (level : Severity) :
    strict.diagnostics.countP (·.level = level) + (if level = .warning then k else 0) =
      lenient.diagnostics.countP (·.level = level) + (if level = .error then k else 0) := by
  obtain ⟨hlenient, hstrict⟩ := h.countP_take level
  have hsplit (r : Report) : r.diagnostics.countP (·.level = level) =
      (r.diagnostics.take k).countP (·.level = level) +
        (r.diagnostics.drop k).countP (·.level = level) := by
    rw [← List.countP_append, List.take_append_drop]
  rw [hsplit, hsplit lenient, h.drop, hlenient, hstrict]
  omega

theorem errorCount_eq (h : Escalated k lenient strict) :
    strict.errorCount = lenient.errorCount + k := by
  have hcount := h.countP_diagnostics .error
  rw [← Report.errorCount_eq, ← Report.errorCount_eq] at hcount
  simpa using hcount

theorem warningCount_add (h : Escalated k lenient strict) :
    strict.warningCount + k = lenient.warningCount := by
  have hcount := h.countP_diagnostics .warning
  rw [Report.warningCount_eq, Report.warningCount_eq, h.directoryDeployments]
  simp only [reduceIte, reduceCtorEq] at hcount
  omega

end Escalated

/-- What fails although warnings are let pass fails also when they are not. -/
theorem isFailure_true_of_false {r : Report} (h : r.isFailure false = true) :
    r.isFailure true = true := by
  rw [isFailure_iff] at h ⊢
  exact Or.inl (h.resolve_right (by simp))

/-- Errors in the place of warnings keep a failure. -/
theorem Escalated.isFailure {k : Nat} {lenient strict : Report} (h : Escalated k lenient strict)
    {failOnWarning : Bool} (hfailure : lenient.isFailure failOnWarning = true) :
    strict.isFailure failOnWarning = true := by
  have herrors := h.errorCount_eq
  have hwarnings := h.warningCount_add
  rw [isFailure_iff] at hfailure ⊢
  rcases hfailure with hpos | ⟨hfail, hpos⟩
  · exact Or.inl (by omega)
  · -- the warnings are still there, or at least one of them has become an error
    rcases Nat.eq_zero_or_pos k with hzero | hk
    · exact Or.inr ⟨hfail, by omega⟩
    · exact Or.inl (by omega)

end Report

/-! ## Two analyses -/

namespace Engine

open Host

/-- An analysis tells only the search for unresolved variables how strict it is. -/
theorem exists_analyze_eq (e : Engine) (rules : AttributeRules) (site : Site)
    (provided : Option String) (bindings : Bindings) (d : Document) :
    ∃ engine rest deployments log, ∀ strict,
      e.analyze rules site provided ⟨bindings, strict⟩ d =
        ⟨engine, ⟨d.file, d.unresolved ⟨bindings, strict⟩ ++ rest, deployments⟩, log⟩ := by
  by_cases hd : d.syntaxDiagnostics = []
  · let m := d.model.substitute bindings
    let p := e.validate rules site provided { d with model := m }
    refine ⟨p.engine, p.diagnostics, m.directoryDeployments site.files d.file, p.log, ?_⟩
    intro strict
    unfold analyze analyzeAsking Document.unresolved
    rw [if_pos (List.isEmpty_iff.mpr hd), if_pos hd]
    rfl
  · refine ⟨e, (Report.ofSyntax d.file d.syntaxDiagnostics).diagnostics, [], [], ?_⟩
    intro strict
    unfold analyze Document.unresolved
    rw [analyzeAsking_of_broken hd, if_neg hd]
    rfl

/-- **Strictness changes only how grave unresolved variables are.** Two analyses under the same
circumstances leave the same engine and log the same. Their reports differ in the findings of the
search for unresolved variables, which stand in front and are errors in one and warnings in the
other. So they count the same findings together, and the strict one fails wherever the lenient one
does. -/
theorem strictness_changes_severity (e : Engine) (rules : AttributeRules) (site : Site)
    (provided : Option String) (bindings : Bindings) (d : Document) :
    let lenient := e.analyze rules site provided ⟨bindings, false⟩ d
    let strict := e.analyze rules site provided ⟨bindings, true⟩ d
    let k := (d.unresolved ⟨bindings, false⟩).length
    strict.engine = lenient.engine ∧ strict.log = lenient.log ∧
      lenient.report.diagnostics.take k = d.unresolved ⟨bindings, false⟩ ∧
      strict.report.diagnostics.take k = d.unresolved ⟨bindings, true⟩ ∧
      (d.syntaxDiagnostics ≠ [] → k = 0) ∧
      lenient.report.Escalated k strict.report ∧
      strict.report.errorCount = lenient.report.errorCount + k ∧
      strict.report.warningCount + k = lenient.report.warningCount ∧
      strict.report.errorCount + strict.report.warningCount =
        lenient.report.errorCount + lenient.report.warningCount ∧
      (∀ failOnWarning, lenient.report.isFailure failOnWarning = true →
        strict.report.isFailure failOnWarning = true) ∧
      ∀ r : Report, r.isFailure false = true → r.isFailure true = true := by
  obtain ⟨engine, rest, deployments, log, hall⟩ :=
    e.exists_analyze_eq rules site provided bindings d
  rw [hall true, hall false]
  intro lenient strict k
  have hwarnings : ∀ x ∈ d.unresolved ⟨bindings, false⟩, x.level = .warning :=
    fun x hx => Document.level_of_mem_unresolved hx
  have hescalated : lenient.report.Escalated k strict.report := by
    have h : Report.Escalated k ⟨d.file, d.unresolved ⟨bindings, false⟩ ++ rest, deployments⟩
        ⟨d.file, (d.unresolved ⟨bindings, false⟩).map Diagnostic.asError ++ rest, deployments⟩ :=
      .of_append hwarnings
    rwa [← d.unresolved_strict] at h
  have herrors := hescalated.errorCount_eq
  have hwarningCount := hescalated.warningCount_add
  have hleading : lenient.report.diagnostics.take k = d.unresolved ⟨bindings, false⟩ :=
    List.take_left
  refine ⟨rfl, rfl, hleading, ?_, ?_, hescalated, herrors, hwarningCount, by omega,
    fun _ => hescalated.isFailure, fun _ => Report.isFailure_true_of_false⟩
  · rw [hescalated.take, hleading, d.unresolved_strict]
  · intro hd
    show (d.unresolved ⟨bindings, false⟩).length = 0
    rw [Document.unresolved, if_neg hd, List.length_nil]

/-! ## A document with a variable -/

/-- A document with two deployments of one path, which holds a variable. -/
def deployedTwiceSomewhere : Document where
  file := some "f"
  model := ⟨List.replicate 2 (.deployment ⟨"/$\x7bA\x7d", false, none, none, none⟩)⟩
  syntaxDiagnostics := []

/-- What is found when the document is searched for variables. -/
def twiceUnresolved : List Diagnostic := List.replicate 2 {
  level := .warning
  message := "Unresolved variable $\x7bA\x7d in path '/$\x7bA\x7d'"
  code := some "unresolvedVariable"
  file := some "f" }

/-- What is found when its deployments are compared. -/
def twiceDeployed : List Diagnostic := List.replicate 2 {
  level := .warning
  message := "Duplicate path /$\x7bA\x7d"
  code := some "duplicatePath"
  file := some "f"
  context := some "2 deployments target /$\x7bA\x7d" }

theorem unresolved_deployedTwiceSomewhere :
    deployedTwiceSomewhere.unresolved ⟨.empty, false⟩ = twiceUnresolved := by
  cbv

theorem report_deployedTwiceSomewhere (site : Site) :
    (fresh.analyze .builtIn site none ⟨.empty, false⟩ deployedTwiceSomewhere).report =
      { file := some "f"
        diagnostics := twiceUnresolved ++ twiceDeployed
        directoryDeployments := [] } := by
  calc (fresh.analyze .builtIn site none ⟨.empty, false⟩ deployedTwiceSomewhere).report
    _ = { file := some "f"
          diagnostics := deployedTwiceSomewhere.unresolved ⟨.empty, false⟩ ++ twiceDeployed
          directoryDeployments := [] } := rfl
    _ = _ := by rw [unresolved_deployedTwiceSomewhere]

theorem strictness_changes_severity_somewhere :
    let site := Fleet.lateValidator.site (oneFile 3)
    let lenient := fresh.analyze .builtIn site none ⟨.empty, false⟩ deployedTwiceSomewhere
    let strict := fresh.analyze .builtIn site none ⟨.empty, true⟩ deployedTwiceSomewhere
    let cutShort := Report.ofSyntax none [.error "cut short"]
    deployedTwiceWarned.syntaxDiagnostics ≠ [] ∧
      deployedTwiceWarned.unresolved ⟨.empty, false⟩ = [] ∧
      (lenient.report.errorCount, lenient.report.warningCount) = (0, 4) ∧
      (strict.report.errorCount, strict.report.warningCount) = (2, 2) ∧
      lenient.report.isFailure false = false ∧
      lenient.report.isFailure true = true ∧ strict.report.isFailure true = true ∧
      cutShort.isFailure false = true ∧ cutShort.isFailure true = true := by
  intro site lenient strict cutShort
  have hbroken : deployedTwiceWarned.syntaxDiagnostics ≠ [] := by decide
  have hlenient := report_deployedTwiceSomewhere site
  have hk : (deployedTwiceSomewhere.unresolved ⟨.empty, false⟩).length = 2 := by
    rw [unresolved_deployedTwiceSomewhere]
    rfl
  have herrors : lenient.report.errorCount = 0 := by
    rw [hlenient]
    rfl
  have hwarnings : lenient.report.warningCount = 4 := by
    rw [hlenient]
    rfl
  have hlet : lenient.report.isFailure false = false := by
    rw [hlenient]
    rfl
  have hfailure : lenient.report.isFailure true = true := by
    rw [hlenient]
    rfl
  obtain ⟨-, -, -, -, hsearched, -⟩ :=
    fresh.strictness_changes_severity .builtIn site none .empty deployedTwiceWarned
  obtain ⟨-, -, -, -, -, -, hmore, hfewer, -, hkept, hmonotone⟩ :=
    fresh.strictness_changes_severity .builtIn site none .empty deployedTwiceSomewhere
  rw [hk, herrors] at hmore
  rw [hk, hwarnings] at hfewer
  have hcut : cutShort.isFailure false = true := by decide
  refine ⟨hbroken, List.eq_nil_of_length_eq_zero (hsearched hbroken), ?_, ?_, hlet, hfailure,
    hkept true hfailure, hcut, hmonotone cutShort hcut⟩
  · rw [herrors, hwarnings]
  · rw [hmore, Nat.eq_sub_of_add_eq hfewer]

end Engine

end ImageLint
