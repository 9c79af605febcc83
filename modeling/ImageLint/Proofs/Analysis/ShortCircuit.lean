import ImageLint.Proofs.Analysis.Contribution

/-!
# Documents in which the parser has found something

Such a document is reported as the parser left it, whether the parser found errors or only warnings.
Two checks see to that, one in the analysis and one in the pass over the document. Nothing else is
looked at: not the model, not the host, not the engine, and the path of the custom validator is not
asked for.

* `Engine.validateAsking_of_broken`, `Engine.analyzeAsking_of_broken`: the pass and the analysis,
  whatever would answer.
* `Engine.broken_document_short_circuits`: the whole analysis of such a document.
-/

namespace ImageLint

open Host

namespace Report

/-- The report about a document with findings of the parser. -/
def ofSyntax (file : Option String) (found : List Diagnostic) : Report where
  file
  diagnostics := found.map fun d => { d with file := d.file.or file }
  directoryDeployments := []

end Report

theorem Diagnostic.fillFile_eq (d : Diagnostic) (file : Option String) :
    d.fillFile file = { d with file := d.file.or file } := by
  obtain ⟨level, message, code, own, line, column, context, suggestion⟩ := d
  cases own <;> rfl

namespace Engine

variable {m : Type → Type} [Monad m] [LawfulMonad m]

omit [LawfulMonad m] in
theorem validateAsking_of_broken {d : Document} (hd : d.syntaxDiagnostics ≠ []) (e : Engine)
    (rules : AttributeRules) (site : Site) (ask : m (Option String)) :
    e.validateAsking rules site ask d =
      pure {
        engine := e
        diagnostics := (Report.ofSyntax d.file d.syntaxDiagnostics).diagnostics
        log := [] } := by
  have hempty : ¬ d.syntaxDiagnostics.isEmpty = true := fun h => hd (List.isEmpty_iff.mp h)
  have hfill : d.syntaxDiagnostics.map (·.fillFile d.file) =
      (Report.ofSyntax d.file d.syntaxDiagnostics).diagnostics :=
    List.map_congr_left fun x _ => x.fillFile_eq d.file
  unfold validateAsking
  rw [if_neg hempty, hfill]

theorem analyzeAsking_of_broken {d : Document} (hd : d.syntaxDiagnostics ≠ []) (e : Engine)
    (rules : AttributeRules) (site : Site) (ask : m (Option String)) (options : AnalysisOptions) :
    e.analyzeAsking rules site ask options d =
      pure { engine := e, report := .ofSyntax d.file d.syntaxDiagnostics, log := [] } := by
  have hempty : ¬ d.syntaxDiagnostics.isEmpty = true := fun h => hd (List.isEmpty_iff.mp h)
  unfold analyzeAsking
  rw [if_neg hempty, validateAsking_of_broken hd, pure_bind]
  rfl

/-- **A document with findings of the parser is only reported.** There is one report for all such
documents with the same file and the same findings. It holds these findings, each attributed to the
file if it named none, and no deployments of directories. Every analysis of such a document, with
any model and under any circumstances, yields that report, asks nothing, logs nothing and leaves
the engine as it was. -/
theorem broken_document_short_circuits (file : Option String) (found : List Diagnostic)
    (hfound : found ≠ []) :
    ∃ report : Report,
      report.file = file ∧
      report.diagnostics = found.map (fun d => { d with file := d.file.or file }) ∧
      report.directoryDeployments = [] ∧
      ∀ (d : Document), d.file = file → d.syntaxDiagnostics = found →
        ∀ (e : Engine) (rules : AttributeRules) (site : Site) (options : AnalysisOptions),
          (∀ provided : Option String,
            e.analyze rules site provided options d = { engine := e, report, log := [] }) ∧
          ∀ (m : Type → Type) [Monad m] [LawfulMonad m] (ask : m (Option String)),
            e.analyzeAsking rules site ask options d =
              pure { engine := e, report, log := [] } := by
  refine ⟨.ofSyntax file found, rfl, rfl, rfl, ?_⟩
  rintro d rfl rfl e rules site options
  refine ⟨?_, ?_⟩
  · intro provided
    unfold analyze
    rw [analyzeAsking_of_broken hfound]
    rfl
  · intro m _ _ ask
    exact analyzeAsking_of_broken hfound e rules site ask options

/-! ## A document with a warning of the parser -/

/-- A document with two deployments of one path and a warning of the parser. -/
def deployedTwiceWarned : Document :=
  { deployedTwice with
    syntaxDiagnostics := [.warning "w", { Diagnostic.warning "x" with file := "g" }] }

/-- An engine that has used a custom validator. -/
def switchedEngine : Engine := ⟨some "v", .empty⟩

/-- The answer about the path from a source that counts how often it is asked. -/
def countedAnswer : StateM Nat (Option String) := fun n => (some "w", n + 1)

theorem broken_document_short_circuits_warned :
    deployedTwiceWarned.syntaxDiagnostics ≠ [] ∧ deployedTwiceWarned.hasErrors = false ∧
      ∀ options : AnalysisOptions,
        let run := (switchedEngine.analyzeAsking .builtIn
          (Fleet.lateValidator.site (oneFile 3)) countedAnswer options deployedTwiceWarned).run 0
        run.2 = 0 ∧ run.1.engine = switchedEngine ∧ run.1.log = [] ∧
          run.1.report.directoryDeployments = [] ∧
          run.1.report.diagnostics =
            [{ Diagnostic.warning "w" with file := some "f" },
              { Diagnostic.warning "x" with file := some "g" }] := by
  have hfound : deployedTwiceWarned.syntaxDiagnostics ≠ [] := by decide
  refine ⟨hfound, by decide, ?_⟩
  intro options run
  obtain ⟨report, -, hdiagnostics, hdeployments, hall⟩ :=
    broken_document_short_circuits deployedTwiceWarned.file _ hfound
  have hrun : run = ({ engine := switchedEngine, report, log := [] }, 0) :=
    congrFun ((hall deployedTwiceWarned rfl rfl switchedEngine .builtIn
      (Fleet.lateValidator.site (oneFile 3)) options).2 (StateM Nat) countedAnswer) 0
  rw [hrun]
  exact ⟨rfl, rfl, rfl, hdeployments, hdiagnostics⟩

end Engine

end ImageLint
