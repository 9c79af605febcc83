import ImageLint.Directory
import ImageLint.Validation
import ImageLint.Variable.Unresolved

/-!
# Analysing documents

The full analysis of a document: variables are replaced, those without a value are reported, the
model is validated, and deployments of whole directories are looked for. A document in which the
parser has found something is only reported.
-/

namespace ImageLint

/-- Everything found in one document. -/
structure Report where
  file : Option String
  diagnostics : List Diagnostic
  directoryDeployments : List DirectoryDeployment
  deriving DecidableEq, Repr

namespace Report

def errorCount (r : Report) : Nat := (r.diagnostics.filter Diagnostic.isError).length

/-- The number of warnings. A deployment of a directory counts as one. -/
def warningCount (r : Report) : Nat :=
  (r.diagnostics.filter Diagnostic.isWarning).length + r.directoryDeployments.length

/-- Whether the report makes a run fail. -/
def isFailure (r : Report) (failOnWarning : Bool) : Bool :=
  r.errorCount > 0 || (failOnWarning && r.warningCount > 0)

end Report

/-- What an analysis can be told. -/
structure AnalysisOptions where
  bindings : Bindings
  /-- Whether an unresolved variable is an error. -/
  strictVariables : Bool
  deriving DecidableEq, Repr

/-- What an analysis yields. -/
structure Analysis where
  engine : Engine
  report : Report
  log : List Log.Line

namespace Engine

/-- Analyses a document. The path of the validator is asked for during the analysis, if at all. -/
def analyzeAsking {m : Type → Type} [Monad m] (e : Engine) (rules : AttributeRules) (site : Site)
    (ask : m (Option String)) (options : AnalysisOptions) (d : Document) : m Analysis :=
  if d.syntaxDiagnostics.isEmpty then do
    let model := d.model.substitute options.bindings
    let p ← e.validateAsking rules site ask { d with model }
    pure {
      engine := p.engine
      report := {
        file := d.file
        diagnostics := model.unresolved options.strictVariables d.file ++ p.diagnostics
        directoryDeployments := model.directoryDeployments site.files d.file }
      log := p.log }
  else do
    let p ← e.validateAsking rules site ask d
    pure {
      engine := p.engine
      report := { file := d.file, diagnostics := p.diagnostics, directoryDeployments := [] }
      log := p.log }

/-- Analyses a document when the answer about the path is known. -/
def analyze (e : Engine) (rules : AttributeRules) (site : Site) (provided : Option String)
    (options : AnalysisOptions) (d : Document) : Analysis :=
  Id.run (e.analyzeAsking rules site (pure provided) options d)

end Engine

end ImageLint
