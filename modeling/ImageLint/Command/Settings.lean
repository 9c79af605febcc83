import ImageLint.Analysis
import ImageLint.Command.Arguments
import ImageLint.Config

/-!
# Settings of a lint run

What holds for a run after arguments, configuration file and environment have been put together.
Arguments win over the file, and the file wins over the defaults. Variables are layered: those of the
environment, then those of the file, then those of the arguments.
-/

namespace ImageLint.Command

/-- The settings of a lint run. -/
structure Settings where
  customValidator : Option String
  bindings : Bindings
  strictVariables : Bool
  failOnWarning : Bool
  format : Report.Format
  reportPath : Option String
  quiet : Bool
  deriving DecidableEq, Repr

namespace Settings

/-- The variables of a run, from the lowest layer to the highest. -/
def layer (environment config arguments : List (String × String)) : Bindings :=
  ((Bindings.empty.insertAll environment).insertAll config).insertAll arguments

/-- Puts the settings of a run together. -/
def resolve (a : Arguments) (config : Option Config) (environment : List (String × String)) :
    Settings :=
  let c := config.getD {}
  { customValidator := a.customValidator.or c.customValidator
    bindings := layer environment c.bindings a.bindings
    strictVariables := a.strictVariables || c.strictVariables.getD false
    failOnWarning := a.failOnWarning || c.failOnWarning.getD false
    format := (a.format.or c.format).getD .stylish
    reportPath := a.reportPath
    quiet := a.quiet }

/-- What an analysis is told. -/
def analysisOptions (s : Settings) : AnalysisOptions :=
  { bindings := s.bindings, strictVariables := s.strictVariables }

end Settings

end ImageLint.Command
