import ImageLint.Command.Lint

/-!
# What a lint run looks at

The paths that a run looks at on the host, as far as they can be told from what is known of the host
so far. Who knows nothing of the host learns the paths of the configuration and of the documents;
who knows these files learns the rest.
-/

namespace ImageLint.Command

open Host

/-- What a run looks at. -/
structure Lookups where
  /-- The files that are read. -/
  read : List String
  /-- The paths of which the run wants to know everything below. -/
  walked : List String
  /-- The directories that have to exist. -/
  directories : List String
  deriving DecidableEq, Repr

/-- The paths on the host that a document copies from. -/
def sources (fs : FileSystem) (b : Bindings) (path : String) : List String :=
  match loadDocument fs path with
  | .error _ => []
  | .ok d => (d.model.substitute b).deployments.filterMap DeploymentStatement.sourcePath

/-- What a run with the given arguments looks at. -/
def lookups (decode : Config.Decoder) (fs : FileSystem) (environment : List (String × String))
    (arguments : List String) : Lookups :=
  match Arguments.parse (arguments.drop 1) with
  | .error _ => { read := [], walked := [], directories := [] }
  | .ok a =>
    let config := ((Config.load decode fs a.configPath).toOption).join
    let s := Settings.resolve a config environment
    { read := a.configPath.toList ++ Config.defaultPaths ++ a.files ++ s.customValidator.toList
      walked := a.files.flatMap (sources fs s.bindings)
      directories := (s.reportPath.bind parent?).toList }

end ImageLint.Command
