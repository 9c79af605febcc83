import ImageLint.Host.Path
import ImageLint.Validator.Check

/-!
# Custom validators and the artifacts that hold them

A custom validator is a list of checks with the name of its entry point. It comes from an artifact
on the host. An artifact names the version of the kit that it was built against, and only one that
was built against the version of this linter is asked for its validator. Making the validator may
break off.
-/

namespace ImageLint

/-- A custom validator that can be run. -/
structure CustomValidator where
  /-- The full name of the type that makes the validator. -/
  entryPoint : String
  name : String
  checks : List Check

/-- Why a custom validator could not be loaded. -/
inductive LoadError where
  | missing (path : Host.NormalPath)
  /-- The artifact is nothing that can be loaded. -/
  | unreadable (path : Host.NormalPath) (reason : String)
  | noManifest (path : Host.NormalPath) (reason : String)
  | otherVersion (path : Host.NormalPath) (version : String)
  /-- Making the validator broke off. -/
  | construction (entryPoint reason : String)
  deriving DecidableEq, Repr

/-- The version of the kit that this linter works with. -/
def kitVersion : String := "0.3.0"

/-- The error in words. -/
def LoadError.message : LoadError → String
  | .missing path => "custom validator not found: " ++ path.text
  | .unreadable path reason => "unable to open custom validator " ++ path.text ++ ": " ++ reason
  | .noManifest path reason => path.text ++ " does not export a validator manifest: " ++ reason
  | .otherVersion path version =>
    path.text ++ " was built against buildfile-kit " ++ version ++ ", this engine uses " ++ kitVersion
  | .construction entryPoint reason => "unable to instantiate " ++ entryPoint ++ ": " ++ reason

/-- What making a validator yields. -/
structure Construction where
  name : String
  checks : List Check

/-- An artifact that has been opened. -/
structure Artifact where
  kitVersion : String
  entryPoint : String
  /-- The validator, unless making it breaks off. -/
  construct : Except Panic Construction

/-- Makes the validator of an artifact. The version is looked at first. -/
def Artifact.instantiate (a : Artifact) (path : Host.NormalPath) :
    Except LoadError CustomValidator :=
  if a.kitVersion ≠ ImageLint.kitVersion then .error (.otherVersion path a.kitVersion)
  else
    match a.construct with
    | .ok c => .ok { entryPoint := a.entryPoint, name := c.name, checks := c.checks }
    | .error p => .error (.construction a.entryPoint p.message)

/-- Opens the artifact at a path. -/
abbrev Opener : Type := Host.NormalPath → Except LoadError Artifact

end ImageLint
