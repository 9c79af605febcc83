import ImageLint.Host.FileSystem
import ImageLint.Report.Format

/-!
# Configuration files

A configuration file sets defaults for a run. How its text is understood is left to a decoder. The
path of a custom validator is seen from the directory of the file.
-/

namespace ImageLint

/-- What a configuration file sets. -/
structure Config where
  customValidator : Option String := none
  strictVariables : Option Bool := none
  failOnWarning : Option Bool := none
  format : Option Report.Format := none
  /-- Values of variables, in the order of the file. -/
  bindings : List (String × String) := []
  deriving DecidableEq, Repr

/-- How the text of a configuration file is understood, if it is. -/
abbrev Config.Decoder : Type := String → Option Config

/-- Why a configuration file cannot be used. -/
inductive ConfigError where
  | unreadable (path : String) (e : Host.PathError)
  | malformed (path : String)
  deriving DecidableEq, Repr

/-- The error in words. What is malformed is not told. -/
def ConfigError.message : ConfigError → String
  | .unreadable path e => "Failed to load config from " ++ path ++ ": " ++ e.message
  | .malformed path => "Failed to load config from " ++ path ++ ":"

namespace Config

/-- A configuration as it is seen from the working directory, if its file is at a path. -/
def relativeTo (path : String) (c : Config) : Config :=
  match Host.parent? path with
  | none => c
  | some directory => { c with customValidator := c.customValidator.map (Host.join directory) }

/-- The configuration in a file. -/
def ofFile (decode : Decoder) (fs : Host.FileSystem) (path : String) : Except ConfigError Config :=
  match fs.readText path with
  | .error e => .error (.unreadable path e)
  | .ok s =>
    match decode s with
    | none => .error (.malformed path)
    | some c => .ok (c.relativeTo path)

/-- The files that are looked for if none is named, in order. -/
def defaultPaths : List String := ["./.buildfilelint.yml", "./.buildfilelint.yaml"]

/-- The configuration in the named file, or else in the first default one that exists. -/
def load (decode : Decoder) (fs : Host.FileSystem) (path : Option String) :
    Except ConfigError (Option Config) :=
  match path with
  | some path => some <$> ofFile decode fs path
  | none =>
    match defaultPaths.find? fs.isFile with
    | some path => some <$> ofFile decode fs path
    | none => .ok none

end Config

end ImageLint
