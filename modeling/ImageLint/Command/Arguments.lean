import ImageLint.Report.Format
import ImageLint.Text.Blank
import ImageLint.Text.Pieces

/-!
# Arguments of a lint run

Files and options, in any order. An option has a long name, most have a short one, and some take a
value: in the same argument, after an equals sign if there is one, or in the next argument. Several
short names may share an argument. Two dashes end the options.

A value that stands in an argument of its own, and files, are looked at when the next option or the
end is met; so an unknown option is reported before what is wrong with the value in front of it.
-/

namespace ImageLint.Command

/-- The arguments of a lint run. -/
structure Arguments where
  files : List String := []
  customValidator : Option String := none
  failOnWarning : Bool := false
  strictVariables : Bool := false
  /-- The values of variables, in order. -/
  bindings : List (String × String) := []
  format : Option Report.Format := none
  configPath : Option String := none
  reportPath : Option String := none
  quiet : Bool := false
  deriving DecidableEq, Repr

/-- Why arguments cannot be used, or that they ask for help. -/
inductive UsageError where
  | noFiles
  | unknownOption
  /-- An option that may be given once is given twice. -/
  | repeatedOption
  | invalidValue
  | invalidVariable
  /-- An option that takes no value has one. -/
  | unwantedValue
  | help
  deriving DecidableEq, Repr

/-- An option without a value. -/
inductive Flag where
  | failOnWarning
  | strictVariables
  | quiet
  | help
  deriving DecidableEq, Repr

/-- An option with a value. -/
inductive Parameter where
  | customValidator
  | binding
  | format
  | config
  | report
  deriving DecidableEq, Repr

/-- An option. -/
inductive CommandOption where
  | flag (f : Flag)
  | parameter (p : Parameter)
  deriving DecidableEq, Repr

/-- The options by their long names. -/
def longNames : List (String × CommandOption) :=
  [("custom-validator", .parameter .customValidator), ("fail-on-warning", .flag .failOnWarning),
    ("strict-vars", .flag .strictVariables), ("env", .parameter .binding),
    ("format", .parameter .format), ("config", .parameter .config),
    ("report", .parameter .report), ("quiet", .flag .quiet), ("help", .flag .help)]

/-- The options by their short names. -/
def shortNames : List (Char × CommandOption) :=
  [('c', .parameter .customValidator), ('W', .flag .failOnWarning), ('e', .parameter .binding),
    ('r', .parameter .report), ('q', .flag .quiet), ('h', .flag .help)]

/-! ## Values -/

/-- Cuts a text at the first equals sign. -/
def splitAtEquals : List Char → Option (List Char × List Char)
  | [] => none
  | '=' :: cs => some ([], cs)
  | c :: cs => (splitAtEquals cs).map fun (a, b) => (c :: a, b)

/-- A variable with its value. The name is trimmed and must not be blank. -/
def parseVariable (piece : String) : Option (String × String) :=
  match splitAtEquals piece.toList with
  | none => none
  | some (name, value) =>
    if name.all Text.isBlank then none
    else some (Text.trim (String.ofList name), String.ofList value)

/-- The variables in a value, separated by commas. -/
def parseVariables (value : String) : Option (List (String × String)) :=
  (Text.split ',' value).mapM parseVariable

/-- A path that may be given once. -/
def setPath (old : Option String) (value : String) : Except UsageError (Option String) :=
  if old.isSome then .error .repeatedOption
  else if value = "" then .error .invalidValue
  else .ok (some value)

/-- A flag that may be given once. -/
def setFlag (old : Bool) : Except UsageError Bool :=
  if old then .error .repeatedOption else .ok true

namespace Arguments

/-- Takes a flag. -/
def addFlag (a : Arguments) : Flag → Except UsageError Arguments
  | .failOnWarning => do pure { a with failOnWarning := ← setFlag a.failOnWarning }
  | .strictVariables => do pure { a with strictVariables := ← setFlag a.strictVariables }
  | .quiet => do pure { a with quiet := ← setFlag a.quiet }
  | .help => .error .help

/-- Takes an option with its value. -/
def addValue (a : Arguments) (p : Parameter) (value : String) : Except UsageError Arguments :=
  match p with
  | .customValidator => do pure { a with customValidator := ← setPath a.customValidator value }
  | .config => do pure { a with configPath := ← setPath a.configPath value }
  | .report => do pure { a with reportPath := ← setPath a.reportPath value }
  | .format =>
    if a.format.isSome then .error .repeatedOption
    else
      match Report.Format.ofName? value with
      | some f => .ok { a with format := some f }
      | none => .error .invalidValue
  | .binding =>
    match parseVariables value with
    | some bs => .ok { a with bindings := a.bindings ++ bs }
    | none => .error .invalidVariable

/-- Takes files. -/
def addFiles (a : Arguments) (files : List String) : Except UsageError Arguments :=
  if files.contains "" then .error .invalidValue else .ok { a with files := a.files ++ files }

end Arguments

/-! ## Reading -/

/-- What has been read and is still to be looked at. -/
inductive Pending where
  | nothing
  | files (paths : List String)
  /-- An option with its value, if that has been read. -/
  | parameter (p : Parameter) (value : Option String)
  deriving DecidableEq, Repr

/-- The arguments that have been looked at, and those that are still to be. -/
structure Reading where
  arguments : Arguments := {}
  pending : Pending := .nothing
  deriving DecidableEq, Repr

namespace Reading

/-- Looks at what is pending. An option without its value is refused. -/
def settle (r : Reading) : Except UsageError Arguments :=
  match r.pending with
  | .nothing => .ok r.arguments
  | .files paths => r.arguments.addFiles paths
  | .parameter _ none => .error .invalidValue
  | .parameter p (some value) => r.arguments.addValue p value

/-- Reads a file. -/
def file (r : Reading) (path : String) : Except UsageError Reading :=
  match r.pending with
  | .files paths => .ok { r with pending := .files (paths ++ [path]) }
  | _ => do
    let arguments ← r.settle
    pure { arguments, pending := .files [path] }

/-- Reads a flag. -/
def flag (r : Reading) (f : Flag) : Except UsageError Reading := do
  let arguments ← r.settle
  pure { arguments := ← arguments.addFlag f }

/-- Reads an option, with its value if that is in the same argument. -/
def parameter (r : Reading) (p : Parameter) (value : Option String) :
    Except UsageError Reading := do
  let arguments ← r.settle
  match value with
  | some v => pure { arguments := ← arguments.addValue p v }
  | none => pure { arguments, pending := .parameter p none }

/-- Reads an argument with a long name, from after the dashes. -/
def long (r : Reading) (cs : List Char) : Except UsageError Reading :=
  let (name, value) :=
    match splitAtEquals cs with
    | some (name, value) => (name, some (String.ofList value))
    | none => (cs, none)
  match longNames.lookup (String.ofList name), value with
  | none, _ => .error .unknownOption
  | some (.parameter p), value => r.parameter p value
  | some (.flag f), none => r.flag f
  | some (.flag _), some _ => .error .unwantedValue

/-- The value after a short name in the same argument. -/
def attachedValue : List Char → Option String
  | [] => none
  | '=' :: cs => some (String.ofList cs)
  | cs => some (String.ofList cs)

/-- Reads an argument with short names, from after the dash. -/
def short (r : Reading) : List Char → Except UsageError Reading
  | [] => .ok r
  | c :: cs =>
    match shortNames.lookup c with
    | none => .error .unknownOption
    | some (.parameter p) => r.parameter p (attachedValue cs)
    | some (.flag f) => do
      let r ← r.flag f
      r.short cs

/-- Reads an argument that is no option: the value of the option in front of it, or a file. -/
def plain (r : Reading) (argument : String) : Except UsageError Reading :=
  match r.pending with
  | .parameter p none => .ok { r with pending := .parameter p (some argument) }
  | _ => r.file argument

/-- Reads an argument in front of two dashes. -/
def argument (r : Reading) (argument : String) : Except UsageError Reading :=
  match argument.toList with
  | '-' :: '-' :: cs => r.long cs
  | '-' :: c :: cs => r.short (c :: cs)
  | _ => r.plain argument

/-- Reads arguments. After two dashes all of them are files. -/
def all (r : Reading) : List String → Except UsageError Reading
  | [] => .ok r
  | a :: rest =>
    if a = "--" then rest.foldlM file r
    else do
      let r ← r.argument a
      r.all rest

end Reading

/-- Reads the arguments of a lint run. There must be a file. -/
def Arguments.parse (arguments : List String) : Except UsageError Arguments := do
  let r ← Reading.all {} arguments
  let a ← r.settle
  if a.files.isEmpty then .error .noFiles else pure a

end ImageLint.Command
