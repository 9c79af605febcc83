import ImageLint.Command.Settings
import ImageLint.Document.Decoder
import ImageLint.Host.Change
import ImageLint.Validator.Opener

/-!
# A lint run

The documents are loaded and analysed in order, with one engine and with the custom validator of the
settings. The first thing that goes wrong ends the run, and then nothing is reported: neither
printed nor written to the report file.
-/

namespace ImageLint.Command

open Host

/-- Why a document cannot be used. -/
inductive DocumentError where
  | unreadable (e : PathError)
  | malformed (e : Json.ReadError)
  deriving DecidableEq, Repr

/-- Why a lint run ends without a report. -/
inductive LintError where
  | config (e : ConfigError)
  | document (path : String) (e : DocumentError)
  | validatorNotFound (path : String)
  /-- The report cannot be written. -/
  | report (e : PathError)
  deriving DecidableEq, Repr

/-- The error in words. What is malformed in a document is not told. -/
def LintError.message : LintError → String
  | .config e => e.message
  | .document path (.unreadable e) => "Failed to load document " ++ path ++ ": " ++ e.message
  | .document path (.malformed _) => "Failed to load document " ++ path ++ ":"
  | .validatorNotFound path => "Custom validator " ++ path ++ " not found"
  | .report e => "IO error: " ++ e.message

/-- What a lint run finds. -/
structure Outcome where
  reports : List Report
  failed : Bool
  deriving DecidableEq, Repr

/-- Loads a document. One without the name of a file is named after its path. -/
def loadDocument (fs : FileSystem) (path : String) : Except LintError Document :=
  match fs.readText path with
  | .error e => .error (.document path (.unreadable e))
  | .ok text =>
    match Document.parse text with
    | .error e => .error (.document path (.malformed e))
    | .ok d => .ok { d with file := some (d.file.getD path) }

/-- Loads and analyses documents one after another. -/
def analyzeAll (site : Site) (provided : Option String) (options : AnalysisOptions) (e : Engine) :
    List String → Except LintError (List Report × List Log.Line)
  | [] => .ok ([], [])
  | path :: rest => do
    let d ← loadDocument site.files path
    let a := e.analyze .builtIn site provided options d
    let (reports, log) ← analyzeAll site provided options a.engine rest
    pure (a.report :: reports, a.log ++ log)

/-- Refuses a custom validator that does not exist. -/
def checkValidator (fs : FileSystem) (validator : Option String) : Except LintError Unit :=
  match validator with
  | none => .ok ()
  | some path => if fs.isPresent path then .ok () else .error (.validatorNotFound path)

/-- Analyses the documents at the given paths. -/
def lintAt (site : Site) (paths : List String) (s : Settings) :
    Except LintError (Outcome × List Log.Line) := do
  checkValidator site.files s.customValidator
  let (reports, log) ← analyzeAll site s.customValidator s.analysisOptions .fresh paths
  pure ({ reports, failed := reports.any (·.isFailure s.failOnWarning) }, log)

/-- Analyses the documents at the given paths. Libraries count as validators, and scripts do not. -/
def lintFiles (fs : FileSystem) (paths : List String) (s : Settings) :
    Except LintError (Outcome × List Log.Line) :=
  lintAt { files := fs, opener := .native fs } paths s

/-- What a lint run leaves behind. -/
structure LintRun where
  /-- The host, with the report file if one was written. -/
  files : FileSystem
  /-- What is printed. -/
  output : String
  /-- What the run says about itself. -/
  notes : List String
  log : List Log.Line
  result : Except LintError Outcome

/-- The note on the custom validator, which is made once the validator is known to exist. -/
def validatorNotes (fs : FileSystem) (s : Settings) : List String :=
  match s.customValidator with
  | some path =>
    if fs.isPresent path && !s.quiet then ["Using custom validator: " ++ path] else []
  | none => []

/-- The note on the report file. -/
def reportNotes (s : Settings) (path : String) : List String :=
  if s.quiet then [] else ["Report written to: " ++ path]

/-- Prints the reports, or writes them to the report file without colours. -/
def deliver (fs : FileSystem) (s : Settings) (coloured : Bool) (outcome : Outcome)
    (notes : List String) (log : List Log.Line) : LintRun :=
  match s.reportPath with
  | none =>
    { files := fs, output := s.format.render s.quiet coloured outcome.reports, notes, log
      result := .ok outcome }
  | some path =>
    match fs.writeFile path (.text (s.format.render s.quiet false outcome.reports)) fs.clock with
    | .error e => { files := fs, output := "", notes, log, result := .error (.report e) }
    | .ok files =>
      { files, output := "", notes := notes ++ reportNotes s path, log, result := .ok outcome }

/-- Runs with resolved settings. -/
def lintWith (fs : FileSystem) (a : Arguments) (s : Settings) (coloured : Bool) : LintRun :=
  let notes := validatorNotes fs s
  match lintFiles fs a.files s with
  | .error e => { files := fs, output := "", notes, log := [], result := .error e }
  | .ok (outcome, log) => deliver fs s coloured outcome notes log

/-- A lint run: the configuration is read, with the given decoder, then the documents, and then the
reports are delivered. -/
def lint (decode : Config.Decoder) (fs : FileSystem) (a : Arguments)
    (environment : List (String × String)) (coloured : Bool) : LintRun :=
  match Config.load decode fs a.configPath with
  | .error e => { files := fs, output := "", notes := [], log := [], result := .error (.config e) }
  | .ok config => lintWith fs a (.resolve a config environment) coloured

end ImageLint.Command
