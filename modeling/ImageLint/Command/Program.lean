import ImageLint.Command.Lint

/-!
# The program

What the program does with its arguments and its environment, up to the exit code. There is one
command, `lint`.
-/

namespace ImageLint.Command

open Host

/-- What the program leaves behind. -/
structure ProgramRun where
  files : FileSystem
  /-- The path of the report file, if one was written. -/
  reportPath : Option String
  output : String
  notes : List String
  log : List Log.Line
  exitCode : UInt8

/-- The variables in the block of an environment, which ends each of them with a zero. -/
def parseEnvironment (block : String) : List (String × String) :=
  (Text.split '\x00' block).filterMap fun piece =>
    (splitAtEquals piece.toList).map fun (name, value) =>
      (String.ofList name, String.ofList value)

/-- What is said about the use of the program. -/
def usage : String := "usage: lint [options] files...\n"

/-- Whether the environment asks for colours even where the output is no terminal. -/
def forcesColour (environment : List (String × String)) : Bool :=
  match (Bindings.empty.insertAll environment).value "CLICOLOR_FORCE" with
  | some value => value ≠ "0"
  | none => false

/-- The exit code of a lint run. Findings that make it fail count like errors. -/
def LintRun.exitCode (r : LintRun) : UInt8 :=
  match r.result with
  | .ok outcome => if outcome.failed then 1 else 0
  | .error _ => 1

/-- The lines of the log of a lint run, with the error that ended it. -/
def LintRun.fullLog (r : LintRun) : List Log.Line :=
  match r.result with
  | .ok _ => r.log
  | .error e => r.log ++ [Log.error e.message]

/-- Runs the program. Without a usable command it only tells how it is used. -/
def run (decode : Config.Decoder) (fs : FileSystem) (environment : List (String × String))
    (arguments : List String) : ProgramRun :=
  let unusable : ProgramRun :=
    { files := fs, reportPath := none, output := usage, notes := [], log := [], exitCode := 1 }
  match arguments with
  | "lint" :: rest =>
    match Arguments.parse rest with
    | .error _ => unusable
    | .ok a =>
      let r := lint decode fs a environment (forcesColour environment)
      { files := r.files
        reportPath := if r.result.isOk then a.reportPath else none
        output := r.output
        notes := r.notes
        log := r.fullLog
        exitCode := r.exitCode }
  | _ => unusable

end ImageLint.Command
