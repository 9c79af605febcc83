/-!
# Diagnostics

A diagnostic is one finding: how grave it is, what it says and, as far as known, its code, its
place and what may help. `Diagnostic.display` is its one line text.
-/

namespace ImageLint

/-- A place in a build file, counted from one. -/
structure Location where
  line : UInt64
  column : UInt64
  deriving DecidableEq, Repr

/-- How grave a finding is. -/
inductive Severity where
  | warning
  | error
  deriving DecidableEq, Repr

/-- The word for a severity. -/
def Severity.name : Severity → String
  | .warning => "warning"
  | .error => "error"

/-- One finding. -/
structure Diagnostic where
  level : Severity
  message : String
  /-- A stable identifier of the rule behind the finding. -/
  code : Option String := none
  file : Option String := none
  line : Option UInt64 := none
  column : Option UInt64 := none
  context : Option String := none
  suggestion : Option String := none
  deriving DecidableEq, Repr

namespace Diagnostic

def error (message : String) : Diagnostic := { level := .error, message }

def warning (message : String) : Diagnostic := { level := .warning, message }

def isError (d : Diagnostic) : Bool := d.level = .error

def isWarning (d : Diagnostic) : Bool := d.level = .warning

def hasCode (d : Diagnostic) (code : String) : Bool := d.code = some code

/-- Takes line and column from a location, if there is one. -/
def atLocation (d : Diagnostic) : Option Location → Diagnostic
  | some l => { d with line := some l.line, column := some l.column }
  | none => d

/-- Attributes the finding to a file, if one is given. -/
def inFile (d : Diagnostic) : Option String → Diagnostic
  | some f => { d with file := some f }
  | none => d

/-- Attributes the finding to a file, if one is given and the finding names none. -/
def fillFile (d : Diagnostic) (file : Option String) : Diagnostic :=
  if d.file.isNone then { d with file := file } else d

/-- Gives a finding without a line the place of a location, if there is one. -/
def fillLocation (d : Diagnostic) (location : Option Location) : Diagnostic :=
  if d.line.isNone then d.atLocation location else d

/-- The severity with the code in brackets. -/
def label (d : Diagnostic) : String :=
  match d.code with
  | some code => d.level.name ++ "[" ++ code ++ "]"
  | none => d.level.name

/-- Where the finding is, as far as it says so. A column counts only with a line. -/
def place (d : Diagnostic) : String :=
  match d.file, d.line, d.column with
  | some file, some line, some column => s!" at {file}:{line}:{column}"
  | some file, some line, none => s!" at {file}:{line}"
  | some file, none, _ => s!" at {file}"
  | none, some line, some column => s!" at {line}:{column}"
  | none, some line, none => s!" at line {line}"
  | none, none, _ => ""

/-- The finding in one line. -/
def display (d : Diagnostic) : String := d.label ++ d.place ++ ": " ++ d.message

@[simp] theorem atLocation_none (d : Diagnostic) : d.atLocation none = d := rfl

@[simp] theorem inFile_none (d : Diagnostic) : d.inFile none = d := rfl

@[simp] theorem fillFile_none (d : Diagnostic) : d.fillFile none = d := by
  unfold fillFile
  split
  · next h => cases d; simp_all
  · rfl

end Diagnostic

end ImageLint
