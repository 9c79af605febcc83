/-!
# The log

What a run has to say beside its findings: that a custom validator was loaded or released, and why
one was left out.
-/

namespace ImageLint.Log

/-- How grave a line of the log is. -/
inductive Level where
  | info
  | warning
  | error
  deriving DecidableEq, Repr

/-- The word for a level. -/
def Level.name : Level → String
  | .info => "info"
  | .warning => "warning"
  | .error => "error"

/-- A line of the log. -/
structure Line where
  level : Level
  message : String
  deriving DecidableEq, Repr

def info (message : String) : Line := ⟨.info, message⟩

def warning (message : String) : Line := ⟨.warning, message⟩

def error (message : String) : Line := ⟨.error, message⟩

end ImageLint.Log
