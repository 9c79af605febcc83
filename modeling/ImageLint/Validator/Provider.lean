import ImageLint.Text.Blank

/-!
# Where the path of the custom validator comes from

The path is asked for anew before each pass, so the answer may change.
-/

namespace ImageLint

/-- A source of the path of the custom validator. -/
inductive Provider where
  | nowhere
  | fixed (path : String)
  /-- The variable of the environment that may name a custom validator. -/
  | environment
  deriving DecidableEq, Repr

/-- The path of the custom validator, given the value of the variable. A blank value counts as none,
and any other is taken as it is. -/
def Provider.path? (variableValue : Option String) : Provider → Option String
  | .nowhere => none
  | .fixed path => some path
  | .environment => variableValue.filter fun s => !Text.isBlankText s

end ImageLint
