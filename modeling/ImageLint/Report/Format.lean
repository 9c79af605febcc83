import ImageLint.Report.Compact
import ImageLint.Report.Json
import ImageLint.Report.Stylish

/-!
# The formats of reports
-/

namespace ImageLint.Report

/-- A format of reports. -/
inductive Format where
  | stylish
  | compact
  | json
  deriving DecidableEq, Repr

namespace Format

/-- Every format, in the order of the declaration. -/
def all : List Format := [.stylish, .compact, .json]

def name : Format → String
  | .stylish => "stylish"
  | .compact => "compact"
  | .json => "json"

/-- The format with the given name, in exactly that spelling. -/
def ofName? (s : String) : Option Format := all.find? (·.name = s)

/-- Every format is found under its own name. -/
theorem ofName?_name (f : Format) : ofName? f.name = some f := by cases f <;> decide

/-- Reports as a text. Only the stylish format knows colours and can be quiet. -/
def render (f : Format) (quiet coloured : Bool) (rs : List Report) : String :=
  match f with
  | .stylish => Stylish.render quiet coloured rs
  | .compact => Compact.render rs
  | .json => renderJson rs

end Format

end ImageLint.Report
