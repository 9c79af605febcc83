import ImageLint.Analysis

/-!
# Counting the findings of several reports
-/

namespace ImageLint.Report

/-- How many errors and warnings there are. -/
structure Totals where
  errors : Nat
  warnings : Nat
  deriving DecidableEq, Repr

/-- What a report adds to the totals. -/
def Totals.add (t : Totals) (r : Report) : Totals :=
  ⟨t.errors + r.errorCount, t.warnings + r.warningCount⟩

/-- The errors and warnings of all reports. -/
def totals (rs : List Report) : Totals := rs.foldl Totals.add ⟨0, 0⟩

/-- The counts in words. -/
def Totals.text (t : Totals) : String :=
  toString t.errors ++ " error(s), " ++ toString t.warnings ++ " warning(s)"

/-- The counts of one report. -/
def counts (r : Report) : Totals := ⟨r.errorCount, r.warningCount⟩

/-- The name of the file of a report, as far as it has one. -/
def fileName (r : Report) : String := r.file.getD "<unknown>"

end ImageLint.Report
