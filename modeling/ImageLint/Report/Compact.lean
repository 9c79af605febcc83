import ImageLint.Report.Totals

/-!
# The compact report

For tools that read lines: one line for each finding.
-/

namespace ImageLint.Report.Compact

/-- The line of a finding. A finding without a place is taken to be at the start of its file. -/
def line (file : String) (d : Diagnostic) : List Char :=
  (d.file.getD file ++ ":" ++ toString (d.line.getD 1) ++ ":" ++ toString (d.column.getD 1) ++ ": " ++
    d.label ++ ": " ++ d.message).toList ++ ['\n']

/-- What a report has to say, in order: its findings and then the deployments of directories. -/
def findings (r : Report) : List Diagnostic :=
  r.diagnostics ++ r.directoryDeployments.map DirectoryDeployment.warning

/-- The lines of a report. -/
def report (r : Report) : List Char := (findings r).flatMap (line r.fileName)

/-- The reports as a text. -/
def render (rs : List Report) : String := String.ofList (rs.flatMap report)

end ImageLint.Report.Compact
