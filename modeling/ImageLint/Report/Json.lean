import ImageLint.Document.Encoder
import ImageLint.Report.Totals

/-!
# The JSON report

For programs: everything that was found, with the counts of each report and the totals.
-/

namespace ImageLint

def DirectoryDeployment.toJson (d : DirectoryDeployment) : Json :=
  .object [("target_path", .string d.targetPath), ("source_path", .string d.sourcePath),
    ("location", Location.optionalJson d.location), ("warning", d.warning.toJson),
    ("suggestions", Json.option Json.strings d.suggestions)]

namespace Report

/-- The findings of a report as a value. -/
def diagnosticsJson (r : Report) : Json := .array (r.diagnostics.map Diagnostic.toJson)

/-- The deployments of directories of a report as a value. -/
def directoriesJson (r : Report) : Json :=
  .array (r.directoryDeployments.map DirectoryDeployment.toJson)

/-- A report with its counts. -/
def toJson (r : Report) : Json :=
  .object [("file", Json.option .string r.file), ("errors", .nat r.errorCount),
    ("warnings", .nat r.warningCount), ("diagnostics", r.diagnosticsJson),
    ("directory_deployments", r.directoriesJson)]

def Totals.toJson (t : Totals) : Json :=
  .object [("errors", .nat t.errors), ("warnings", .nat t.warnings)]

/-- Reports with the totals. -/
def listJson (rs : List Report) : Json :=
  .object [("files", .array (rs.map toJson)), ("summary", (totals rs).toJson)]

/-- The reports as a text. -/
def renderJson (rs : List Report) : String := (listJson rs).indentedText ++ "\n"

end Report

end ImageLint
