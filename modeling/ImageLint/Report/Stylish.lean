import ImageLint.Report.Totals
import ImageLint.Text.Styled

/-!
# The stylish report

For people: the findings of each file under its name, with counts and a summary. A quiet report has
the findings alone.
-/

namespace ImageLint.Report.Stylish

open Text

/-- A line of spans. -/
def line (spans : List Span) : List Span := spans ++ [.ofString "\n"]

/-- The colour of a severity. -/
def severityColour : Severity → Colour
  | .error => .red
  | .warning => .yellow

/-- Where a finding is in its file. A column counts only with a line. -/
def position (d : Diagnostic) : String :=
  match d.line, d.column with
  | some line, some column => toString line ++ ":" ++ toString column
  | some line, none => toString line
  | none, _ => ""

/-- A line with something that belongs to a finding. -/
def detail (style : Style) (text : String) : List Span :=
  line [.ofString "      ", .ofStyled style text]

/-- The lines of a finding. -/
def finding (d : Diagnostic) : List Span :=
  line [.ofString "  ", .ofStyled (.weight .dimmed) (position d), .ofString " ",
      .ofStyled (.both .bold (severityColour d.level)) d.label, .ofString " ",
      .ofString d.message] ++
    (match d.context with
      | some context => detail (.weight .dimmed) context
      | none => []) ++
    (match d.suggestion with
      | some suggestion => detail (.colour .cyan) suggestion
      | none => [])

/-- What stands in the place of suggestions if there are none. -/
def noSuggestion : String := "(source directory not found or empty on this host)"

/-- The lines with what to write instead of the deployment of a directory. -/
def suggestions : Option (List String) → List Span
  | some (l :: ls) =>
    line [.ofString "      Suggestion: replace with individual file deployments:"] ++
      (l :: ls).flatMap fun l => line [.ofString "        ", .ofStyled (.colour .green) l]
  | _ => detail (.weight .dimmed) noSuggestion

/-- The lines of the deployment of a directory. -/
def directoryDeployment (d : DirectoryDeployment) : List Span :=
  finding d.warning ++ suggestions d.suggestions

/-- The lines of the findings of a report. -/
def findings (r : Report) : List Span :=
  r.diagnostics.flatMap finding ++ r.directoryDeployments.flatMap directoryDeployment

/-- The line above the findings of a report. -/
def header (r : Report) : List Span :=
  line [.ofStyled (.weight .bold) ("* " ++ r.fileName ++ " *")]

/-- The line below the findings of a report. -/
def footer (r : Report) : List Span := line [.ofString "  ", .ofString r.counts.text]

/-- The lines of a report. -/
def report (quiet : Bool) (r : Report) : List Span :=
  if quiet then findings r else header r ++ findings r ++ footer r

/-- The style of the summary: the graver the findings the louder. -/
def summaryStyle (t : Totals) : Style :=
  if t.errors > 0 then .both .bold .red
  else if t.warnings > 0 then .both .bold .yellow
  else .colour .green

/-- The lines below all reports. -/
def summary (rs : List Report) : List Span :=
  let t := totals rs
  line [.ofString "\n", .ofStyled (summaryStyle t) ("Summary: " ++ t.text)]

/-- The reports in spans. -/
def spans (quiet : Bool) (rs : List Report) : List Span :=
  rs.flatMap (report quiet) ++ if quiet then [] else summary rs

/-- The reports as a text. -/
def render (quiet coloured : Bool) (rs : List Report) : String :=
  String.ofList (renderSpans coloured (spans quiet rs))

end ImageLint.Report.Stylish
