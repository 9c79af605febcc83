import ImageLint.Proofs.Report.Tally
import ImageLint.Proofs.Text.Colours
import ImageLint.Proofs.Text.Lines
import ImageLint.Report.Compact
import ImageLint.Report.Stylish

/-!
# The lines of the reports

What the two formats for readers of lines write, as lists of lines.

* `Stylish.hasLines_render`: below the lines about a file stands one with its counts, and below all
  files an empty line and the summary. Whatever a message holds, these lines are there.
* `Stylish.summaryLine_injective`: the summary tells the counts, with colours and without.
* `Compact.hasLines_render`: one line for each finding, as long as what is written has no line ends.
-/

namespace ImageLint

open Text

namespace Report

/-! ## Counts in words -/

namespace Totals

/-- The words for some counts. -/
def words (t : Totals) : String :=
  toString t.errors ++ " error(s), " ++ toString t.warnings ++ " warning(s)"

/-- The reports use these words. -/
theorem text_eq_words (t : Totals) : t.text = t.words := rfl

theorem toList_words (t : Totals) :
    t.words.toList = (toString t.errors).toList ++ (' ' :: "error(s), ".toList ++
      ((toString t.warnings).toList ++ ' ' :: "warning(s)".toList)) := by
  unfold words
  simp only [String.toList_append, List.append_assoc]
  rfl

theorem not_mem_words {c : Char} (hdigit : c.isDigit = false)
    (herror : c ∉ ' ' :: "error(s), ".toList) (hwarning : c ∉ ' ' :: "warning(s)".toList)
    (t : Totals) : c ∉ t.words.toList := by
  have herrors := not_mem_toString hdigit t.errors
  have hwarnings := not_mem_toString hdigit t.warnings
  rw [toList_words, List.mem_append, List.mem_append, List.mem_append]
  rintro (h | h | h | h)
  · exact herrors h
  · exact herror h
  · exact hwarnings h
  · exact hwarning h

theorem words_injective {t u : Totals} (h : t.words = u.words) : t = u := by
  have hlists := congrArg String.toList h
  rw [toList_words, toList_words, List.cons_append, List.cons_append] at hlists
  have hdigits := @not_mem_toString ' ' (by decide)
  obtain ⟨herrors, hrest⟩ := append_sep_inj (hdigits _) (hdigits _) hlists
  obtain ⟨hwarnings, -⟩ :=
    append_sep_inj (hdigits _) (hdigits _) (List.append_cancel_left hrest)
  obtain ⟨e, w⟩ := t
  obtain ⟨e', w'⟩ := u
  obtain rfl : e = e' := eq_of_toList_toString herrors
  obtain rfl : w = w' := eq_of_toList_toString hwarnings
  rfl

end Totals

/-! ## The stylish report -/

namespace Stylish

/-- The spans are written as whole lines. -/
def Ended (coloured : Bool) (spans : List Span) : Prop :=
  ∃ ls, HasLines (String.ofList (renderSpans coloured spans)) ls

namespace Ended

variable {coloured : Bool}

theorem nil : Ended coloured [] := ⟨[], HasLines.nil⟩

theorem line (spans : List Span) : Ended coloured (line spans) := by
  have h := HasLines.exists_of_ended (renderSpans coloured spans)
  unfold Ended Stylish.line
  rw [renderSpans_append]
  exact h

theorem append {a b : List Span} (ha : Ended coloured a) (hb : Ended coloured b) :
    Ended coloured (a ++ b) := by
  obtain ⟨xs, hxs⟩ := ha
  obtain ⟨ys, hys⟩ := hb
  refine ⟨xs ++ ys, ?_⟩
  rw [renderSpans_append]
  exact hxs.append hys

theorem flatMap {α : Type} {write : α → List Span} (h : ∀ a, Ended coloured (write a))
    (as : List α) : Ended coloured (as.flatMap write) := by
  induction as with
  | nil => exact nil
  | cons a as ih =>
    rw [List.flatMap_cons]
    exact (h a).append ih

end Ended

variable (coloured : Bool)

theorem ended_finding (d : Diagnostic) : Ended coloured (finding d) := by
  obtain ⟨level, message, code, file, l, column, context, suggestion⟩ := d
  refine Ended.append (Ended.append (Ended.line _) ?_) ?_
  · cases context with
    | none => exact Ended.nil
    | some context => exact Ended.line _
  · cases suggestion with
    | none => exact Ended.nil
    | some suggestion => exact Ended.line _

theorem ended_suggestions (s : Option (List String)) : Ended coloured (suggestions s) := by
  rcases s with _ | _ | ⟨l, ls⟩
  · exact Ended.line _
  · exact Ended.line _
  · exact (Ended.line _).append (Ended.flatMap (fun _ => Ended.line _) (l :: ls))

theorem ended_findings (r : Report) : Ended coloured (findings r) := by
  have hdirectory (d : DirectoryDeployment) : Ended coloured (directoryDeployment d) :=
    (ended_finding coloured d.warning).append (ended_suggestions coloured d.suggestions)
  exact (Ended.flatMap (ended_finding coloured) r.diagnostics).append
    (Ended.flatMap hdirectory r.directoryDeployments)

theorem ended_body (r : Report) : Ended coloured (header r ++ findings r) :=
  (Ended.line _).append (ended_findings coloured r)

/-- The line with the counts of a file. -/
def countLine (t : Totals) : String := "  " ++ t.words

/-- The words of the summary. -/
def summaryWords (t : Totals) : String := "Summary: " ++ t.words

/-- The line with the counts of all files. -/
def summaryLine (t : Totals) : String :=
  if coloured then
    String.ofList (escapeSequence (summaryStyle t).codes) ++ summaryWords t ++ String.ofList reset
  else summaryWords t

theorem not_mem_summaryWords {c : Char} (hdigit : c.isDigit = false)
    (herror : c ∉ ' ' :: "error(s), ".toList) (hwarning : c ∉ ' ' :: "warning(s)".toList)
    (hsummary : c ∉ "Summary: ".toList) (t : Totals) : c ∉ (summaryWords t).toList := by
  unfold summaryWords
  rw [String.toList_append, List.mem_append]
  rintro (h | h)
  · exact hsummary h
  · exact t.not_mem_words hdigit herror hwarning h

/-- The summary as it is written. The words hold no escape sequence that could be set again. -/
theorem toList_summaryLine (t : Totals) :
    (summaryLine coloured t).toList =
      (Span.ofStyled (summaryStyle t) (summaryWords t)).render coloured := by
  unfold summaryLine
  cases coloured with
  | false => rfl
  | true =>
    have hescape : escapeChar ∉ (summaryWords t).toList :=
      not_mem_summaryWords (by decide) (by decide) (by decide) (by decide) t
    simp [Span.ofStyled, Span.render, Style.paint, restyle_of_not_mem hescape]

theorem newline_not_mem_summaryLine (t : Totals) : '\n' ∉ (summaryLine coloured t).toList := by
  have hwords : '\n' ∉ (summaryWords t).toList :=
    not_mem_summaryWords (by decide) (by decide) (by decide) (by decide) t
  have hopening : '\n' ∉ escapeSequence (summaryStyle t).codes := by
    unfold summaryStyle
    split
    · decide
    · split <;> decide
  have hreset : '\n' ∉ reset := by decide
  unfold summaryLine
  split
  · simp only [String.toList_append, String.toList_ofList, List.mem_append]
    rintro ((h | h) | h)
    · exact hopening h
    · exact hwords h
    · exact hreset h
  · exact hwords

/-- Different counts are summed up differently. -/
theorem summaryLine_injective {t u : Totals} (h : summaryLine coloured t = summaryLine coloured u) :
    t = u := by
  -- the codes of the style end with the first `m`, and what follows is the words
  have hm (t : Totals) : 'm' ∉ escapeChar :: '[' :: (summaryStyle t).codes := by
    unfold summaryStyle
    split
    · decide
    · split <;> decide
  have hwords : summaryWords t = summaryWords u := by
    unfold summaryLine at h
    cases coloured with
    | false => exact h
    | true =>
      have hlists := congrArg String.toList h
      simp only [if_true, String.toList_append, String.toList_ofList, escapeSequence,
        List.append_assoc, List.cons_append, List.nil_append] at hlists
      obtain ⟨-, hrest⟩ := append_sep_inj (hm t) (hm u) hlists
      exact String.toList_inj.mp (List.append_cancel_right hrest)
  have htext := congrArg String.toList hwords
  unfold summaryWords at htext
  rw [String.toList_append, String.toList_append] at htext
  exact Totals.words_injective (String.toList_inj.mp (List.append_cancel_left htext))

theorem renderSpans_footer (r : Report) :
    renderSpans coloured (footer r) = (countLine r.counts).toList ++ ['\n'] := by
  unfold countLine
  rw [String.toList_append]
  simp [footer, Stylish.line, renderSpans, Span.render, Span.ofString, Totals.text_eq_words]

theorem renderSpans_summary (rs : List Report) :
    renderSpans coloured (summary rs) =
      '\n' :: ((summaryLine coloured (totals rs)).toList ++ ['\n']) := by
  rw [toList_summaryLine]
  simp [summary, summaryWords, Stylish.line, renderSpans, Span.render, Span.ofString,
    Totals.text_eq_words]

theorem hasLines_footer (r : Report) :
    HasLines (String.ofList (renderSpans coloured (footer r))) [countLine r.counts] := by
  have hline : '\n' ∉ (countLine r.counts).toList := by
    unfold countLine
    rw [String.toList_append, List.mem_append]
    rintro (h | h)
    · exact absurd h (by decide)
    · exact r.counts.not_mem_words (by decide) (by decide) (by decide) h
  have hlines := HasLines.line hline
  rw [String.ofList_toList] at hlines
  rw [renderSpans_footer]
  exact hlines

theorem hasLines_summary (rs : List Report) :
    HasLines (String.ofList (renderSpans coloured (summary rs)))
      ["", summaryLine coloured (totals rs)] := by
  have hempty := HasLines.line (List.not_mem_nil (a := '\n'))
  have hline := HasLines.line (newline_not_mem_summaryLine coloured (totals rs))
  have hlines := hempty.append hline
  rw [String.ofList_toList] at hlines
  rw [renderSpans_summary]
  exact hlines

/-- Below the lines about a file stands one with its counts, and below all files an empty line and
the summary. -/
theorem hasLines_render {above : Report → List String}
    (habove : ∀ r, HasLines (String.ofList (renderSpans coloured (header r ++ findings r)))
      (above r)) (rs : List Report) :
    HasLines (render false coloured rs)
      (rs.flatMap (fun r => above r ++ [countLine r.counts]) ++
        ["", summaryLine coloured (totals rs)]) := by
  have hreport (r : Report) : HasLines (String.ofList (renderSpans coloured (report false r)))
      (above r ++ [countLine r.counts]) := by
    have hlines := (habove r).append (hasLines_footer coloured r)
    rw [← renderSpans_append] at hlines
    exact hlines
  have htext : render false coloured rs =
      String.ofList ((rs.flatMap fun r => renderSpans coloured (report false r)) ++
        renderSpans coloured (summary rs)) := by
    unfold render spans
    rw [renderSpans_append]
    simp [renderSpans, List.flatMap_assoc]
  rw [htext]
  exact (HasLines.flatMap fun r _ => hreport r).append (hasLines_summary coloured rs)

end Stylish

/-! ## The compact report -/

namespace Compact

/-- What the compact report lists: each finding of a report, and after them the warnings about
deployments of directories, each with the name of the file it counts to. -/
def entries (rs : List Report) : List (String × Diagnostic) :=
  rs.flatMap fun r =>
    (r.diagnostics ++ r.directoryDeployments.map (·.warning)).map fun d => (r.fileName, d)

/-- The line of an entry. -/
def entryLine (e : String × Diagnostic) : String :=
  e.2.file.getD e.1 ++ ":" ++ toString (e.2.line.getD 1) ++ ":" ++ toString (e.2.column.getD 1) ++
    ": " ++ e.2.label ++ ": " ++ e.2.message

theorem render_eq (rs : List Report) :
    render rs = String.ofList ((entries rs).flatMap fun e => (entryLine e).toList ++ ['\n']) := by
  have hreport (r : Report) : report r =
      ((r.diagnostics ++ r.directoryDeployments.map (·.warning)).map fun d =>
        (r.fileName, d)).flatMap fun e => (entryLine e).toList ++ ['\n'] := by
    rw [List.flatMap_map]
    rfl
  unfold render entries
  rw [funext hreport, List.flatMap_assoc]

end Compact

end Report

/-- Neither the name of the file nor the code nor the message holds the end of a line. -/
structure Diagnostic.InOneLine (d : Diagnostic) : Prop where
  file : ∀ name ∈ d.file, '\n' ∉ name.toList
  code : ∀ code ∈ d.code, '\n' ∉ code.toList
  message : '\n' ∉ d.message.toList

/-- A label begins with the word for an error if and only if the finding is an error. -/
theorem Diagnostic.label_isPrefixOf (d : Diagnostic) :
    "error".toList.isPrefixOf d.label.toList = d.isError := by
  obtain ⟨level, message, code, file, line, column, context, suggestion⟩ := d
  cases level <;> cases code <;> simp [label, isError, Severity.name, List.isPrefixOf]

theorem Diagnostic.newline_not_mem_label {d : Diagnostic} (h : d.InOneLine) :
    '\n' ∉ d.label.toList := by
  have hname : '\n' ∉ d.level.name.toList := by
    cases d.level <;> decide
  unfold label
  cases hcode : d.code with
  | none => exact hname
  | some code =>
    have hcode := h.code code hcode
    simp only [String.toList_append, List.mem_append]
    rintro (((h | h) | h) | h)
    · exact hname h
    · exact absurd h (by decide)
    · exact hcode h
    · exact absurd h (by decide)

namespace Report.Compact

theorem newline_not_mem_entryLine {e : String × Diagnostic} (hfile : '\n' ∉ e.1.toList)
    (h : e.2.InOneLine) : '\n' ∉ (entryLine e).toList := by
  have hname : '\n' ∉ (e.2.file.getD e.1).toList := by
    cases hf : e.2.file with
    | none => exact hfile
    | some name => exact h.file name hf
  have hline := not_mem_toString (c := '\n') (by decide) (e.2.line.getD 1).toNat
  have hcolumn := not_mem_toString (c := '\n') (by decide) (e.2.column.getD 1).toNat
  have hlabel := Diagnostic.newline_not_mem_label h
  unfold entryLine
  simp only [String.toList_append, List.mem_append]
  rintro ((((((((h' | h') | h') | h') | h') | h') | h') | h') | h')
  · exact hname h'
  · exact absurd h' (by decide)
  · exact hline h'
  · exact absurd h' (by decide)
  · exact hcolumn h'
  · exact absurd h' (by decide)
  · exact hlabel h'
  · exact absurd h' (by decide)
  · exact h.message h'

/-- One line for each entry, if nothing that is written holds the end of a line. -/
theorem hasLines_render {rs : List Report} (hfiles : ∀ r ∈ rs, '\n' ∉ r.fileName.toList)
    (h : ∀ e ∈ entries rs, e.2.InOneLine) : HasLines (render rs) ((entries rs).map entryLine) := by
  have hnames : ∀ e ∈ entries rs, '\n' ∉ e.1.toList := by
    intro e he
    obtain ⟨r, hr, he⟩ := List.mem_flatMap.mp he
    obtain ⟨d, -, rfl⟩ := List.mem_map.mp he
    exact hfiles r hr
  have hlines : ∀ e ∈ entries rs,
      HasLines (String.ofList ((entryLine e).toList ++ ['\n'])) [entryLine e] := by
    intro e he
    have hline := HasLines.line (newline_not_mem_entryLine (hnames e he) (h e he))
    rw [String.ofList_toList] at hline
    exact hline
  rw [render_eq, List.map_eq_flatMap]
  exact HasLines.flatMap hlines

theorem entries_cons (r : Report) (rs : List Report) :
    entries (r :: rs) = entries [r] ++ entries rs := by
  unfold entries
  rw [List.flatMap_cons, List.flatMap_singleton]

theorem length_entries (rs : List Report) :
    (entries rs).length = (tally rs).errors + (tally rs).warnings := by
  induction rs with
  | nil => rfl
  | cons r rs ih =>
    have hlevels : r.diagnostics.length = r.diagnostics.countP (·.level = .error) +
        r.diagnostics.countP (·.level = .warning) := by
      rw [List.length_eq_countP_add_countP fun d => decide (d.level = .error)]
      congr 1
      apply List.countP_congr
      intro d _
      cases d.level <;> decide
    rw [entries_cons, List.length_append, ih, tally_cons, errorCount_eq, warningCount_eq]
    simp [entries, hlevels]
    omega

/-- The lines of errors are those of errors among the findings, if the warnings about deployments of
directories are warnings. -/
theorem countP_entries {rs : List Report}
    (h : ∀ r ∈ rs, ∀ d ∈ r.directoryDeployments, d.warning.level = .warning) :
    (entries rs).countP (fun e => "error".toList.isPrefixOf e.2.label.toList) =
      (tally rs).errors := by
  induction rs with
  | nil => rfl
  | cons r rs ih =>
    have hrest := ih fun r' hr' => h r' (List.mem_cons_of_mem r hr')
    have hwarnings : (r.directoryDeployments.map (·.warning)).countP Diagnostic.isError = 0 := by
      rw [List.countP_eq_zero]
      intro w hw
      obtain ⟨d, hd, rfl⟩ := List.mem_map.mp hw
      simp [Diagnostic.isError, h r List.mem_cons_self d hd]
    rw [entries_cons, List.countP_append, hrest, tally_cons, errorCount_eq]
    simp only [Diagnostic.label_isPrefixOf]
    unfold entries
    rw [List.flatMap_singleton, List.countP_map]
    have herrors : (r.diagnostics ++ r.directoryDeployments.map (·.warning)).countP
        Diagnostic.isError = r.diagnostics.countP (·.level = .error) := by
      rw [List.countP_append, hwarnings]
      rfl
    exact congrArg (· + _) herrors

theorem render_eq_empty_iff (rs : List Report) : render rs = "" ↔ entries rs = [] := by
  rw [render_eq]
  cases entries rs with
  | nil => simp
  | cons e es => simp

end Report.Compact

end ImageLint
