import ImageLint.Proofs.Command.Failure
import ImageLint.Proofs.Report.Lines

/-!
# Quiet and colour are decoration

A quiet stylish report has the findings alone, and one that is not quiet has the same findings
between headers, counts and a summary. Colours add escape sequences to a report and nothing else, as
long as what is reported holds no escape character.

* `Stylish.render_quiet_single`, `Stylish.render_quiet`, `Stylish.render_full`: what the two ways to
  write reports consist of.
* `Stylish.withoutColours_render`: the colours are all that colour adds.
* `Command.quiet_and_colour_decorate`: both, for what is printed and for the report file.
-/

namespace ImageLint

open Text

/-! ## What is reported -/

/-- The texts of a finding. -/
def Diagnostic.strings (d : Diagnostic) : List String :=
  d.message :: (d.code.toList ++ d.file.toList ++ d.context.toList ++ d.suggestion.toList)

/-- The texts of the deployment of a directory. -/
def DirectoryDeployment.strings (d : DirectoryDeployment) : List String :=
  d.targetPath :: d.sourcePath :: (d.warning.strings ++ d.suggestions.getD [])

/-- The texts of a report. -/
def Report.strings (r : Report) : List String :=
  r.file.toList ++ r.diagnostics.flatMap Diagnostic.strings ++
    r.directoryDeployments.flatMap DirectoryDeployment.strings

namespace Report.Stylish

/-! ## Quiet -/

/-- The line above the findings of a report. -/
def headerLine (coloured : Bool) (r : Report) : String :=
  String.ofList ((Span.ofStyled (.weight .bold) ("* " ++ r.fileName ++ " *")).render coloured)

theorem toList_render (quiet coloured : Bool) (rs : List Report) :
    (render quiet coloured rs).toList = renderSpans coloured (spans quiet rs) := by
  simp [render]

theorem renderSpans_line (coloured : Bool) (ss : List Span) :
    renderSpans coloured (line ss) = renderSpans coloured ss ++ ['\n'] := by
  rw [line, renderSpans_append]
  rfl

theorem renderSpans_flatMap {α : Type} (coloured : Bool) (write : α → List Span) (as : List α) :
    renderSpans coloured (as.flatMap write) = as.flatMap fun a => renderSpans coloured (write a) := by
  simp [renderSpans, List.flatMap_assoc]

/-- A quiet report of one file has its findings. -/
theorem toList_render_quiet (coloured : Bool) (r : Report) :
    (render true coloured [r]).toList = renderSpans coloured (findings r) := by
  rw [toList_render]
  simp [spans, report]

/-- The lines of a finding as a text. -/
def findingText (coloured : Bool) (d : Diagnostic) : String :=
  String.ofList (renderSpans coloured (finding d))

/-- The lines of the deployment of a directory as a text. -/
def directoryText (coloured : Bool) (d : DirectoryDeployment) : String :=
  String.ofList (renderSpans coloured (directoryDeployment d))

/-- A quiet report of one file has the text of each finding in order, and nothing else. -/
theorem render_quiet_single (coloured : Bool) (r : Report) :
    render true coloured [r] = String.join (r.diagnostics.map (findingText coloured) ++
      r.directoryDeployments.map (directoryText coloured)) := by
  apply String.toList_injective
  rw [toList_render_quiet, findings, renderSpans_append, renderSpans_flatMap, renderSpans_flatMap,
    String.toList_join, List.flatMap_append, List.flatMap_map, List.flatMap_map]
  simp only [findingText, directoryText, String.toList_ofList]

/-- Quiet reports are written one after another. -/
theorem render_quiet (coloured : Bool) (rs : List Report) :
    render true coloured rs = String.join (rs.map fun r => render true coloured [r]) := by
  apply String.toList_injective
  rw [String.toList_join, List.flatMap_map, toList_render, spans, if_pos rfl, List.append_nil,
    renderSpans_flatMap]
  apply List.flatMap_congr
  intro r _
  rw [toList_render_quiet]
  rfl

theorem renderSpans_header (coloured : Bool) (r : Report) :
    renderSpans coloured (header r) = (headerLine coloured r).toList ++ ['\n'] := by
  rw [header, renderSpans_line, headerLine, String.toList_ofList]
  simp [renderSpans]

/-- A report that is not quiet has the quiet one between its header and its counts. -/
theorem renderSpans_report_full (coloured : Bool) (r : Report) :
    renderSpans coloured (report false r) =
      (headerLine coloured r ++ "\n" ++ render true coloured [r] ++ countLine r.counts ++
        "\n").toList := by
  have hnewline : "\n".toList = ['\n'] := rfl
  rw [report, if_neg Bool.false_ne_true, renderSpans_append, renderSpans_append,
    renderSpans_header, renderSpans_footer, ← toList_render_quiet]
  simp only [String.toList_append, hnewline, List.append_assoc]

/-- Reports that are not quiet stand one after another, and below all of them an empty line and the
summary. -/
theorem render_full (coloured : Bool) (rs : List Report) :
    render false coloured rs =
      String.join (rs.map fun r => headerLine coloured r ++ "\n" ++ render true coloured [r] ++
        countLine r.counts ++ "\n") ++
      "\n" ++ summaryLine coloured (totals rs) ++ "\n" := by
  have hnewline : "\n".toList = ['\n'] := rfl
  apply String.toList_injective
  rw [toList_render, spans, if_neg Bool.false_ne_true, renderSpans_append, renderSpans_flatMap,
    renderSpans_summary, funext (renderSpans_report_full coloured)]
  simp only [String.toList_append, String.toList_join, List.flatMap_map, hnewline,
    List.append_assoc, List.cons_append, List.nil_append]

/-! ## Colour -/

/-- No span holds an escape character. -/
def Unescaped (ss : List Span) : Prop := ∀ s ∈ ss, escapeChar ∉ s.text

namespace Unescaped

theorem nil : Unescaped [] := List.forall_mem_nil _

theorem append {a b : List Span} (ha : Unescaped a) (hb : Unescaped b) : Unescaped (a ++ b) :=
  List.forall_mem_append.mpr ⟨ha, hb⟩

theorem flatMap {α : Type} {write : α → List Span} {as : List α}
    (h : ∀ a ∈ as, Unescaped (write a)) : Unescaped (as.flatMap write) := by
  intro s hs
  obtain ⟨a, ha, hs⟩ := List.mem_flatMap.mp hs
  exact h a ha s hs

theorem line {ss : List Span} (h : Unescaped ss) : Unescaped (line ss) :=
  h.append (List.forall_mem_singleton.mpr (by decide))

theorem detail (style : Style) {text : String} (h : escapeChar ∉ text.toList) :
    Unescaped (detail style text) := by
  refine line (List.forall_mem_cons.mpr ⟨by decide, List.forall_mem_singleton.mpr ?_⟩)
  exact h

end Unescaped

theorem escapeChar_not_mem_position (d : Diagnostic) : escapeChar ∉ (position d).toList := by
  have hnumber (n : UInt64) : escapeChar ∉ (toString n).toList :=
    not_mem_toString (by decide) n.toNat
  unfold position
  split
  · simp only [String.toList_append, List.mem_append]
    rintro ((h | h) | h)
    · exact hnumber _ h
    · exact absurd h (by decide)
    · exact hnumber _ h
  · exact hnumber _
  · decide

theorem escapeChar_not_mem_label {d : Diagnostic}
    (h : ∀ code ∈ d.code, escapeChar ∉ code.toList) : escapeChar ∉ d.label.toList := by
  have hname : escapeChar ∉ d.level.name.toList := by
    cases d.level <;> decide
  unfold Diagnostic.label
  split
  next code hcode =>
    simp only [String.toList_append, List.mem_append]
    rintro (((h' | h') | h') | h')
    · exact hname h'
    · exact absurd h' (by decide)
    · exact h code hcode h'
    · exact absurd h' (by decide)
  next => exact hname

theorem unescaped_finding {d : Diagnostic} (h : ∀ s ∈ d.strings, escapeChar ∉ s.toList) :
    Unescaped (finding d) := by
  simp only [Diagnostic.strings, List.forall_mem_cons, List.forall_mem_append,
    Option.mem_toList] at h
  obtain ⟨hmessage, ⟨⟨hcode, -⟩, hcontext⟩, hsuggestion⟩ := h
  have hblank : escapeChar ∉ (Span.ofString " ").text := by decide
  have hindent : escapeChar ∉ (Span.ofString "  ").text := by decide
  have hfirst : Unescaped (line [.ofString "  ", .ofStyled (.weight .dimmed) (position d),
      .ofString " ", .ofStyled (.both .bold (severityColour d.level)) d.label, .ofString " ",
      .ofString d.message]) := by
    apply Unescaped.line
    simp only [Unescaped, List.forall_mem_cons, List.not_mem_nil, false_implies, implies_true,
      and_true]
    exact ⟨hindent, escapeChar_not_mem_position d, hblank, escapeChar_not_mem_label hcode, hblank,
      hmessage⟩
  refine (hfirst.append ?_).append ?_
  · cases hd : d.context with
    | none => exact Unescaped.nil
    | some context => exact Unescaped.detail _ (hcontext context hd)
  · cases hd : d.suggestion with
    | none => exact Unescaped.nil
    | some suggestion => exact Unescaped.detail _ (hsuggestion suggestion hd)

theorem unescaped_suggestions {o : Option (List String)}
    (h : ∀ s ∈ o.getD [], escapeChar ∉ s.toList) : Unescaped (suggestions o) := by
  rcases o with _ | _ | ⟨l, ls⟩
  · exact Unescaped.detail _ (by decide)
  · exact Unescaped.detail _ (by decide)
  · refine Unescaped.append ?_ (Unescaped.flatMap fun s hs => ?_)
    · exact Unescaped.line (List.forall_mem_singleton.mpr (by decide))
    · refine Unescaped.line (List.forall_mem_cons.mpr ⟨by decide, ?_⟩)
      exact List.forall_mem_singleton.mpr (h s hs)

theorem unescaped_directoryDeployment {d : DirectoryDeployment}
    (h : ∀ s ∈ d.strings, escapeChar ∉ s.toList) : Unescaped (directoryDeployment d) := by
  simp only [DirectoryDeployment.strings, List.forall_mem_cons, List.forall_mem_append] at h
  exact (unescaped_finding h.2.2.1).append (unescaped_suggestions h.2.2.2)

theorem unescaped_header {r : Report} (h : ∀ s ∈ r.file, escapeChar ∉ s.toList) :
    Unescaped (header r) := by
  have hname : escapeChar ∉ r.fileName.toList := by
    unfold fileName
    cases hfile : r.file with
    | none => decide
    | some name => exact h name hfile
  have htext : escapeChar ∉ ("* " ++ r.fileName ++ " *").toList := by
    simp only [String.toList_append, List.mem_append]
    rintro ((h' | h') | h')
    · exact absurd h' (by decide)
    · exact hname h'
    · exact absurd h' (by decide)
  exact Unescaped.line (List.forall_mem_singleton.mpr htext)

theorem unescaped_report {r : Report} (h : ∀ s ∈ r.strings, escapeChar ∉ s.toList)
    (quiet : Bool) : Unescaped (report quiet r) := by
  simp only [Report.strings, List.forall_mem_append, List.forall_mem_flatMap,
    Option.mem_toList] at h
  obtain ⟨⟨hfile, hdiagnostics⟩, hdirectories⟩ := h
  have hfindings : Unescaped (findings r) :=
    (Unescaped.flatMap fun d hd => unescaped_finding (hdiagnostics d hd)).append
      (Unescaped.flatMap fun d hd => unescaped_directoryDeployment (hdirectories d hd))
  have hfooter : Unescaped (footer r) := by
    refine Unescaped.line (List.forall_mem_cons.mpr ⟨by decide, ?_⟩)
    rw [Totals.text_eq_words]
    exact List.forall_mem_singleton.mpr
      (r.counts.not_mem_words (by decide) (by decide) (by decide))
  cases quiet with
  | true => exact hfindings
  | false => exact ((unescaped_header hfile).append hfindings).append hfooter

theorem unescaped_spans {rs : List Report} (h : ∀ r ∈ rs, ∀ s ∈ r.strings, escapeChar ∉ s.toList)
    (quiet : Bool) : Unescaped (spans quiet rs) := by
  have hreports : Unescaped (rs.flatMap (report quiet)) :=
    Unescaped.flatMap fun r hr => unescaped_report (h r hr) quiet
  have hsummary : Unescaped (summary rs) := by
    refine Unescaped.line (List.forall_mem_cons.mpr ⟨by decide, ?_⟩)
    exact List.forall_mem_singleton.mpr
      (not_mem_summaryWords (by decide) (by decide) (by decide) (by decide) (totals rs))
  refine hreports.append ?_
  cases quiet with
  | true => exact Unescaped.nil
  | false => exact hsummary

/-- The colours are all that colour adds. -/
theorem withoutColours_render {rs : List Report}
    (h : ∀ r ∈ rs, ∀ s ∈ r.strings, escapeChar ∉ s.toList) (quiet : Bool) :
    withoutColours (render quiet true rs) = render quiet false rs := by
  unfold withoutColours
  rw [toList_render, uncoloured_renderSpans (unescaped_spans h quiet)]
  rfl

end Report.Stylish

/-! ## Printed and written -/

namespace Command

open Host Report

/-- The report file of a run holds what the run prints in colour when it has no report file, without
the colours. -/
structure HoldsPrinted (decode : Config.Decoder) (fs : FileSystem) (a : Arguments)
    (environment : List (String × String)) (path : String) (coloured : Bool) : Prop where
  result : (lint decode fs { a with reportPath := none } environment true).result =
    (lint decode fs { a with reportPath := some path } environment coloured).result
  files : fs.writeFile path
      (.text (withoutColours
        (lint decode fs { a with reportPath := none } environment true).output)) fs.clock =
    .ok (lint decode fs { a with reportPath := some path } environment coloured).files

section Redirected

variable {decode : Config.Decoder} {fs : FileSystem} {a : Arguments}
  {environment : List (String × String)} {config : Option Config}

/-- Settings with another place for the reports. -/
def Settings.redirect (s : Settings) (reportPath : Option String) : Settings := { s with reportPath }

/-- Where the reports go is looked at when they are delivered, and not before. -/
theorem lint_redirected (hconfig : Config.load decode fs a.configPath = .ok config)
    (reportPath : Option String) (coloured : Bool) :
    lint decode fs { a with reportPath } environment coloured =
      lintWith fs a ((Settings.resolve a config environment).redirect reportPath) coloured := by
  unfold lint
  simp only [hconfig]
  rfl

theorem lintFiles_redirect (s : Settings) (reportPath : Option String) (paths : List String) :
    lintFiles fs paths (s.redirect reportPath) = lintFiles fs paths s := rfl

/-- A run that finds something with one place for its reports finds it with every other. -/
theorem lint_redirected_of_ok (hconfig : Config.load decode fs a.configPath = .ok config)
    {outcome : Outcome} {log : List Log.Line}
    (hlint : lintFiles fs a.files (.resolve a config environment) = .ok (outcome, log))
    (reportPath : Option String) (coloured : Bool) :
    lint decode fs { a with reportPath } environment coloured =
      deliver fs ((Settings.resolve a config environment).redirect reportPath) coloured outcome
        (validatorNotes fs ((Settings.resolve a config environment).redirect reportPath)) log := by
  rw [lint_redirected hconfig]
  exact lintWith_of_ok coloured ((lintFiles_redirect _ reportPath a.files).trans hlint)

theorem holdsPrinted {path : String} {coloured : Bool} {outcome : Outcome}
    (hconfig : Config.load decode fs a.configPath = .ok config)
    (hformat : (Settings.resolve a config environment).format = .stylish)
    (hresult : (lint decode fs { a with reportPath := some path } environment coloured).result =
      .ok outcome)
    (h : ∀ r ∈ outcome.reports, ∀ s ∈ r.strings, escapeChar ∉ s.toList) :
    HoldsPrinted decode fs a environment path coloured := by
  cases hlint : lintFiles fs a.files (.resolve a config environment) with
  | error e =>
    rw [lint_redirected hconfig, lintWith_of_error coloured
      ((lintFiles_redirect _ (some path) a.files).trans hlint)] at hresult
    cases hresult
  | ok foundLog =>
    obtain ⟨found, log⟩ := foundLog
    have hprinted := lint_redirected_of_ok hconfig hlint none true
    have hwritten := lint_redirected_of_ok hconfig hlint (some path) coloured
    rw [hwritten] at hresult
    unfold deliver Settings.redirect at hresult hwritten
    dsimp only at hresult hwritten
    split at hresult
    next => cases hresult
    next files hfile =>
      cases hresult
      rw [hfile] at hwritten
      have houtput : (lint decode fs { a with reportPath := none } environment true).output =
          Stylish.render a.quiet true outcome.reports := by
        rw [hprinted]
        simp only [deliver, Settings.redirect, hformat]
        rfl
      refine ⟨?_, ?_⟩
      · rw [hprinted, hwritten]
        rfl
      · rw [houtput, Stylish.withoutColours_render h, hwritten]
        rw [hformat] at hfile
        exact hfile

end Redirected

/-- **Quiet and colour change only decoration.** A quiet report has the findings of each file, and
one that is not quiet has them between a header and the counts, with a summary below. If the reports
hold no escape character, the colours are all that colour adds, and a report file has what would
have been printed. -/
theorem quiet_and_colour_decorate (rs : List Report) :
    (∀ coloured r, Stylish.render true coloured [r] =
      String.join (r.diagnostics.map (Stylish.findingText coloured) ++
        r.directoryDeployments.map (Stylish.directoryText coloured))) ∧
    (∀ coloured, Stylish.render true coloured rs =
      String.join (rs.map fun r => Stylish.render true coloured [r])) ∧
    (∀ coloured, Stylish.render false coloured rs =
      String.join (rs.map fun r => Stylish.headerLine coloured r ++ "\n" ++
        Stylish.render true coloured [r] ++ Stylish.countLine r.counts ++ "\n") ++
      "\n" ++ Stylish.summaryLine coloured (totals rs) ++ "\n") ∧
    ((∀ r ∈ rs, ∀ s ∈ r.strings, escapeChar ∉ s.toList) →
      (∀ quiet, withoutColours (Stylish.render quiet true rs) = Stylish.render quiet false rs) ∧
      ∀ (decode : Config.Decoder) (fs : FileSystem) (a : Arguments)
        (environment : List (String × String)) (path : String) (coloured : Bool)
        (config : Option Config) (outcome : Outcome),
        Config.load decode fs a.configPath = .ok config →
        (Settings.resolve a config environment).format = .stylish →
        (lint decode fs { a with reportPath := some path } environment coloured).result =
          .ok outcome →
        outcome.reports = rs → HoldsPrinted decode fs a environment path coloured) := by
  refine ⟨Stylish.render_quiet_single, fun coloured => Stylish.render_quiet coloured rs,
    fun coloured => Stylish.render_full coloured rs, fun h => ⟨Stylish.withoutColours_render h, ?_⟩⟩
  rintro decode fs a environment path coloured config outcome hconfig hformat hresult rfl
  exact holdsPrinted hconfig hformat hresult h

/-! ## A run with a report file -/

/-- One document is analysed under an empty configuration. -/
def onlySecond : Arguments where
  files := ["b"]
  configPath := some "a"

theorem lintFiles_onlySecond (reportPath : Option String) :
    lintFiles configured ["b"]
        (.resolve { onlySecond with reportPath } (some {}) []) =
      .ok (⟨[deployedAgainReport], false⟩, []) := by
  have hb : loadDocument configured "b" = .ok deployedAgain :=
    loadDocument_written (readText_twoFiles "" deployedAgain.toJson.compactText).2.1
  have hoptions : (Settings.resolve { onlySecond with reportPath } (some {}) []).analysisOptions =
      strict.analysisOptions := rfl
  have hvalidator : (Settings.resolve { onlySecond with reportPath } (some {})
      []).customValidator = none := rfl
  unfold lintFiles lintAt
  simp only [checkValidator, hvalidator, hoptions, analyzeAll, hb, bind, Except.bind,
    analyze_deployedAgain]
  rfl

theorem isOk_writeFile_twoFiles (a b : String) (content : FileContent) (modified : Int) :
    ((twoFiles a b).writeFile "c" content modified).isOk = true := by
  unfold FileSystem.writeFile
  rw [FileSystem.resolve_of_isName (by decide) rfl]
  rfl

theorem result_onlySecond :
    (lint Config.ofYaml configured { onlySecond with reportPath := some "c" } [] false).result =
      .ok ⟨[deployedAgainReport], false⟩ := by
  rw [lint_of_configured false (not_configFault_configured rfl), settingsOf_configured rfl,
    lintWith_of_ok false (lintFiles_onlySecond (some "c"))]
  have hpath : (Settings.resolve { onlySecond with reportPath := some "c" } (some {})
      []).reportPath = some "c" := rfl
  unfold deliver
  simp only [hpath]
  split
  next e herror =>
    have hwrite := congrArg Except.isOk herror
    rw [configured, isOk_writeFile_twoFiles] at hwrite
    cases hwrite
  next => rfl

theorem quiet_and_colour_decorate_onlySecond :
    (∀ s ∈ deployedAgainReport.strings, escapeChar ∉ s.toList) ∧
      Stylish.render false true [deployedAgainReport] ≠
        Stylish.render false false [deployedAgainReport] ∧
      withoutColours (Stylish.render false true [deployedAgainReport]) =
        Stylish.render false false [deployedAgainReport] ∧
      (lint Config.ofYaml configured { onlySecond with reportPath := some "c" } [] false).result =
        .ok ⟨[deployedAgainReport], false⟩ ∧
      HoldsPrinted Config.ofYaml configured onlySecond [] "c" false := by
  have hplain : ∀ s ∈ deployedAgainReport.strings, escapeChar ∉ s.toList := by decide
  obtain ⟨-, -, -, hcolour⟩ := quiet_and_colour_decorate [deployedAgainReport]
  obtain ⟨hrender, hwritten⟩ := hcolour (List.forall_mem_singleton.mpr hplain)
  refine ⟨hplain, ?_, hrender false, result_onlySecond, ?_⟩
  · cbv
  · exact hwritten Config.ofYaml configured onlySecond [] "c" false _ _ load_configured rfl
      result_onlySecond rfl

end Command

end ImageLint
