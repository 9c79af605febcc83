import ImageLint.Proofs.Command.Composition
import ImageLint.Proofs.Report.Json
import ImageLint.Proofs.Report.Lines

/-!
# Every place that counts findings agrees

The counts of a run are stated by the stylish report and by the JSON report, they are the number of
lines of the compact report, and they decide whether the run fails. `Report.tally` counts the
findings one by one, and it is what all of them are compared with.

* `Stylish.StatesCounts`, `JsonStatesCounts`, `Compact.ListsCounts`: what each format says.
* `failed_of_lintAt`: a run fails as its reports say.
* `counts_agree`: all of it together.
-/

namespace ImageLint

open Text

namespace Report

/-! ## What each format says -/

/-- Below the lines about each file the stylish report states its share, and at the end `t`. -/
def Stylish.StatesCounts (rs : List Report) (t : Totals) : Prop :=
  ∀ coloured : Bool, ∃ above : Report → List String,
    (∀ r, HasLines (String.ofList (renderSpans coloured (header r ++ findings r))) (above r)) ∧
      HasLines (render false coloured rs)
        (rs.flatMap (fun r => above r ++ [countLine (tally [r])]) ++
          ["", summaryLine coloured t])

/-- The JSON report states the share of each file, and `t` as the summary, which is the sum of the
shares. It can be read back as long as the counts fit 64 bits. -/
structure JsonStatesCounts (rs : List Report) (t : Totals) : Prop where
  files : ∃ files, (listJson rs).get? "files" = some (.array files) ∧
    List.Forall₂ (fun r v => v.get? "errors" = some (.nat (tally [r]).errors) ∧
      v.get? "warnings" = some (.nat (tally [r]).warnings)) rs files
  summary : (listJson rs).get? "summary" =
    some (.object [("errors", .nat t.errors), ("warnings", .nat t.warnings)])
  sum : t = ⟨(rs.map fun r => (tally [r]).errors).sum, (rs.map fun r => (tally [r]).warnings).sum⟩
  text : t.errors < UInt64.size → t.warnings < UInt64.size →
    Json.parse (renderJson rs) = .ok (listJson rs)

/-- The compact report has a line for each entry, as many as `t` says, and for errors too. -/
structure Compact.ListsCounts (rs : List Report) (t : Totals) : Prop where
  lines : (∀ r ∈ rs, '\n' ∉ r.fileName.toList) → (∀ e ∈ entries rs, e.2.InOneLine) →
    HasLines (render rs) ((entries rs).map entryLine)
  length : (entries rs).length = t.errors + t.warnings
  errors : (∀ r ∈ rs, ∀ d ∈ r.directoryDeployments, d.warning.level = .warning) →
    (entries rs).countP (fun e => "error".toList.isPrefixOf e.2.label.toList) = t.errors

theorem Stylish.statesCounts (rs : List Report) : StatesCounts rs (tally rs) := by
  intro coloured
  choose above habove using ended_body coloured
  have hlines := hasLines_render coloured habove rs
  simp only [counts_eq_tally, totals_eq_tally] at hlines
  exact ⟨above, habove, hlines⟩

theorem jsonStatesCounts (rs : List Report) : JsonStatesCounts rs (tally rs) where
  files := by
    refine ⟨rs.map toJson, rfl, ?_⟩
    rw [List.forall₂_map_right_iff, List.forall₂_same]
    intro r _
    rw [← counts_eq_tally]
    exact ⟨rfl, rfl⟩
  summary := by
    rw [← totals_eq_tally]
    rfl
  sum := tally_eq_sum rs
  text := by
    intro herrors hwarnings
    have heach : ∀ r ∈ rs, r.errorCount < UInt64.size ∧ r.warningCount < UInt64.size := by
      intro r hr
      have hle := counts_le_tally hr
      omega
    rw [← totals_eq_tally] at herrors hwarnings
    exact parse_renderJson heach herrors hwarnings

theorem Compact.listsCounts (rs : List Report) : ListsCounts rs (tally rs) where
  lines := hasLines_render
  length := length_entries rs
  errors := countP_entries

end Report

/-! ## Whether a run fails -/

namespace Command

open Host Report

/-- A run fails if and only if one of its reports says so. -/
theorem failed_of_lintAt {site : Site} {paths : List String} {s : Settings} {outcome : Outcome}
    {log : List Log.Line} (h : lintAt site paths s = .ok (outcome, log)) :
    outcome.failed = outcome.reports.any (·.isFailure s.failOnWarning) := by
  obtain ⟨-, -, rfl⟩ := (outcomeAt_eq_ok_iff site s).mp (outcomeAt_of_lintAt h)
  rfl

/-- **All counts of a run agree.** -/
theorem counts_agree (rs : List Report) :
    Stylish.StatesCounts rs (tally rs) ∧ JsonStatesCounts rs (tally rs) ∧
      Compact.ListsCounts rs (tally rs) ∧
      ∀ (fs : FileSystem) (paths : List String) (s : Settings) (failed : Bool)
        (log : List Log.Line), lintFiles fs paths s = .ok (⟨rs, failed⟩, log) →
        (failed = true ↔
          0 < (tally rs).errors ∨ s.failOnWarning = true ∧ 0 < (tally rs).warnings) ∧
        (∀ coloured before,
          HasLines (Stylish.render false coloured rs)
            (before ++ [Stylish.summaryLine coloured ⟨0, 0⟩]) → failed = false) ∧
        (s.failOnWarning = true → (failed = true ↔ Compact.render rs ≠ "")) := by
  refine ⟨Stylish.statesCounts rs, jsonStatesCounts rs, Compact.listsCounts rs, ?_⟩
  intro fs paths s failed log h
  have hfailed : failed = true ↔
      0 < (tally rs).errors ∨ s.failOnWarning = true ∧ 0 < (tally rs).warnings := by
    rw [← any_isFailure_iff, ← failed_of_lintAt h]
  refine ⟨hfailed, ?_, ?_⟩
  · intro coloured before hzero
    obtain ⟨above, -, hlines⟩ := Stylish.statesCounts rs coloured
    have hlast := congrArg List.getLast? (hlines.eq hzero)
    have hcounts : tally rs = ⟨0, 0⟩ := by
      apply Stylish.summaryLine_injective coloured
      simpa using hlast
    rw [hcounts] at hfailed
    simpa using hfailed
  · intro hfail
    have hlength := Compact.length_entries rs
    rw [hfailed, ne_eq, Compact.render_eq_empty_iff, ← List.length_eq_zero_iff, hlength]
    simp only [hfail, true_and]
    omega

theorem counts_agree_twoDocuments :
    lintFiles twoDocuments ["a", "b"] strict =
        .ok (⟨[cutShortReport, deployedAgainReport], true⟩, []) ∧
      tally [cutShortReport, deployedAgainReport] = ⟨1, 2⟩ ∧
      Stylish.StatesCounts [cutShortReport, deployedAgainReport] ⟨1, 2⟩ ∧
      JsonStatesCounts [cutShortReport, deployedAgainReport] ⟨1, 2⟩ ∧
      Compact.ListsCounts [cutShortReport, deployedAgainReport] ⟨1, 2⟩ ∧
      Compact.render [cutShortReport, deployedAgainReport] ≠ "" := by
  have htally : tally [cutShortReport, deployedAgainReport] = ⟨1, 2⟩ := by decide
  obtain ⟨hstylish, hjson, hcompact, hrun⟩ := counts_agree [cutShortReport, deployedAgainReport]
  rw [htally] at hstylish hjson hcompact
  obtain ⟨-, -, hnonempty⟩ := hrun twoDocuments _ strict true [] lintFiles_twoDocuments
  exact ⟨lintFiles_twoDocuments, htally, hstylish, hjson, hcompact, (hnonempty rfl).mp rfl⟩

end Command

end ImageLint
