import ImageLint.Report.Totals
import Mathlib.Algebra.GroupWithZero.Nat

/-!
# Counting findings one by one

`Report.tally` counts what several reports hold, finding by finding: the errors, and the warnings
together with the deployments of directories. What is counted elsewhere is the same: the counts of a
report (`counts_eq_tally`), the totals (`totals_eq_tally`), and what makes a run fail
(`any_isFailure_iff`).
-/

namespace ImageLint.Report

/-- The errors and warnings in several reports. A deployment of a directory is a warning. -/
def tally (rs : List Report) : Totals where
  errors := (rs.flatMap (·.diagnostics)).countP (·.level = .error)
  warnings := (rs.flatMap (·.diagnostics)).countP (·.level = .warning) +
    (rs.flatMap (·.directoryDeployments)).length

theorem errorCount_eq (r : Report) :
    r.errorCount = r.diagnostics.countP (·.level = .error) := List.countP_eq_length_filter.symm

theorem warningCount_eq (r : Report) :
    r.warningCount = r.diagnostics.countP (·.level = .warning) + r.directoryDeployments.length := by
  unfold warningCount
  rw [← List.countP_eq_length_filter]
  rfl

theorem tally_cons (r : Report) (rs : List Report) :
    tally (r :: rs) =
      ⟨r.errorCount + (tally rs).errors, r.warningCount + (tally rs).warnings⟩ := by
  have herrors : (tally (r :: rs)).errors = r.errorCount + (tally rs).errors := by
    unfold tally
    dsimp only
    rw [List.flatMap_cons, List.countP_append, errorCount_eq]
  have hwarnings : (tally (r :: rs)).warnings = r.warningCount + (tally rs).warnings := by
    unfold tally
    dsimp only
    rw [List.flatMap_cons, List.flatMap_cons, List.countP_append, List.length_append,
      warningCount_eq]
    omega
  rw [← herrors, ← hwarnings]

theorem counts_eq_tally (r : Report) : r.counts = tally [r] := by
  rw [tally_cons]
  rfl

theorem foldl_add_eq_tally (rs : List Report) (t : Totals) :
    rs.foldl Totals.add t = ⟨t.errors + (tally rs).errors, t.warnings + (tally rs).warnings⟩ := by
  induction rs generalizing t with
  | nil => rfl
  | cons r rs ih =>
    rw [List.foldl_cons, ih, tally_cons]
    unfold Totals.add
    simp only [Nat.add_assoc]

theorem totals_eq_tally (rs : List Report) : totals rs = tally rs := by
  unfold totals
  rw [foldl_add_eq_tally, Nat.zero_add, Nat.zero_add]

/-- What several reports hold is the sum of what each of them holds. -/
theorem tally_eq_sum (rs : List Report) :
    tally rs = ⟨(rs.map fun r => (tally [r]).errors).sum,
      (rs.map fun r => (tally [r]).warnings).sum⟩ := by
  induction rs with
  | nil => rfl
  | cons r rs ih =>
    rw [tally_cons, ih, List.map_cons, List.map_cons, List.sum_cons, List.sum_cons,
      ← counts_eq_tally]
    rfl

theorem counts_le_tally {r : Report} {rs : List Report} (hr : r ∈ rs) :
    r.errorCount ≤ (tally rs).errors ∧ r.warningCount ≤ (tally rs).warnings := by
  induction rs with
  | nil => cases hr
  | cons r' rs ih =>
    rw [tally_cons]
    dsimp only
    rcases List.mem_cons.mp hr with rfl | hr
    · omega
    · have := ih hr
      omega

/-- A report makes a run fail because of an error, or of a warning if these are not let pass. -/
theorem isFailure_iff (r : Report) (failOnWarning : Bool) :
    r.isFailure failOnWarning = true ↔
      0 < r.errorCount ∨ failOnWarning = true ∧ 0 < r.warningCount := by
  unfold isFailure
  simp

/-- A run fails because of an error somewhere, or of a warning if these are not let pass. -/
theorem any_isFailure_iff (rs : List Report) (failOnWarning : Bool) :
    rs.any (·.isFailure failOnWarning) = true ↔
      0 < (tally rs).errors ∨ failOnWarning = true ∧ 0 < (tally rs).warnings := by
  induction rs with
  | nil => simp [tally]
  | cons r rs ih =>
    rw [List.any_cons, Bool.or_eq_true, ih, isFailure_iff, tally_cons]
    dsimp only
    constructor
    · rintro ((h | ⟨hw, h⟩) | h | ⟨hw, h⟩)
      · exact Or.inl (by omega)
      · exact Or.inr ⟨hw, by omega⟩
      · exact Or.inl (by omega)
      · exact Or.inr ⟨hw, by omega⟩
    · rintro (h | ⟨hw, h⟩)
      · rcases Nat.eq_zero_or_pos r.errorCount with hzero | hpos
        · exact Or.inr (Or.inl (by omega))
        · exact Or.inl (Or.inl hpos)
      · rcases Nat.eq_zero_or_pos r.warningCount with hzero | hpos
        · exact Or.inr (Or.inr ⟨hw, by omega⟩)
        · exact Or.inl (Or.inr ⟨hw, hpos⟩)

end ImageLint.Report
