import ImageLint.Suggestion.Nearest

/-!
# Which names are ranked

Names are ranked by their distance and cut off at a few. Sorting and leaving out repetitions keeps
every name that is near enough, so something is suggested as soon as one name is.

* `mem_ranked_iff`: the names in the ranking.
* `nearest_eq_nil_iff`: when nothing is suggested.
-/

namespace ImageLint.Suggestion

section Repetitions

variable {α : Type} [BEq α] [LawfulBEq α]

theorem mem_eraseRepsBy_loop (a : α) (as acc : List α) (b : α) :
    b ∈ List.eraseRepsBy.loop (· == ·) a as acc ↔ b ∈ acc ∨ b ∈ a :: as := by
  induction as generalizing a acc with
  | nil => simp [List.eraseRepsBy.loop, or_comm]
  | cons c as ih =>
    rw [List.eraseRepsBy.loop]
    split
    · next h =>
      rw [ih, eq_of_beq h]
      simp
    · rw [ih]
      simp [or_left_comm, or_assoc]

theorem mem_eraseReps {as : List α} {b : α} : b ∈ as.eraseReps ↔ b ∈ as := by
  unfold List.eraseReps
  cases as with
  | nil => rfl
  | cons a as =>
    rw [List.eraseRepsBy, mem_eraseRepsBy_loop]
    simp

end Repetitions

theorem candidate?_eq_some_iff {unknown name : String} {c : Candidate} :
    candidate? unknown name = some c ↔
      distance unknown name ≤ maxDistance ∧ c = ⟨distance unknown name, name⟩ := by
  unfold candidate?
  dsimp only
  split
  · next h => simp [h, eq_comm]
  · next h => simp [h]

/-- The ranking holds the names that are near enough, each with its distance. -/
theorem mem_ranked_iff {unknown : String} {names : List String} {c : Candidate} :
    c ∈ ranked unknown names ↔ c.name ∈ names ∧ c.distance = distance unknown c.name ∧
      c.distance ≤ maxDistance := by
  unfold ranked
  rw [mem_eraseReps, List.mem_mergeSort, List.mem_filterMap]
  simp only [candidate?_eq_some_iff]
  constructor
  · rintro ⟨name, hname, hnear, rfl⟩
    dsimp only
    exact ⟨hname, rfl, hnear⟩
  · rintro ⟨hname, hdistance, hnear⟩
    refine ⟨c.name, hname, ?_, ?_⟩
    · rwa [← hdistance]
    · rw [← hdistance]

/-- A name that is near enough is in the ranking. -/
theorem candidate_mem_ranked {unknown name : String} {names : List String} (hname : name ∈ names)
    (hnear : distance unknown name ≤ maxDistance) :
    ⟨distance unknown name, name⟩ ∈ ranked unknown names := by
  rw [mem_ranked_iff]
  dsimp only
  exact ⟨hname, rfl, hnear⟩

/-- Nothing is suggested exactly if no name is near enough. -/
theorem nearest_eq_nil_iff {unknown : String} {names : List String} :
    nearest unknown names = [] ↔ ∀ name ∈ names, maxDistance < distance unknown name := by
  have hcut : nearest unknown names = [] ↔ ranked unknown names = [] := by
    unfold nearest
    rw [List.map_eq_nil_iff, List.take_eq_nil_iff]
    simp [maxCount]
  rw [hcut, List.eq_nil_iff_forall_not_mem]
  constructor
  · intro h name hname
    exact Nat.lt_of_not_le fun hnear => h _ (candidate_mem_ranked hname hnear)
  · intro h c hc
    obtain ⟨hname, hdistance, hnear⟩ := mem_ranked_iff.mp hc
    rw [hdistance] at hnear
    exact Nat.not_lt_of_le hnear (h c.name hname)

end ImageLint.Suggestion
