import ImageLint.Proofs.Suggestion.Ranking
import Mathlib.Data.List.Destutter
import Mathlib.Data.List.Permutation
import Mathlib.Data.List.Sort

/-!
# The best suggestions

Names are ranked by distance and then by their text. The ranking is strictly increasing: in a sorted
list all repetitions of a candidate stand side by side, and so leaving out those beside each other
leaves out all of them. A strictly increasing list is known by its members, and therefore neither the
order of the known names nor a repetition of one makes a difference.

* `pairwise_destutter`: a sorted list without equal neighbours is strictly increasing.
* `pairwise_ranked`: the ranking is strictly increasing.
* `ranked_congr`: the ranking depends on which names are known, and on nothing else.
* `nearest_best`: which names are suggested, and in which order.
-/

namespace ImageLint.Suggestion

/-! ## Leaving out repetitions -/

section Repetitions

variable {α : Type} [DecidableEq α]

theorem eraseRepsBy_loop_eq (a : α) (as acc : List α) :
    List.eraseRepsBy.loop (· == ·) a as acc = acc.reverse ++ as.destutter' (· ≠ ·) a := by
  induction as generalizing a acc with
  | nil => rw [List.eraseRepsBy.loop, List.reverse_cons, List.destutter'_nil]
  | cons b as ih =>
    rw [List.eraseRepsBy.loop, List.destutter'_cons]
    split
    · next h =>
      obtain rfl : a = b := eq_of_beq h
      rw [ih, if_neg (not_not_intro rfl)]
    · next h =>
      rw [ih, if_pos (ne_of_beq_false h), List.reverse_cons, List.append_assoc,
        List.singleton_append]

theorem eraseReps_eq_destutter (as : List α) : as.eraseReps = as.destutter (· ≠ ·) := by
  cases as with
  | nil => rfl
  | cons a as => exact eraseRepsBy_loop_eq a as []

/-- A sorted list without equal neighbours is strictly increasing. -/
theorem pairwise_destutter {r : α → α → Prop} (antisymm : ∀ a b, r a b → r b a → a = b)
    {as : List α} (h : as.Pairwise r) :
    (as.destutter (· ≠ ·)).Pairwise fun a b => r a b ∧ a ≠ b := by
  have hsorted : (as.destutter (· ≠ ·)).Pairwise r := h.sublist (List.destutter_sublist _ as)
  have hdistinct := List.isChain_destutter (· ≠ ·) as
  generalize as.destutter (· ≠ ·) = bs at hsorted hdistinct
  induction bs with
  | nil => exact List.Pairwise.nil
  | cons b bs ih =>
    obtain ⟨hb, hbs⟩ := List.pairwise_cons.mp hsorted
    refine List.pairwise_cons.mpr ⟨fun c hc => ⟨hb c hc, ?_⟩, ih hbs hdistinct.tail⟩
    rintro rfl
    -- The neighbour of `b` would lie between two occurrences of `b`.
    cases bs with
    | nil => cases hc
    | cons d bs =>
      have hbd : b ≠ d := (List.isChain_cons_cons.mp hdistinct).1
      rcases List.mem_cons.mp hc with rfl | hc
      · exact hbd rfl
      · exact hbd (antisymm b d (hb d List.mem_cons_self) ((List.pairwise_cons.mp hbs).1 b hc))

end Repetitions

/-- What is cut off from a sorted list comes behind all that is left, and nothing is missing there. -/
theorem precede_of_not_mem_take {α : Type} {r : α → α → Prop} {as : List α} {n : Nat} {a : α}
    (h : as.Pairwise r) (ha : a ∈ as) (hcut : a ∉ as.take n) :
    (as.take n).length = n ∧ ∀ b ∈ as.take n, r b a := by
  have hparts := List.take_append_drop n as
  have hbehind : a ∈ as.drop n := by
    rw [← hparts, List.mem_append] at ha
    exact ha.resolve_left hcut
  rw [← hparts] at h
  refine ⟨?_, fun b hb => (List.pairwise_append.mp h).2.2 b hb a hbehind⟩
  have hlong := List.length_pos_of_mem hbehind
  rw [List.length_drop] at hlong
  rw [List.length_take]
  omega

/-! ## The order of candidates -/

/-- The nearer name comes first, and of two that are equally near the one with the smaller text. -/
def Precedes (unknown a b : String) : Prop :=
  distance unknown a < distance unknown b ∨ distance unknown a = distance unknown b ∧ a < b

theorem Precedes.irrefl (unknown a : String) : ¬ Precedes unknown a a := by
  rintro (h | ⟨-, h⟩)
  · exact Nat.lt_irrefl _ h
  · exact String.lt_irrefl a h

namespace Candidate

theorem le_iff {a b : Candidate} :
    a.le b = true ↔ a.distance < b.distance ∨ a.distance = b.distance ∧ a.name ≤ b.name := by
  simp [le]

theorem le_trans {a b c : Candidate} (hab : a.le b = true) (hbc : b.le c = true) :
    a.le c = true := by
  rw [le_iff] at *
  rcases hab with hab | ⟨hab, hnames⟩
  · exact Or.inl (by omega)
  · rcases hbc with hbc | ⟨hbc, hnames'⟩
    · exact Or.inl (by omega)
    · exact Or.inr ⟨hab.trans hbc, String.le_trans hnames hnames'⟩

theorem le_total (a b : Candidate) : (a.le b || b.le a) = true := by
  rw [Bool.or_eq_true, le_iff, le_iff]
  rcases Nat.lt_trichotomy a.distance b.distance with h | h | h
  · exact Or.inl (Or.inl h)
  · exact (String.le_total a.name b.name).imp (fun hn => Or.inr ⟨h, hn⟩)
      (fun hn => Or.inr ⟨h.symm, hn⟩)
  · exact Or.inr (Or.inl h)

theorem le_antisymm {a b : Candidate} (hab : a.le b = true) (hba : b.le a = true) : a = b := by
  obtain ⟨d, n⟩ := a
  obtain ⟨d', n'⟩ := b
  rw [le_iff] at hab hba
  dsimp only at hab hba
  obtain rfl : d = d' := by omega
  obtain rfl : n = n' := by
    refine String.le_antisymm ?_ ?_
    · exact (hab.resolve_left (Nat.lt_irrefl d)).2
    · exact (hba.resolve_left (Nat.lt_irrefl d)).2
  rfl

end Candidate

/-! ## The ranking -/

theorem pairwise_ranked (unknown : String) (names : List String) :
    (ranked unknown names).Pairwise fun a b => a.le b = true ∧ a ≠ b := by
  have hsorted : ((names.filterMap (candidate? unknown)).mergeSort Candidate.le).Pairwise
      fun a b => a.le b = true := by
    refine List.pairwise_mergeSort ?_ Candidate.le_total _
    exact fun _ _ _ => Candidate.le_trans
  unfold ranked
  rw [eraseReps_eq_destutter]
  exact pairwise_destutter (fun _ _ => Candidate.le_antisymm) hsorted

theorem ranked_congr {unknown : String} {names others : List String}
    (h : ∀ name, name ∈ others ↔ name ∈ names) : ranked unknown others = ranked unknown names := by
  have hothers := pairwise_ranked unknown others
  have hnames := pairwise_ranked unknown names
  have hmem : ∀ c, c ∈ ranked unknown others ↔ c ∈ ranked unknown names := by
    intro c
    rw [mem_ranked_iff, mem_ranked_iff, h]
  -- Neither list repeats a candidate, so one is a rearrangement of the other, and both are sorted.
  have hperm : (ranked unknown others).Perm (ranked unknown names) :=
    (List.perm_ext_iff_of_nodup (hothers.imp And.right) (hnames.imp And.right)).mpr hmem
  exact hperm.eq_of_pairwise (fun a b _ _ hab hba => Candidate.le_antisymm hab.1 hba.1)
    hothers hnames

theorem eq_of_mem_ranked {unknown : String} {names : List String} {a b : Candidate}
    (ha : a ∈ ranked unknown names) (hb : b ∈ ranked unknown names) (h : a.name = b.name) :
    a = b := by
  have hdistance : a.distance = b.distance := by
    rw [(mem_ranked_iff.mp ha).2.1, (mem_ranked_iff.mp hb).2.1, h]
  cases a
  cases b
  rw [Candidate.mk.injEq]
  exact ⟨hdistance, h⟩

theorem pairwise_map_name_ranked (unknown : String) (names : List String) :
    ((ranked unknown names).map Candidate.name).Pairwise (Precedes unknown) := by
  refine List.pairwise_map.mpr ((pairwise_ranked unknown names).imp_of_mem ?_)
  rintro a b ha hb ⟨hle, hne⟩
  have hda := (mem_ranked_iff.mp ha).2.1
  have hdb := (mem_ranked_iff.mp hb).2.1
  rw [Candidate.le_iff, hda, hdb] at hle
  refine hle.imp_right fun ⟨hdistance, hname⟩ => ⟨hdistance, ?_⟩
  by_contra hlt
  exact hne (eq_of_mem_ranked ha hb (String.le_antisymm hname (String.not_lt.mp hlt)))

/-- The names of the ranking are the known names that are near enough. -/
theorem mem_map_name_ranked_iff {unknown : String} {names : List String} {name : String} :
    name ∈ (ranked unknown names).map Candidate.name ↔
      name ∈ names ∧ distance unknown name ≤ maxDistance := by
  rw [List.mem_map]
  constructor
  · rintro ⟨c, hc, rfl⟩
    obtain ⟨hknown, hdistance, hnear⟩ := mem_ranked_iff.mp hc
    rw [hdistance] at hnear
    exact ⟨hknown, hnear⟩
  · rintro ⟨hknown, hnear⟩
    exact ⟨_, candidate_mem_ranked hknown hnear, rfl⟩

theorem nearest_eq_take (unknown : String) (names : List String) :
    nearest unknown names = ((ranked unknown names).map Candidate.name).take maxCount :=
  List.map_take

/-- **The best suggestions.** At most three known names are suggested, each once, and none whose
distance is greater than four. They stand in the order of distance and text, and every other known
name that is near enough comes behind three that are suggested. What is suggested depends only on
which names are known, not on their order or on how often one is given. -/
theorem nearest_best (unknown : String) (names : List String) :
    (nearest unknown names).Nodup ∧
    (∀ name ∈ nearest unknown names, name ∈ names ∧ distance unknown name ≤ 4) ∧
    (nearest unknown names).length ≤ 3 ∧
    (nearest unknown names).Pairwise (Precedes unknown) ∧
    (∀ name ∈ names, distance unknown name ≤ 4 → name ∉ nearest unknown names →
      (nearest unknown names).length = 3 ∧
        ∀ suggested ∈ nearest unknown names, Precedes unknown suggested name) ∧
    (∀ others, (∀ name, name ∈ others ↔ name ∈ names) →
      nearest unknown others = nearest unknown names) := by
  have hsorted := pairwise_map_name_ranked unknown names
  have hmem {name : String} := @mem_map_name_ranked_iff unknown names name
  have hcut := nearest_eq_take unknown names
  have hnearest : (nearest unknown names).Pairwise (Precedes unknown) := by
    rw [hcut]
    exact hsorted.sublist (List.take_sublist _ _)
  refine ⟨?_, ?_, ?_, hnearest, ?_, ?_⟩
  · refine hnearest.imp fun hab heq => ?_
    exact Precedes.irrefl unknown _ (heq ▸ hab)
  · intro name hname
    rw [hcut] at hname
    exact hmem.mp (List.mem_of_mem_take hname)
  · rw [hcut]
    exact List.length_take_le _ _
  · intro name hknown hnear hleft
    rw [hcut] at hleft ⊢
    exact precede_of_not_mem_take hsorted (hmem.mpr ⟨hknown, hnear⟩) hleft
  · intro others hsame
    unfold nearest
    rw [ranked_congr hsame]

/-- Four names are near enough, so the last one is left out; in another order, and with one of the
names twice, the same names are suggested. -/
theorem nearest_best_pid :
    nearest "pid" ["perms", "uid", "gid", "uid", "cd"] = nearest "pid" ["cd", "uid", "gid", "perms"] ∧
      (nearest "pid" ["cd", "uid", "gid", "perms"]).length = 3 ∧
      ∀ suggested ∈ nearest "pid" ["cd", "uid", "gid", "perms"],
        Precedes "pid" suggested "perms" := by
  obtain ⟨-, -, -, -, hbehind, hsame⟩ := nearest_best "pid" ["cd", "uid", "gid", "perms"]
  have hnearest : nearest "pid" ["cd", "uid", "gid", "perms"] = ["gid", "uid", "cd"] := by cbv
  have hleft : "perms" ∉ nearest "pid" ["cd", "uid", "gid", "perms"] := by
    rw [hnearest]
    decide
  have hnear : distance "pid" "perms" ≤ 4 := by decide +kernel
  refine ⟨hsame _ fun name => ?_, hbehind "perms" (by decide) hnear hleft⟩
  simp only [List.mem_cons, List.not_mem_nil, or_false]
  grind

end ImageLint.Suggestion
