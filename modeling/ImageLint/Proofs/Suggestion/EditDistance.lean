import ImageLint.Proofs.Suggestion.Edits
import ImageLint.Suggestion.EditDistance

/-!
# The edit distance is the least number of edits

The rows are computed from left to right, and each character is met behind those that were read
before it. So both texts are taken back to front: `p` and `q` below hold what has been read of the
first and of the second text, the last character in front. An alignment of two texts read back to
front is one of the texts themselves, and that is where the direction is lost again.

* `least_cons_cons`: the least cost of an entry from its three neighbours.
* `rowOf_nextRow`: a row holds the least costs if the row above it does.
* `least_editDistance`: the last entry of the last row is the least cost of an alignment.
* `editDistance_least_script`: and so the least number of edits, with what follows for distances.
-/

namespace ImageLint.Suggestion

/-! ## Least costs -/

/-- The least cost of an alignment of two texts. -/
structure Least (as bs : List Char) (n : Nat) : Prop where
  reached : Alignment as bs n
  least : ∀ m, Alignment as bs m → n ≤ m

variable {as bs : List Char}

theorem Alignment.min {m n : Nat} (hm : Alignment as bs m) (hn : Alignment as bs n) :
    Alignment as bs (min m n) := by
  rcases Nat.le_total m n with h | h
  · rwa [Nat.min_eq_left h]
  · rwa [Nat.min_eq_right h]

theorem least_nil_left (bs : List Char) : Least [] bs bs.length where
  reached := by simpa using Alignment.nil.news bs
  least _ h := Nat.le_of_eq h.length_of_nil_left.symm

theorem least_cons_nil {n : Nat} (a : Char) (h : Least as [] n) : Least (a :: as) [] (n + 1) where
  reached := h.reached.leftOut a
  least m hm := by
    cases hm with
    | leftOut _ hm => exact Nat.succ_le_succ (h.least _ hm)

/-- The last characters of two texts are kept or one replaces the other, or the last one of either text
is on its own. -/
theorem least_cons_cons {a b : Char} {up left diag : Nat} (hup : Least as (b :: bs) up)
    (hleft : Least (a :: as) bs left) (hdiag : Least as bs diag) :
    Least (a :: as) (b :: bs)
      (min (min (up + 1) (left + 1)) (diag + if a = b then 0 else 1)) where
  reached := by
    have hlast : Alignment (a :: as) (b :: bs) (diag + if a = b then 0 else 1) := by
      split
      · next h => exact h ▸ hdiag.reached.kept a
      · exact hdiag.reached.replaced a b
    exact ((hup.reached.leftOut a).min (hleft.reached.new b)).min hlast
  least m hm := by
    cases hm with
    | kept _ hm =>
      have := hdiag.least _ hm
      rw [if_pos rfl]
      omega
    | replaced _ _ hm =>
      have := hdiag.least _ hm
      split <;> omega
    | leftOut _ hm =>
      have := hup.least _ hm
      omega
    | new _ hm =>
      have := hleft.least _ hm
      omega

theorem Least.reverse {n : Nat} (h : Least as bs n) : Least as.reverse bs.reverse n where
  reached := h.reached.reverse
  least m hm := by
    have hback := hm.reverse
    rw [List.reverse_reverse, List.reverse_reverse] at hback
    exact h.least m hback

/-! ## Rows -/

/-- The least costs of `p` and `q`, and of `p` and what `q` becomes with each further character. -/
def RowOf (p q : List Char) : List Char → List Nat → Prop
  | [], [n] => Least p q n
  | b :: bs, n :: row => Least p q n ∧ RowOf p (b :: q) bs row
  | _, _ => False

theorem RowOf.head {p q bs : List Char} {n : Nat} {row : List Nat} (h : RowOf p q bs (n :: row)) :
    Least p q n := by
  cases bs with
  | nil =>
    cases row with
    | nil => exact h
    | cons => exact h.elim
  | cons b bs => exact h.1

theorem rowOf_firstRow (b : List Char) : RowOf [] [] b (firstRow b) := by
  -- The numbers from 0 on are a case of the numbers from the length of what has been read.
  have hrange (q bs : List Char) : RowOf [] q bs (List.range' q.length (bs.length + 1)) := by
    induction bs generalizing q with
    | nil => exact least_nil_left q
    | cons b bs ih => exact ⟨least_nil_left q, ih (b :: q)⟩
  unfold firstRow
  rw [List.range_eq_range']
  exact hrange [] b

theorem rowOf_rowTail {p q bs : List Char} {c : Char} {diag left : Nat} {ups : List Nat}
    (habove : RowOf p q bs (diag :: ups)) (hleft : Least (c :: p) q left) :
    RowOf (c :: p) q bs (left :: rowTail c diag left bs ups) := by
  -- Each new entry is the left neighbour of the next one, so `left` changes along the row.
  induction bs generalizing q diag left ups with
  | nil =>
    cases ups with
    | nil => exact hleft
    | cons => exact habove.elim
  | cons b bs ih =>
    obtain ⟨hdiag, habove⟩ := habove
    cases ups with
    | nil => cases bs <;> exact habove.elim
    | cons up ups => exact ⟨hleft, ih habove (least_cons_cons habove.head hleft hdiag)⟩

/-- The row after one more character, if the row before it holds the least costs. -/
theorem rowOf_nextRow {p b : List Char} {row : List Nat} (c : Char) (h : RowOf p [] b row) :
    RowOf (c :: p) [] b (nextRow b row c) := by
  cases row with
  | nil => cases b <;> exact h.elim
  | cons d ds => exact rowOf_rowTail h (least_cons_nil c h.head)

theorem rowOf_foldl {p b : List Char} {row : List Nat} (a : List Char) (h : RowOf p [] b row) :
    RowOf (a.reverse ++ p) [] b (a.foldl (nextRow b) row) := by
  induction a generalizing p row with
  | nil => exact h
  | cons c a ih =>
    rw [List.reverse_cons, List.append_assoc]
    exact ih (rowOf_nextRow c h)

/-- The last entry of a row stands for the whole second text. -/
theorem RowOf.getLast {p q bs : List Char} {row : List Nat} (h : RowOf p q bs row) :
    ∃ n, row.getLast? = some n ∧ Least p (bs.reverse ++ q) n := by
  induction bs generalizing q row with
  | nil =>
    match row with
    | [n] => exact ⟨n, rfl, h⟩
  | cons b bs ih =>
    match row with
    | n :: row =>
      obtain ⟨last, hlast, hleast⟩ := ih h.2
      refine ⟨last, ?_, ?_⟩
      · rw [List.getLast?_cons, hlast]
        rfl
      · rw [List.reverse_cons, List.append_assoc]
        exact hleast

/-! ## Distances -/

theorem least_editDistance (a b : List Char) : Least a b (editDistance a b) := by
  obtain ⟨n, hlast, hleast⟩ := (rowOf_foldl a (rowOf_firstRow b)).getLast
  have hn : editDistance a b = n := by
    unfold editDistance
    rw [hlast, Option.getD_some]
  rw [List.append_nil, List.append_nil] at hleast
  simpa [hn] using hleast.reverse

/-- **The edit distance is the least number of edits.** Some script with as many edits of single
characters turns one text into the other, and no script with fewer does. So the distance is the same
both ways, is zero only between equal texts, and a way over a third text is no shorter. -/
theorem editDistance_least_script (a b c : List Char) :
    (∃ script, script.length = editDistance a b ∧ Edit.makeAll? script a = some b) ∧
    (∀ script, Edit.makeAll? script a = some b → editDistance a b ≤ script.length) ∧
    editDistance a b = editDistance b a ∧
    (editDistance a b = 0 ↔ a = b) ∧
    editDistance a c ≤ editDistance a b + editDistance b c := by
  have hab := least_editDistance a b
  have hba := least_editDistance b a
  have hscript := exists_script hab.reached
  have hleast : ∀ script, Edit.makeAll? script a = some b →
      editDistance a b ≤ script.length := by
    intro script hmake
    obtain ⟨n, hn, hal⟩ := exists_alignment hmake
    exact Nat.le_trans (hab.least n hal) hn
  refine ⟨hscript, hleast, ?_, ⟨fun hzero => ?_, fun heq => ?_⟩, ?_⟩
  · exact Nat.le_antisymm (hab.least _ hba.reached.symm) (hba.least _ hab.reached.symm)
  · obtain ⟨script, hlength, hmake⟩ := hscript
    rw [hzero, List.length_eq_zero_iff] at hlength
    rw [hlength] at hmake
    exact Option.some.inj hmake
  · subst heq
    exact Nat.le_zero.mp (hab.least 0 (Alignment.refl a))
  · obtain ⟨k, hk, hal⟩ := hab.reached.trans (least_editDistance b c).reached
    exact Nat.le_trans ((least_editDistance a c).least k hal) hk

/-- Three edits are enough, and the third text is one edit away from the second one. -/
theorem editDistance_least_script_sitting :
    Edit.makeAll? [.substitution 0 's', .substitution 4 'i', .insertion 6 'g'] "kitten".toList =
        some "sitting".toList ∧
      editDistance "kitten".toList "sitting".toList ≤ 3 ∧
      editDistance "kitten".toList "sittings".toList ≤ 4 := by
  have hedits : Edit.makeAll? [.substitution 0 's', .substitution 4 'i', .insertion 6 'g']
      "kitten".toList = some "sitting".toList := by decide
  have hmore : Edit.makeAll? [.insertion 7 's'] "sitting".toList = some "sittings".toList := by
    decide
  obtain ⟨-, hleast, -, -, htriangle⟩ :=
    editDistance_least_script "kitten".toList "sitting".toList "sittings".toList
  have hnext := (editDistance_least_script "sitting".toList "sittings".toList []).2.1 _ hmore
  have hthree := hleast _ hedits
  exact ⟨hedits, hthree, Nat.le_trans htriangle (Nat.add_le_add hthree hnext)⟩

example : editDistance "kitten".toList "sitting".toList = 3 := by decide

end ImageLint.Suggestion
