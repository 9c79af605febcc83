/-!
# Edits of a text

A text is turned into another one by edits of single characters, made one after another. The edits of
a script may come in any order and undo each other. An alignment has no order: it sets two texts side
by side, and every character is kept, replaced, left out or new.

* `exists_script`: what an alignment costs, a script can do.
* `Alignment.trans`: alignments follow one another, at the sum of their costs or less.
* `exists_alignment`: so no script does better than some alignment.
-/

namespace ImageLint.Suggestion

/-! ## Scripts -/

/-- An edit at a place of a text. The first place is 0. -/
inductive Edit where
  | insertion (place : Nat) (c : Char)
  | deletion (place : Nat)
  | substitution (place : Nat) (c : Char)
  deriving DecidableEq, Repr

namespace Edit

/-- Makes an edit, if the text has the place. -/
def make? : Edit → List Char → Option (List Char)
  | .insertion n c, cs => if n ≤ cs.length then some (cs.insertIdx n c) else none
  | .deletion n, cs => if n < cs.length then some (cs.eraseIdx n) else none
  | .substitution n c, cs => if n < cs.length then some (cs.set n c) else none

/-- The same edit one place later. -/
def later : Edit → Edit
  | .insertion n c => .insertion (n + 1) c
  | .deletion n => .deletion (n + 1)
  | .substitution n c => .substitution (n + 1) c

theorem make?_later (e : Edit) (c : Char) (cs : List Char) :
    e.later.make? (c :: cs) = (e.make? cs).map (c :: ·) := by
  cases e with
  | insertion n d =>
    simp only [later, make?, List.length_cons, Nat.add_le_add_iff_right, List.insertIdx_succ_cons]
    split <;> rfl
  | deletion n =>
    simp only [later, make?, List.length_cons, Nat.add_lt_add_iff_right, List.eraseIdx_cons_succ]
    split <;> rfl
  | substitution n d =>
    simp only [later, make?, List.length_cons, Nat.add_lt_add_iff_right, List.set_cons_succ]
    split <;> rfl

theorem make?_later_nil (e : Edit) : e.later.make? [] = none := by
  cases e <;> rfl

/-- An edit is made at the first place, or one place later than another one. -/
theorem first_or_later (e : Edit) :
    (∃ c, e = .insertion 0 c) ∨ e = .deletion 0 ∨ (∃ c, e = .substitution 0 c) ∨
      ∃ e' : Edit, e = e'.later := by
  match e with
  | .insertion 0 c => exact Or.inl ⟨c, rfl⟩
  | .deletion 0 => exact Or.inr (Or.inl rfl)
  | .substitution 0 c => exact Or.inr (Or.inr (Or.inl ⟨c, rfl⟩))
  | .insertion (n + 1) c => exact Or.inr (Or.inr (Or.inr ⟨.insertion n c, rfl⟩))
  | .deletion (n + 1) => exact Or.inr (Or.inr (Or.inr ⟨.deletion n, rfl⟩))
  | .substitution (n + 1) c => exact Or.inr (Or.inr (Or.inr ⟨.substitution n c, rfl⟩))

theorem make?_insertion_zero (c : Char) (cs : List Char) :
    (Edit.insertion 0 c).make? cs = some (c :: cs) := by
  simp [make?]

theorem make?_deletion_zero (c : Char) (cs : List Char) :
    (Edit.deletion 0).make? (c :: cs) = some cs := by
  simp [make?]

theorem make?_substitution_zero (c d : Char) (cs : List Char) :
    (Edit.substitution 0 d).make? (c :: cs) = some (d :: cs) := by
  simp [make?]

/-- Makes the edits of a script one after another. -/
def makeAll? (script : List Edit) (cs : List Char) : Option (List Char) :=
  script.foldlM (fun cs e => e.make? cs) cs

theorem makeAll?_cons (e : Edit) (script : List Edit) (cs : List Char) :
    makeAll? (e :: script) cs = (e.make? cs).bind (makeAll? script) := rfl

theorem makeAll?_map_later (script : List Edit) (c : Char) (cs : List Char) :
    makeAll? (script.map later) (c :: cs) = (makeAll? script cs).map (c :: ·) := by
  induction script generalizing cs with
  | nil => rfl
  | cons e script ih =>
    rw [List.map_cons, makeAll?_cons, makeAll?_cons, make?_later]
    cases e.make? cs with
    | none => rfl
    | some ds => exact ih ds

end Edit

/-! ## Alignments -/

/-- Two texts side by side, and the number of characters that are not kept. -/
inductive Alignment : List Char → List Char → Nat → Prop
  | nil : Alignment [] [] 0
  | kept {as bs n} (c : Char) : Alignment as bs n → Alignment (c :: as) (c :: bs) n
  | replaced {as bs n} (a b : Char) : Alignment as bs n → Alignment (a :: as) (b :: bs) (n + 1)
  | leftOut {as bs n} (a : Char) : Alignment as bs n → Alignment (a :: as) bs (n + 1)
  | new {as bs n} (b : Char) : Alignment as bs n → Alignment as (b :: bs) (n + 1)

namespace Alignment

variable {as bs cs ds : List Char} {m n : Nat}

theorem refl (as : List Char) : Alignment as as 0 := by
  induction as with
  | nil => exact nil
  | cons a as ih => exact ih.kept a

theorem symm (h : Alignment as bs n) : Alignment bs as n := by
  induction h with
  | nil => exact nil
  | kept c _ ih => exact ih.kept c
  | replaced a b _ ih => exact ih.replaced b a
  | leftOut a _ ih => exact ih.new a
  | new b _ ih => exact ih.leftOut b

theorem append (h : Alignment as bs m) (h' : Alignment cs ds n) :
    Alignment (as ++ cs) (bs ++ ds) (m + n) := by
  induction h with
  | nil => rwa [Nat.zero_add]
  | kept c _ ih => exact ih.kept c
  | replaced a b _ ih => exact Nat.succ_add _ n ▸ ih.replaced a b
  | leftOut a _ ih => exact Nat.succ_add _ n ▸ ih.leftOut a
  | new b _ ih => exact Nat.succ_add _ n ▸ ih.new b

theorem reverse (h : Alignment as bs n) : Alignment as.reverse bs.reverse n := by
  induction h with
  | nil => exact nil
  | kept c _ ih => simpa using ih.append (refl [c])
  | replaced a b _ ih => simpa using ih.append (nil.replaced a b)
  | leftOut a _ ih => simpa using ih.append (nil.leftOut a)
  | new b _ ih => simpa using ih.append (nil.new b)

theorem length_of_nil_left (h : Alignment [] bs n) : n = bs.length := by
  induction bs generalizing n with
  | nil => cases h; rfl
  | cons b bs ih =>
    cases h with
    | new _ h => rw [ih h, List.length_cons]

theorem news (bs : List Char) (h : Alignment as cs n) :
    Alignment as (bs ++ cs) (bs.length + n) := by
  have hnews : Alignment [] bs bs.length := by
    induction bs with
    | nil => exact nil
    | cons b bs ih => exact ih.new b
  exact hnews.append h

/-- In front of what becomes of the first character there are only new ones. -/
theorem cons_cases {a : Char} (h : Alignment (a :: as) bs n) :
    ∃ front rest k, Alignment as rest k ∧
      ((bs = front ++ rest ∧ n = front.length + (k + 1)) ∨
       (bs = front ++ a :: rest ∧ n = front.length + k) ∨
       ∃ b, bs = front ++ b :: rest ∧ n = front.length + (k + 1)) := by
  -- Only a new character may stand in front of what becomes of `a`. It goes to `front`, and the
  -- induction goes on; in every other case `front` is empty.
  generalize hs : a :: as = source at h
  induction h with
  | nil => cases hs
  | @kept _ rest k c h =>
    cases hs
    exact ⟨[], rest, k, h, Or.inr (Or.inl ⟨rfl, (Nat.zero_add k).symm⟩)⟩
  | @replaced _ rest k c b h =>
    cases hs
    exact ⟨[], rest, k, h, Or.inr (Or.inr ⟨b, rfl, (Nat.zero_add (k + 1)).symm⟩)⟩
  | @leftOut _ rest k c h =>
    cases hs
    exact ⟨[], rest, k, h, Or.inl ⟨rfl, (Nat.zero_add (k + 1)).symm⟩⟩
  | new b _ ih =>
    obtain ⟨front, rest, k, h, hcase⟩ := ih hs
    refine ⟨b :: front, rest, k, h, ?_⟩
    rcases hcase with ⟨rfl, rfl⟩ | ⟨rfl, rfl⟩ | ⟨c, rfl, rfl⟩
    · exact Or.inl ⟨rfl, (Nat.succ_add _ _).symm⟩
    · exact Or.inr (Or.inl ⟨rfl, (Nat.succ_add _ _).symm⟩)
    · exact Or.inr (Or.inr ⟨c, rfl, (Nat.succ_add _ _).symm⟩)

/-- Alignments follow one another, and what they cost together is enough. -/
theorem trans (h : Alignment as bs m) (h' : Alignment bs cs n) :
    ∃ k ≤ m + n, Alignment as cs k := by
  -- The second alignment is cut behind what becomes of the character that the first one put there.
  induction h generalizing cs n with
  | nil => exact ⟨n, Nat.le_add_left n 0, h'⟩
  | leftOut a _ ih =>
    obtain ⟨k, hk, h⟩ := ih h'
    exact ⟨k + 1, by omega, h.leftOut a⟩
  | kept c _ ih =>
    obtain ⟨front, rest, _, hrest, hcase⟩ := h'.cons_cases
    obtain ⟨k, hk, h⟩ := ih hrest
    rcases hcase with ⟨rfl, rfl⟩ | ⟨rfl, rfl⟩ | ⟨d, rfl, rfl⟩
    · exact ⟨_, by omega, (h.leftOut c).news front⟩
    · exact ⟨_, by omega, (h.kept c).news front⟩
    · exact ⟨_, by omega, (h.replaced c d).news front⟩
  | replaced a b _ ih =>
    obtain ⟨front, rest, _, hrest, hcase⟩ := h'.cons_cases
    obtain ⟨k, hk, h⟩ := ih hrest
    rcases hcase with ⟨rfl, rfl⟩ | ⟨rfl, rfl⟩ | ⟨d, rfl, rfl⟩
    · exact ⟨_, by omega, (h.leftOut a).news front⟩
    · exact ⟨_, by omega, (h.replaced a b).news front⟩
    · exact ⟨_, by omega, (h.replaced a d).news front⟩
  | new b _ ih =>
    obtain ⟨front, rest, _, hrest, hcase⟩ := h'.cons_cases
    obtain ⟨k, hk, h⟩ := ih hrest
    rcases hcase with ⟨rfl, rfl⟩ | ⟨rfl, rfl⟩ | ⟨d, rfl, rfl⟩
    · exact ⟨_, by omega, h.news front⟩
    · exact ⟨_, by omega, (h.new b).news front⟩
    · exact ⟨_, by omega, (h.new d).news front⟩

end Alignment

/-! ## Scripts and alignments -/

section

variable {as bs : List Char} {n : Nat}

theorem exists_script (h : Alignment as bs n) :
    ∃ script : List Edit, script.length = n ∧ Edit.makeAll? script as = some bs := by
  induction h with
  | nil => exact ⟨[], rfl, rfl⟩
  | kept c _ ih =>
    obtain ⟨script, hlength, hmake⟩ := ih
    refine ⟨script.map Edit.later, by rw [List.length_map, hlength], ?_⟩
    rw [Edit.makeAll?_map_later, hmake]
    rfl
  | replaced a b _ ih =>
    obtain ⟨script, hlength, hmake⟩ := ih
    refine ⟨.substitution 0 b :: script.map Edit.later, by simp [hlength], ?_⟩
    rw [Edit.makeAll?_cons, Edit.make?_substitution_zero, Option.bind_some,
      Edit.makeAll?_map_later, hmake]
    rfl
  | leftOut a _ ih =>
    obtain ⟨script, hlength, hmake⟩ := ih
    refine ⟨.deletion 0 :: script, by simp [hlength], ?_⟩
    rw [Edit.makeAll?_cons, Edit.make?_deletion_zero, Option.bind_some, hmake]
  | new b _ ih =>
    obtain ⟨script, hlength, hmake⟩ := ih
    refine ⟨.insertion 0 b :: script.map Edit.later, by simp [hlength], ?_⟩
    rw [Edit.makeAll?_cons, Edit.make?_insertion_zero, Option.bind_some,
      Edit.makeAll?_map_later, hmake]
    rfl

/-- A single edit is an alignment in which one character is not kept. -/
theorem alignment_of_make? {e : Edit} (h : e.make? as = some bs) : Alignment as bs 1 := by
  induction as generalizing e bs with
  | nil =>
    rcases e.first_or_later with ⟨c, rfl⟩ | rfl | ⟨c, rfl⟩ | ⟨e, rfl⟩
    · rw [Edit.make?_insertion_zero] at h
      cases h
      exact Alignment.nil.new c
    · cases h
    · cases h
    · rw [Edit.make?_later_nil] at h
      cases h
  | cons a as ih =>
    rcases e.first_or_later with ⟨c, rfl⟩ | rfl | ⟨c, rfl⟩ | ⟨e, rfl⟩
    · rw [Edit.make?_insertion_zero] at h
      cases h
      exact (Alignment.refl _).new c
    · rw [Edit.make?_deletion_zero] at h
      cases h
      exact (Alignment.refl _).leftOut a
    · rw [Edit.make?_substitution_zero] at h
      cases h
      exact (Alignment.refl _).replaced a c
    · -- An edit at a later place keeps the first character.
      rw [Edit.make?_later] at h
      obtain ⟨cs, hmake, rfl⟩ := Option.map_eq_some_iff.mp h
      exact (ih hmake).kept a

theorem exists_alignment {script : List Edit} (h : Edit.makeAll? script as = some bs) :
    ∃ n ≤ script.length, Alignment as bs n := by
  induction script generalizing as with
  | nil =>
    cases h
    exact ⟨0, Nat.le_refl 0, Alignment.refl _⟩
  | cons e script ih =>
    rw [Edit.makeAll?_cons, Option.bind_eq_some_iff] at h
    obtain ⟨cs, hfirst, hrest⟩ := h
    obtain ⟨n, hn, hal⟩ := ih hrest
    obtain ⟨k, hk, hboth⟩ := (alignment_of_make? hfirst).trans hal
    exact ⟨k, by rw [List.length_cons]; omega, hboth⟩

end

end ImageLint.Suggestion
