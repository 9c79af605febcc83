import ImageLint.Variable.Unresolved
import Mathlib.Data.List.Forall2
import Mathlib.Logic.Basic

/-!
# Layers of bindings

Where several things assign values to names the last one wins. `LastOf` says what the last one is,
for anything that can assign a value to a name, and `Bindings.value_insertAll_iff` says that pairs
that are bound one after another follow it.
-/

namespace ImageLint

/-! ## The last assignment -/

section Last

variable {α β : Type} {assigns : α → String → String → Prop} {assigns' : β → String → String → Prop}

/-- Nothing assigns a value to a name. -/
def Silent (assigns : α → String → String → Prop) (xs : List α) (name : String) : Prop :=
  ∀ x ∈ xs, ∀ value, ¬ assigns x name value

/-- The last to assign a value to a name assigns `value`. -/
inductive LastOf (assigns : α → String → String → Prop) : List α → String → String → Prop where
  | here {x : α} {xs : List α} {name value : String} :
      assigns x name value → Silent assigns xs name → LastOf assigns (x :: xs) name value
  | later {x : α} {xs : List α} {name value : String} :
      LastOf assigns xs name value → LastOf assigns (x :: xs) name value

theorem silent_cons_iff {x : α} {xs : List α} {name : String} : Silent assigns (x :: xs) name ↔
    (∀ value, ¬ assigns x name value) ∧ Silent assigns xs name :=
  List.forall_mem_cons

theorem lastOf_cons_iff {x : α} {xs : List α} {name value : String} :
    LastOf assigns (x :: xs) name value ↔
      LastOf assigns xs name value ∨ assigns x name value ∧ Silent assigns xs name := by
  constructor
  · rintro (⟨hx, hxs⟩ | h)
    · exact Or.inr ⟨hx, hxs⟩
    · exact Or.inl h
  · rintro (h | ⟨hx, hxs⟩)
    · exact .later h
    · exact .here hx hxs

/-- Nothing assigns a value to a name exactly if nothing is the last to do so. -/
theorem silent_iff {xs : List α} {name : String} :
    Silent assigns xs name ↔ ∀ value, ¬ LastOf assigns xs name value := by
  induction xs with
  | nil => exact iff_of_true (List.forall_mem_nil _) fun _ h => nomatch h
  | cons x xs ih =>
    simp only [silent_cons_iff, lastOf_cons_iff, not_or, forall_and, ← ih]
    constructor
    · rintro ⟨hx, hxs⟩
      exact ⟨hxs, fun value h => hx value h.1⟩
    · rintro ⟨hxs, hx⟩
      exact ⟨fun value h => hx value ⟨h, hxs⟩, hxs⟩

/-- What assigns the same values one by one assigns the same last values. -/
theorem lastOf_congr {xs : List α} {ys : List β}
    (h : List.Forall₂ (fun x y => ∀ name value, assigns x name value ↔ assigns' y name value) xs ys)
    (name : String) :
    (Silent assigns xs name ↔ Silent assigns' ys name) ∧
      ∀ value, LastOf assigns xs name value ↔ LastOf assigns' ys name value := by
  induction h with
  | nil => exact ⟨iff_of_true (List.forall_mem_nil _) (List.forall_mem_nil _),
      fun _ => iff_of_false (fun h => nomatch h) fun h => nomatch h⟩
  | cons hxy _ ih =>
    obtain ⟨hsilent, hlast⟩ := ih
    simp only [silent_cons_iff, lastOf_cons_iff, hxy, hsilent, hlast, implies_true, and_self]

end Last

/-- A pair binds its first text to its second. -/
def Binds (pair : String × String) (name value : String) : Prop := pair = (name, value)

namespace Bindings

/-- Of the pairs that are bound one after another the last wins. -/
theorem value_insertAll_iff (b : Bindings) (pairs : List (String × String)) (name value : String) :
    (b.insertAll pairs).value name = some value ↔
      LastOf Binds pairs name value ∨ Silent Binds pairs name ∧ b.value name = some value := by
  induction pairs generalizing b with
  | nil => exact ⟨fun h => Or.inr ⟨List.forall_mem_nil _, h⟩, fun h => h.elim nofun And.right⟩
  | cons pair pairs ih =>
    obtain ⟨key, bound⟩ := pair
    have hcons : b.insertAll ((key, bound) :: pairs) = (b.insert (key, bound)).insertAll pairs := rfl
    rw [hcons, ih, value_insert, lastOf_cons_iff, silent_cons_iff, or_assoc]
    refine or_congr_right ?_
    by_cases hname : name = key
    · subst hname
      simp [Binds, and_comm]
    · have hother : ∀ value, ¬ Binds (key, bound) name value :=
        fun _ h => hname (Prod.mk.inj h).1.symm
      simp [hname, hother]

end Bindings

end ImageLint
