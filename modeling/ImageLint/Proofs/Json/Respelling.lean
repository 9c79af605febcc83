import Mathlib.Data.List.Forall2
import ImageLint.Proofs.Json.Reading

/-!
# Values that say the same

A value is respelled when, at each of its objects, members change places, members are left out that
hold what a missing member stands for, and members with names of their own are added. What a
missing member stands for depends on its name alone: `defaults` says so.

Respelling keeps a value legible, and takes its shape from the outermost constructor of the value.
-/

namespace ImageLint.Json

/-- A text, a truth value, an integer of 64 bits or `null`. -/
def Plain (v : Json) : Prop := Legible 0 v

theorem Plain.legible {v : Json} (h : Plain v) (depth : Nat) : Legible depth v := by
  cases v with
  | array vs => exact h.elim
  | object ms => exact h.elim
  | number n => exact legible_number.mpr (legible_number.mp h)
  | null | bool | string => simp

/-- What becomes of the members of an object in their order: a member is kept, with a value that `R`
allows, or it is left out when it holds what its absence stands for. -/
inductive Kept (defaults : String → Option Json) (R : Json → Json → Prop) :
    List (String × Json) → List (String × Json) → Prop where
  | nil : Kept defaults R [] []
  | keep {name : String} {v w : Json} {ms ks : List (String × Json)} :
      R v w → Kept defaults R ms ks → Kept defaults R ((name, v) :: ms) ((name, w) :: ks)
  | drop {name : String} {v : Json} {ms ks : List (String × Json)} :
      defaults name = some v → Kept defaults R ms ks → Kept defaults R ((name, v) :: ms) ks

/-- The second value says the same as the first. -/
inductive Respelled (defaults : String → Option Json) : Json → Json → Prop where
  | null : Respelled defaults .null .null
  | bool (b : Bool) : Respelled defaults (.bool b) (.bool b)
  | number (n : Number) : Respelled defaults (.number n) (.number n)
  | string (s : String) : Respelled defaults (.string s) (.string s)
  | array {vs ws : List Json} :
      List.Forall₂ (Respelled defaults) vs ws → Respelled defaults (.array vs) (.array ws)
  | object {ms ks extra ns : List (String × Json)} :
      Kept defaults (Respelled defaults) ms ks →
      (∀ e ∈ extra, e.1 ∉ ms.map Prod.fst ∧ Plain e.2) →
      ns.Perm (ks ++ extra) → Respelled defaults (.object ms) (.object ns)

variable {defaults : String → Option Json}

namespace Kept

variable {R : Json → Json → Prop} {ms ks : List (String × Json)}

/-- What is kept comes from a member with the same name. -/
theorem exists_of_mem (h : Kept defaults R ms ks) {k : String × Json} (hk : k ∈ ks) :
    ∃ v, (k.1, v) ∈ ms ∧ R v k.2 := by
  induction h with
  | nil => cases hk
  | @keep name v w ms ks hR _ ih =>
    rcases List.mem_cons.mp hk with rfl | hk
    · exact ⟨v, List.mem_cons_self, hR⟩
    · obtain ⟨u, hu, hR'⟩ := ih hk
      exact ⟨u, List.mem_cons_of_mem _ hu, hR'⟩
  | drop _ _ ih =>
    obtain ⟨u, hu, hR'⟩ := ih hk
    exact ⟨u, List.mem_cons_of_mem _ hu, hR'⟩

/-- A member is kept, or its absence stands for its value. -/
theorem kept_or_default (h : Kept defaults R ms ks) {m : String × Json} (hm : m ∈ ms) :
    (∃ w, (m.1, w) ∈ ks) ∨ defaults m.1 = some m.2 := by
  induction h with
  | nil => cases hm
  | @keep name v w ms ks _ _ ih =>
    rcases List.mem_cons.mp hm with rfl | hm
    · exact .inl ⟨w, List.mem_cons_self⟩
    · rcases ih hm with ⟨u, hu⟩ | hd
      · exact .inl ⟨u, List.mem_cons_of_mem _ hu⟩
      · exact .inr hd
  | drop hd _ ih =>
    rcases List.mem_cons.mp hm with rfl | hm
    · exact .inr hd
    · exact ih hm

/-- The kept names stand in their old order. -/
theorem names_sublist (h : Kept defaults R ms ks) :
    (ks.map Prod.fst).Sublist (ms.map Prod.fst) := by
  induction h with
  | nil => exact .slnil
  | keep _ _ ih => exact ih.cons_cons _
  | drop _ _ ih => exact ih.cons _

end Kept

namespace Respelled

mutual

/-- A value says the same as itself. -/
theorem refl : ∀ v : Json, Respelled defaults v v
  | .null => .null
  | .bool b => .bool b
  | .number n => .number n
  | .string s => .string s
  | .array items => .array (refl_items items)
  | .object members =>
    .object (refl_members members) (List.forall_mem_nil _) (.of_eq (List.append_nil members).symm)

theorem refl_items : ∀ vs : List Json, List.Forall₂ (Respelled defaults) vs vs
  | [] => .nil
  | v :: vs => .cons (refl v) (refl_items vs)

theorem refl_members : ∀ ms : List (String × Json), Kept defaults (Respelled defaults) ms ms
  | [] => .nil
  | (_, v) :: ms => .keep (refl v) (refl_members ms)

end

theorem eq_string {s : String} {w : Json} (h : Respelled defaults (.string s) w) :
    w = .string s := by
  cases h
  rfl

theorem eq_bool {b : Bool} {w : Json} (h : Respelled defaults (.bool b) w) : w = .bool b := by
  cases h
  rfl

theorem eq_nat {n : Nat} {w : Json} (h : Respelled defaults (.nat n) w) : w = .nat n := by
  cases h
  rfl

/-- Only `null` is respelled as `null`. -/
theorem eq_null_iff {v w : Json} (h : Respelled defaults v w) : w = .null ↔ v = .null := by
  cases h <;> simp

theorem exists_of_mem_forall₂ {vs ws : List Json} (h : List.Forall₂ (Respelled defaults) vs ws)
    {w : Json} (hw : w ∈ ws) : ∃ v ∈ vs, Respelled defaults v w := by
  induction h with
  | nil => cases hw
  | @cons v u vs us hvu _ ih =>
    rcases List.mem_cons.mp hw with rfl | hw
    · exact ⟨v, List.mem_cons_self, hvu⟩
    · obtain ⟨x, hx, hxw⟩ := ih hw
      exact ⟨x, List.mem_cons_of_mem _ hx, hxw⟩

/-- Respelling adds no depth and no numbers that do not fit. -/
theorem legible : ∀ {depth : Nat} {v w : Json}, Respelled defaults v w → Legible depth v →
    Legible depth w
  | _, _, _, .null, h => h
  | _, _, _, .bool _, h => h
  | _, _, _, .number _, h => h
  | _, _, _, .string _, h => h
  | depth + 1, _, _, .array items, h => by
    intro w hw
    obtain ⟨v, hv, hvw⟩ := exists_of_mem_forall₂ items hw
    exact legible hvw (h v hv)
  | depth + 1, _, _, .object kept extra perm, h => by
    intro n hn
    rcases List.mem_append.mp (perm.mem_iff.mp hn) with hk | he
    · obtain ⟨v, hv, hvw⟩ := kept.exists_of_mem hk
      exact legible hvw (h _ hv)
    · exact (extra n he).2.legible depth

end Respelled

end ImageLint.Json
