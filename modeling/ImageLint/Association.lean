/-!
# Association lists

Lists of keys with values in which a key is looked up. `set` and `erase` keep at most one value for
each key, and what they do to the look-up is all there is to know about them.
-/

namespace ImageLint.Association

variable {κ α : Type} [DecidableEq κ]

/-- Takes a key out. -/
def erase (key : κ) (entries : List (κ × α)) : List (κ × α) := entries.filter (·.1 ≠ key)

/-- Gives a key a value, whether it had one or not. -/
def set (key : κ) (a : α) (entries : List (κ × α)) : List (κ × α) := (key, a) :: erase key entries

theorem lookup_cons (key : κ) (a : α) (entries : List (κ × α)) (other : κ) :
    ((key, a) :: entries).lookup other = if other = key then some a else entries.lookup other := by
  by_cases h : other = key
  · subst h
    simp
  · have : (other == key) = false := by simpa using h
    rw [List.lookup_cons, this, if_neg h]

/-- A key that has been taken out has no value, and the other keys have theirs. -/
theorem lookup_erase (key : κ) (entries : List (κ × α)) (other : κ) :
    (erase key entries).lookup other = if other = key then none else entries.lookup other := by
  induction entries with
  | nil => simp [erase]
  | cons p rest ih =>
    obtain ⟨k, a⟩ := p
    unfold erase at ih ⊢
    by_cases hk : k = key
    · subst hk
      rw [List.filter_cons_of_neg (by simp), ih, lookup_cons]
      split <;> rfl
    · rw [List.filter_cons_of_pos (by simpa using hk), lookup_cons, lookup_cons, ih]
      by_cases ho : other = k
      · subst ho
        simp [hk]
      · simp [ho]

/-- A key has the value that it was given last, and the other keys have theirs. -/
theorem lookup_set (key : κ) (a : α) (entries : List (κ × α)) (other : κ) :
    (set key a entries).lookup other = if other = key then some a else entries.lookup other := by
  unfold set
  rw [lookup_cons, lookup_erase]
  split <;> rfl

/-- The keys with a value. -/
def keys (entries : List (κ × α)) : List κ := entries.map (·.1)

omit [DecidableEq κ] in
@[simp] theorem keys_cons (p : κ × α) (entries : List (κ × α)) :
    keys (p :: entries) = p.1 :: keys entries := rfl

theorem mem_keys_erase (key : κ) (entries : List (κ × α)) (other : κ) :
    other ∈ keys (erase key entries) ↔ other ∈ keys entries ∧ other ≠ key := by
  simp only [keys, erase, List.mem_map, List.mem_filter]
  constructor
  · rintro ⟨p, ⟨hp, hk⟩, rfl⟩
    exact ⟨⟨p, hp, rfl⟩, by simpa using hk⟩
  · rintro ⟨⟨p, hp, rfl⟩, hk⟩
    exact ⟨p, ⟨hp, by simpa using hk⟩, rfl⟩

end ImageLint.Association
