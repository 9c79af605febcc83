import ImageLint.Validator.Loader

/-!
# One call of a loader

What each call of a loader can do, said once. The other modules on loaders use these statements and
do not unfold the calls again.

* `attempt_cases`: the four ways in which an attempt can end.
* `validatorOf_attempt`, `openings_attempt`, `id_attempt`: outcome, openings and number of an
  attempt.
* `loadStamped_hit`, `loadStamped_miss`: a load either repeats what is remembered or attempts.
* `entry?_loadStamped`, `entry?_forgetKey`: what is remembered afterwards. After every load, also
  after one that repeats an outcome, the loader remembers the time that was seen and the outcome.
-/

namespace ImageLint

open Host

/-! ## References -/

namespace Guards

variable (g : Guards) (id other : Nat)

@[simp] theorem opened_retain : (g.retain id).opened = g.opened := rfl

@[simp] theorem released_retain : (g.retain id).released = g.released := rfl

@[simp] theorem opened_acquire : g.acquire.2.opened = g.opened + 1 := rfl

@[simp] theorem released_acquire : g.acquire.2.released = g.released := rfl

@[simp] theorem opened_release : (g.release id).opened = g.opened := by
  unfold release
  split <;> rfl

theorem count_retain :
    (g.retain id).count other = if other = id then g.count id + 1 else g.count other :=
  count_setCount g id _ other

theorem count_acquire :
    g.acquire.2.count other = if other = g.opened then 1 else g.count other :=
  count_setCount g g.opened 1 other

theorem count_release :
    (g.release id).count other = if other = id then g.count id - 1 else g.count other := by
  unfold release
  split
  · rename_i h0
    split
    · rename_i ho
      rw [ho, h0]
    · rfl
  · rename_i h1
    exact (count_setCount g id 0 other).trans (by rw [h1])
  · rename_i n hn
    exact (count_setCount g id (n + 1) other).trans (by rw [hn]; rfl)

/-- The last reference to go releases the artifact, and no other reference does. -/
theorem released_release :
    (g.release id).released = if g.count id = 1 then g.released ++ [id] else g.released := by
  unfold release
  split
  · rename_i h0
    simp only [h0, Nat.zero_ne_one, if_false]
  · rename_i h1
    simp only [h1, if_true]
  · rename_i n hn
    have : n + 2 ≠ 1 := by omega
    simp only [hn, this, if_false]
    rfl

end Guards

/-! ## Attempts -/

/-- How opening the artifact at a path and making its validator ends. -/
def Opener.validator (opener : Opener) (key : NormalPath) : Except LoadError CustomValidator :=
  match opener key with
  | .ok a => a.instantiate key
  | .error e => .error e

namespace Loader

variable (l : Loader) (opener : Opener) (isPresent : Bool) (key other : NormalPath)
  (stamp : Option Int)

def validatorOf (o : LoadOutcome) : Except LoadError CustomValidator := o.map (·.validator)

/-- Whether an artifact is not there, so that it is not opened. -/
def isMissing (isPresent : Bool) (stamp : Option Int) : Bool := stamp.isNone && !isPresent

/-- The four ways in which an attempt can end: nothing is there, the artifact cannot be opened, its
validator cannot be made, or the validator is made. -/
theorem attempt_cases :
    (isMissing isPresent stamp = true ∧
      l.attempt opener isPresent key stamp = (l, .error (.missing key))) ∨
    (∃ e, isMissing isPresent stamp = false ∧ opener key = .error e ∧
      l.attempt opener isPresent key stamp =
        ({ l with openings := l.openings ++ [key] }, .error e)) ∨
    (∃ a e, isMissing isPresent stamp = false ∧ opener key = .ok a ∧
      a.instantiate key = .error e ∧
      l.attempt opener isPresent key stamp =
        (release { l with openings := l.openings ++ [key], guards := l.guards.acquire.2 }
          l.guards.opened, .error e)) ∨
    (∃ a v, isMissing isPresent stamp = false ∧ opener key = .ok a ∧
      a.instantiate key = .ok v ∧
      l.attempt opener isPresent key stamp =
        ({ l with openings := l.openings ++ [key], guards := l.guards.acquire.2 },
          .ok ⟨l.guards.opened, v⟩)) := by
  unfold attempt isMissing
  cases stamp.isNone && !isPresent with
  | true => exact .inl ⟨rfl, rfl⟩
  | false =>
    rw [if_neg Bool.false_ne_true]
    cases ho : opener key with
    | error e => exact .inr (.inl ⟨e, rfl, rfl, rfl⟩)
    | ok a =>
      cases hi : a.instantiate key with
      | error e => exact .inr (.inr (.inl ⟨a, e, rfl, rfl, hi, by simp only [hi]; rfl⟩))
      | ok v => exact .inr (.inr (.inr ⟨a, v, rfl, rfl, hi, by simp only [hi]; rfl⟩))

theorem validatorOf_attempt :
    validatorOf (l.attempt opener isPresent key stamp).2 =
      if isMissing isPresent stamp then .error (.missing key) else opener.validator key := by
  unfold Opener.validator
  rcases l.attempt_cases opener isPresent key stamp with ⟨hm, h⟩ | ⟨e, hm, ho, h⟩ |
    ⟨a, e, hm, ho, hi, h⟩ | ⟨a, v, hm, ho, hi, h⟩
  · rw [h, hm]; rfl
  · rw [h, hm, ho]; rfl
  · simp only [h, hm, ho, hi]; rfl
  · simp only [h, hm, ho, hi]; rfl

theorem openings_attempt :
    (l.attempt opener isPresent key stamp).1.openings =
      if isMissing isPresent stamp then l.openings else l.openings ++ [key] := by
  rcases l.attempt_cases opener isPresent key stamp with ⟨hm, h⟩ | ⟨e, hm, ho, h⟩ |
    ⟨a, e, hm, ho, hi, h⟩ | ⟨a, v, hm, ho, hi, h⟩ <;> rw [h, hm] <;> rfl

@[simp] theorem entries_attempt :
    (l.attempt opener isPresent key stamp).1.entries = l.entries := by
  rcases l.attempt_cases opener isPresent key stamp with ⟨hm, h⟩ | ⟨e, hm, ho, h⟩ |
    ⟨a, e, hm, ho, hi, h⟩ | ⟨a, v, hm, ho, hi, h⟩ <;> rw [h] <;> rfl

theorem id_attempt {h : Handle} (hh : (l.attempt opener isPresent key stamp).2 = .ok h) :
    h.id = l.guards.opened ∧
      (l.attempt opener isPresent key stamp).1.guards.opened = l.guards.opened + 1 := by
  rcases l.attempt_cases opener isPresent key stamp with ⟨hm, h⟩ | ⟨e, hm, ho, h⟩ |
    ⟨a, e, hm, ho, hi, h⟩ | ⟨a, v, hm, ho, hi, h⟩ <;> rw [h] at hh ⊢ <;> cases hh
  exact ⟨rfl, rfl⟩

theorem opened_attempt :
    (l.attempt opener isPresent key stamp).1.guards.opened =
      l.guards.opened + if !isMissing isPresent stamp && (opener key).isOk then 1 else 0 := by
  rcases l.attempt_cases opener isPresent key stamp with ⟨hm, h⟩ | ⟨e, hm, ho, h⟩ |
    ⟨a, e, hm, ho, hi, h⟩ | ⟨a, v, hm, ho, hi, h⟩
  · rw [h, hm]; rfl
  · rw [h, hm, ho]; rfl
  · rw [h, hm, ho]
    exact Guards.opened_release _ _
  · rw [h, hm, ho]; rfl

/-! ## References do not matter for what is remembered -/

@[simp] theorem entries_retain (o : LoadOutcome) : (l.retain o).entries = l.entries := by
  cases o <;> rfl

@[simp] theorem openings_retain (o : LoadOutcome) : (l.retain o).openings = l.openings := by
  cases o <;> rfl

@[simp] theorem entries_drop (o : LoadOutcome) : (l.drop o).entries = l.entries := by
  cases o <;> rfl

@[simp] theorem openings_drop (o : LoadOutcome) : (l.drop o).openings = l.openings := by
  cases o <;> rfl

@[simp] theorem opened_retain (o : LoadOutcome) :
    (l.retain o).guards.opened = l.guards.opened := by
  cases o <;> rfl

@[simp] theorem opened_drop (o : LoadOutcome) : (l.drop o).guards.opened = l.guards.opened := by
  cases o
  · rfl
  · exact Guards.opened_release _ _

@[simp] theorem journal_retain (o : LoadOutcome) : (l.retain o).journal = l.journal := by
  cases o <;> rfl

theorem entry?_retain (o : LoadOutcome) : Loader.entry? (l.retain o) other = l.entry? other := by
  unfold entry?
  rw [entries_retain]

theorem entry?_drop (o : LoadOutcome) : Loader.entry? (l.drop o) other = l.entry? other := by
  unfold entry?
  rw [entries_drop]

theorem entry?_attempt :
    Loader.entry? (l.attempt opener isPresent key stamp).1 other = l.entry? other := by
  unfold entry?
  rw [entries_attempt]

/-! ## Loads -/

def dropEntry (l : Loader) : Option CacheEntry → Loader
  | none => l
  | some e => l.drop e.outcome

@[simp] theorem entries_dropEntry (e : Option CacheEntry) :
    (l.dropEntry e).entries = l.entries := by
  cases e <;> simp [dropEntry]

theorem entry?_dropEntry (e : Option CacheEntry) :
    Loader.entry? (l.dropEntry e) other = l.entry? other := by
  unfold entry?
  rw [entries_dropEntry]

@[simp] theorem openings_dropEntry (e : Option CacheEntry) :
    (l.dropEntry e).openings = l.openings := by
  cases e <;> simp [dropEntry]

@[simp] theorem opened_dropEntry (e : Option CacheEntry) :
    (l.dropEntry e).guards.opened = l.guards.opened := by
  cases e <;> simp [dropEntry]

/-- Whether a load with the given time repeats what is remembered. -/
def IsHit (l : Loader) (key : NormalPath) (stamp : Option Int) : Prop :=
  ∃ e, l.entry? key = some e ∧ e.stamp = stamp

theorem outcome_reload (previous : Option CacheEntry) :
    (l.reload opener isPresent key stamp previous).outcome =
      (l.attempt opener isPresent key stamp).2 := by
  cases previous <;> rfl

/-- A new outcome is stored first, and what was remembered before is dropped then. -/
theorem loader_reload (previous : Option CacheEntry) :
    (l.reload opener isPresent key stamp previous).loader =
      ((l.attempt opener isPresent key stamp).1.remember key
        ⟨stamp, (l.attempt opener isPresent key stamp).2⟩).dropEntry previous := by
  cases previous <;> rfl

theorem loadStamped_hit {e : CacheEntry} (he : l.entry? key = some e) (hs : e.stamp = stamp) :
    l.loadStamped opener isPresent key stamp =
      { loader := l.retain e.outcome, outcome := e.outcome, log := [] } := by
  simp only [loadStamped, he, hs, if_true]

theorem loadStamped_miss (h : ¬ l.IsHit key stamp) :
    l.loadStamped opener isPresent key stamp =
      l.reload opener isPresent key stamp (l.entry? key) := by
  unfold loadStamped
  cases he : l.entry? key with
  | none => rfl
  | some e =>
    have hs : e.stamp ≠ stamp := fun hs => h ⟨e, he, hs⟩
    simp only [hs, if_false]

theorem outcome_miss (h : ¬ l.IsHit key stamp) :
    (l.loadStamped opener isPresent key stamp).outcome =
      (l.attempt opener isPresent key stamp).2 := by
  rw [l.loadStamped_miss opener isPresent key stamp h, outcome_reload]

theorem openings_miss (h : ¬ l.IsHit key stamp) :
    (l.loadStamped opener isPresent key stamp).loader.openings =
      if isMissing isPresent stamp then l.openings else l.openings ++ [key] := by
  rw [l.loadStamped_miss opener isPresent key stamp h, loader_reload, openings_dropEntry,
    ← openings_attempt l opener isPresent key stamp]
  exact openings_retain _ _

theorem opened_miss (h : ¬ l.IsHit key stamp) :
    (l.loadStamped opener isPresent key stamp).loader.guards.opened =
      (l.attempt opener isPresent key stamp).1.guards.opened := by
  rw [l.loadStamped_miss opener isPresent key stamp h, loader_reload, opened_dropEntry]
  exact opened_retain _ _

/-! ## What is remembered -/

theorem entry?_remember (e : CacheEntry) :
    Loader.entry? (l.remember key e) other = if other = key then some e else l.entry? other := by
  unfold remember entry?
  rw [Association.lookup_set]

/-- After a load the loader remembers what the load saw and how it ended. -/
theorem entry?_loadStamped :
    (l.loadStamped opener isPresent key stamp).loader.entry? other =
      if other = key then some ⟨stamp, (l.loadStamped opener isPresent key stamp).outcome⟩
      else l.entry? other := by
  by_cases h : l.IsHit key stamp
  · obtain ⟨e, he, rfl⟩ := h
    rw [l.loadStamped_hit opener isPresent key e.stamp he rfl]
    rw [entry?_retain]
    split
    · rename_i ho
      rw [ho]
      exact he
    · rfl
  · rw [l.loadStamped_miss opener isPresent key stamp h, loader_reload, outcome_reload]
    rw [entry?_dropEntry, entry?_remember, entry?_attempt]

theorem forgetKey_none (he : l.entry? key = none) : l.forgetKey key = (l, false) := by
  simp only [forgetKey, he]

theorem forgetKey_some {e : CacheEntry} (he : l.entry? key = some e) :
    l.forgetKey key = ((l.without key).drop e.outcome, true) := by
  simp only [forgetKey, he]

theorem entry?_without :
    Loader.entry? (l.without key) other = if other = key then none else l.entry? other :=
  Association.lookup_erase key l.entries other

theorem entry?_forgetKey :
    Loader.entry? (l.forgetKey key).1 other = if other = key then none else l.entry? other := by
  cases he : l.entry? key with
  | none =>
    rw [l.forgetKey_none key he]
    split
    · rename_i ho
      rw [ho, he]
    · rfl
  | some e =>
    rw [l.forgetKey_some key he, entry?_drop, entry?_without]

theorem answer_forgetKey : (l.forgetKey key).2 = (l.entry? key).isSome := by
  unfold forgetKey
  cases l.entry? key <;> rfl

theorem opened_forgetKey : (l.forgetKey key).1.guards.opened = l.guards.opened := by
  cases he : l.entry? key with
  | none => rw [l.forgetKey_none key he]
  | some e =>
    rw [l.forgetKey_some key he]
    exact opened_drop _ _

end Loader

end ImageLint
