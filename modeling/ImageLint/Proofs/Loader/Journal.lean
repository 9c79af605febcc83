import ImageLint.Proofs.Loader.Step
import Mathlib.Data.List.Basic

/-!
# The journal of a loader

A journal is read from its beginning: at each point it tells which artifact is remembered of which
path, and the artifacts that it releases must not be among these. `Journaled` says that the journal
of a loader ends with what the loader has, and that nothing was released while it was remembered.

* `rememberedId`: what a journal tells of a path.
* `Journaled`: a loader and its journal.
* `Journaled.concat`: a step that writes one entry.
* `Journaled.retain`, `Journaled.release`, `Journaled.remember`, `Journaled.without`: it is kept by
  each of the steps that the calls consist of, by a release only if no path has the artifact.
-/

namespace ImageLint

open Host

namespace JournalEntry

/-- The artifact that is remembered of a path after an entry, if `now` was the one before. -/
def after (key : NormalPath) (now : Option Nat) : JournalEntry → Option Nat
  | .stored other id => if key = other then id else now
  | .erased other => if key = other then none else now
  | .released _ => now

/-- The artifact that an entry releases. -/
def released? : JournalEntry → Option Nat
  | .released id => some id
  | _ => none

end JournalEntry

namespace Loader

section

/-- The artifact that is remembered of a path at the end of a journal. -/
def rememberedId (journal : List JournalEntry) (key : NormalPath) : Option Nat :=
  journal.foldl (fun now x => x.after key now) none

/-- The artifacts that are released in a journal, in order. -/
def releasedIn (journal : List JournalEntry) : List Nat := journal.filterMap (·.released?)

/-- At no point of a journal an artifact is released that is remembered of a path. -/
def ReleasesInOrder (journal : List JournalEntry) : Prop :=
  ∀ before id after, journal = before ++ .released id :: after →
    ∀ key, rememberedId before key ≠ some id

variable {journal : List JournalEntry} {x : JournalEntry} {key other : NormalPath} {id : Nat}

theorem rememberedId_concat :
    rememberedId (journal ++ [x]) key = x.after key (rememberedId journal key) :=
  List.foldl_concat (fun now (x : JournalEntry) => x.after key now) none x journal

theorem releasedIn_concat :
    releasedIn (journal ++ [x]) = releasedIn journal ++ x.released?.toList := by
  unfold releasedIn
  rw [List.filterMap_append]
  cases x <;> rfl

theorem releasesInOrder_nil : ReleasesInOrder [] := by
  intro before id after h
  cases before <;> cases h

/-- One more entry has to be in order with the journal before it. -/
theorem releasesInOrder_concat (h : ReleasesInOrder journal)
    (hx : ∀ id, x = .released id → ∀ key, rememberedId journal key ≠ some id) :
    ReleasesInOrder (journal ++ [x]) := by
  intro before id after heq
  rcases List.eq_nil_or_concat' after with rfl | ⟨after, y, rfl⟩
  · obtain ⟨rfl, hlast⟩ := List.append_inj' heq rfl
    exact hx id (List.singleton_inj.mp hlast)
  · have heq' : journal ++ [x] = (before ++ .released id :: after) ++ [y] := by
      rw [heq, List.append_assoc, List.cons_append]
    obtain ⟨hjournal, -⟩ := List.append_inj' heq' rfl
    exact h before id after hjournal

/-! ## The journal of a loader -/

/-- The journal of a loader ends with what the loader remembers and has released, and nothing was
released while it was remembered. -/
structure Journaled (l : Loader) : Prop where
  remembered : ∀ key, rememberedId l.journal key = (l.entry? key).bind (·.outcome.id?)
  released : releasedIn l.journal = l.guards.released
  inOrder : ReleasesInOrder l.journal

variable {l l' : Loader}

theorem journaled_empty : empty.Journaled := ⟨fun _ => rfl, rfl, releasesInOrder_nil⟩

/-- The journal is about nothing else of a loader. -/
theorem Journaled.of_eq (h : l.Journaled) (hentries : l'.entries = l.entries)
    (hreleased : l'.guards.released = l.guards.released) (hjournal : l'.journal = l.journal) :
    l'.Journaled where
  remembered := by
    intro key
    unfold entry?
    rw [hjournal, hentries]
    exact h.remembered key
  released := by rw [hjournal, hreleased, h.released]
  inOrder := by
    rw [hjournal]
    exact h.inOrder

/-- One more entry, which has to say what the step does and to be in order. -/
theorem Journaled.concat (h : l.Journaled) (hjournal : l'.journal = l.journal ++ [x])
    (hentries : ∀ key, (l'.entry? key).bind (·.outcome.id?) =
      x.after key ((l.entry? key).bind (·.outcome.id?)))
    (hreleased : l'.guards.released = l.guards.released ++ x.released?.toList)
    (hx : ∀ id, x = .released id → ∀ key, (l.entry? key).bind (·.outcome.id?) ≠ some id) :
    l'.Journaled where
  remembered := by
    intro key
    rw [hjournal, rememberedId_concat, h.remembered, hentries]
  released := by rw [hjournal, releasedIn_concat, h.released, hreleased]
  inOrder := by
    rw [hjournal]
    refine releasesInOrder_concat h.inOrder fun id heq key => ?_
    rw [h.remembered]
    exact hx id heq key

theorem Journaled.retain (h : l.Journaled) (o : LoadOutcome) : (l.retain o).Journaled := by
  cases o with
  | ok handle => exact h.of_eq rfl rfl rfl
  | error e => exact h

/-- The last reference to an artifact may go when no path has the artifact any more. -/
theorem Journaled.release (h : l.Journaled)
    (hid : l.guards.count id = 1 → ∀ key, (l.entry? key).bind (·.outcome.id?) ≠ some id) :
    (l.release id).Journaled := by
  have hguards := Guards.released_release l.guards id
  by_cases hlast : l.guards.count id = 1
  · have hjournal : (l.release id).journal = l.journal ++ [.released id] := by
      simp [Loader.release, hlast]
    refine h.concat hjournal (fun _ => rfl) (hguards.trans (if_pos hlast)) fun id' heq => ?_
    cases heq
    exact hid hlast
  · have hjournal : (l.release id).journal = l.journal := by
      simp [Loader.release, hlast]
    exact h.of_eq rfl (hguards.trans (if_neg hlast)) hjournal

theorem Journaled.remember (h : l.Journaled) (key : NormalPath) (e : CacheEntry) :
    (l.remember key e).Journaled := by
  refine h.concat (x := .stored key e.outcome.id?) rfl (fun other => ?_) ?_ nofun
  · rw [entry?_remember]
    dsimp only [JournalEntry.after]
    split <;> rfl
  · unfold Loader.remember Loader.retain
    cases e.outcome <;> exact (List.append_nil _).symm

theorem Journaled.without (h : l.Journaled) (key : NormalPath) : (l.without key).Journaled := by
  refine h.concat (x := .erased key) rfl (fun other => ?_) (List.append_nil _).symm nofun
  rw [entry?_without]
  dsimp only [JournalEntry.after]
  split <;> rfl

end

/-! ## What the calls write -/

variable (l : Loader) (opener : Opener) (isPresent : Bool) (key : NormalPath)
  (stamp : Option Int)

theorem exists_journal_drop (o : LoadOutcome) :
    ∃ late, (l.drop o).journal = l.journal ++ late ∧
      ∀ x ∈ late, ∃ id, o.id? = some id ∧ x = .released id := by
  cases o with
  | error e => exact ⟨[], (List.append_nil _).symm, nofun⟩
  | ok h =>
    refine ⟨if l.guards.count h.id = 1 then [.released h.id] else [], rfl, ?_⟩
    intro x hx
    split at hx
    · exact ⟨h.id, rfl, List.mem_singleton.mp hx⟩
    · cases hx

theorem exists_journal_dropEntry (e : Option CacheEntry) :
    ∃ late, (l.dropEntry e).journal = l.journal ++ late ∧
      ∀ x ∈ late, ∃ id, e.bind (·.outcome.id?) = some id ∧ x = .released id := by
  cases e with
  | none => exact ⟨[], (List.append_nil _).symm, nofun⟩
  | some e => exact l.exists_journal_drop e.outcome

/-- An artifact whose validator cannot be made is released at once. -/
theorem journal_attempt_of_broken {a : Artifact} {e : LoadError}
    (hm : isMissing isPresent stamp = false) (ho : opener key = .ok a)
    (hi : a.instantiate key = .error e) :
    (l.attempt opener isPresent key stamp).1.journal =
      l.journal ++ [.released l.guards.opened] := by
  rcases l.attempt_cases opener isPresent key stamp with ⟨hm', -⟩ | ⟨e', -, ho', -⟩ |
    ⟨a', e', -, -, -, h⟩ | ⟨a', v, -, ho', hi', -⟩
  · rw [hm] at hm'
    cases hm'
  · rw [ho] at ho'
    cases ho'
  · have hcount : l.guards.acquire.2.count l.guards.opened = 1 := by
      rw [Guards.count_acquire, if_pos rfl]
    rw [h]
    simp [release, hcount]
  · rw [ho] at ho'
    cases ho'
    rw [hi] at hi'
    cases hi'

/-- An attempt releases nothing but the artifact that it has opened. -/
theorem exists_journal_attempt :
    ∃ early, (l.attempt opener isPresent key stamp).1.journal = l.journal ++ early ∧
      ∀ x ∈ early, x = .released l.guards.opened := by
  rcases l.attempt_cases opener isPresent key stamp with ⟨-, h⟩ | ⟨e, -, -, h⟩ |
    ⟨a, e, hm, ho, hi, -⟩ | ⟨a, v, -, -, -, h⟩
  · exact ⟨[], by rw [h, List.append_nil], nofun⟩
  · exact ⟨[], by rw [h, List.append_nil], nofun⟩
  · exact ⟨_, l.journal_attempt_of_broken opener isPresent key stamp hm ho hi,
      fun _ hx => List.mem_singleton.mp hx⟩
  · exact ⟨[], by rw [h, List.append_nil], nofun⟩

/-- A load that attempts stores its outcome between what the attempt writes and the release of what
was remembered before. -/
theorem exists_journal_miss (miss : ¬ l.IsHit key stamp) :
    ∃ late, (l.loadStamped opener isPresent key stamp).loader.journal =
        (l.attempt opener isPresent key stamp).1.journal ++
          .stored key (l.loadStamped opener isPresent key stamp).outcome.id? :: late ∧
      ∀ x ∈ late, ∃ id, (l.entry? key).bind (·.outcome.id?) = some id ∧ x = .released id := by
  rw [l.loadStamped_miss opener isPresent key stamp miss, loader_reload, outcome_reload]
  generalize l.attempt opener isPresent key stamp = attempted
  obtain ⟨l', o⟩ := attempted
  obtain ⟨late, hlate, hreleased⟩ :=
    (l'.remember key ⟨stamp, o⟩).exists_journal_dropEntry (l.entry? key)
  refine ⟨late, ?_, hreleased⟩
  rw [hlate]
  exact List.append_assoc ..

/-- What is forgotten is released after it has been erased. -/
theorem exists_journal_forgetKey {e : CacheEntry} (he : l.entry? key = some e) :
    ∃ late, (l.forgetKey key).1.journal = l.journal ++ .erased key :: late ∧
      ∀ x ∈ late, ∃ id, e.outcome.id? = some id ∧ x = .released id := by
  obtain ⟨late, hlate, hreleased⟩ := (l.without key).exists_journal_drop e.outcome
  refine ⟨late, ?_, hreleased⟩
  rw [l.forgetKey_some key he, hlate]
  exact List.append_assoc ..

theorem journal_prefix_loadStamped :
    l.journal <+: (l.loadStamped opener isPresent key stamp).loader.journal := by
  by_cases h : l.IsHit key stamp
  · obtain ⟨e, he, hs⟩ := h
    have hjournal : (l.loadStamped opener isPresent key stamp).loader.journal = l.journal := by
      rw [l.loadStamped_hit opener isPresent key stamp he hs, journal_retain]
    exact hjournal ▸ List.prefix_refl _
  · obtain ⟨early, hearly, -⟩ := l.exists_journal_attempt opener isPresent key stamp
    obtain ⟨late, hlate, -⟩ := l.exists_journal_miss opener isPresent key stamp h
    rw [hlate, hearly, List.append_assoc]
    exact List.prefix_append _ _

theorem journal_prefix_drop (o : LoadOutcome) : l.journal <+: (l.drop o).journal := by
  obtain ⟨late, hlate, -⟩ := l.exists_journal_drop o
  rw [hlate]
  exact List.prefix_append _ _

theorem journal_prefix_forgetKey : l.journal <+: (l.forgetKey key).1.journal := by
  cases he : l.entry? key with
  | none =>
    have hkept : (l.forgetKey key).1 = l := congrArg Prod.fst (l.forgetKey_none key he)
    exact hkept.symm ▸ List.prefix_refl _
  | some e =>
    obtain ⟨late, hlate, -⟩ := l.exists_journal_forgetKey key he
    rw [hlate]
    exact List.prefix_append _ _

end Loader

end ImageLint
