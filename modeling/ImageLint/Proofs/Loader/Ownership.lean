import ImageLint.Proofs.Loader.Journal
import ImageLint.Proofs.Loader.Run
import Mathlib.Data.List.Dedup
import Mathlib.Data.List.Perm.Basic

/-!
# Who holds on to artifacts

`Guards` counts references without knowing who holds them. Here the holders are listed: the entries
of a loader, and whoever has been given a handle. `Guards.Balanced` says that the counts are those
of a list of references, and each call is shown to keep the balance when the references that it
makes and drops are moved in and out of that list.

* `Guards.Balanced`: the ledger, with `balanced_retain`, `balanced_release`, `balanced_acquire`.
* `Accounted`: a loader whose entries and whose callers are all the holders there are, and whose
  journal agrees. It is kept by `accounted_release`, `accounted_attempt`, `accounted_remember`,
  `accounted_loadStamped` and `accounted_forgetKey`.
* `exists_journal_replaced`, `exists_journal_forgotten`: the order of storing or erasing an entry
  and releasing what it refers to.
* `accounted_after`: every run keeps `Accounted`.
* `resource_accounting`: artifacts are released once, and exactly when nobody refers to them, in no
  call before the entry has been replaced or is gone.
-/

namespace ImageLint

open Host

/-! ## The ledger of references -/

namespace Guards

/-- The counts are those of a list of references, and the released artifacts are those opened ones
to which there is none. -/
structure Balanced (g : Guards) (refs : List Nat) : Prop where
  count_eq : ∀ id, g.count id = refs.count id
  lt_opened : ∀ id ∈ refs, id < g.opened
  mem_released : ∀ id, id ∈ g.released ↔ id < g.opened ∧ id ∉ refs
  nodup : g.released.Nodup

variable {g : Guards} {refs refs' : List Nat} {id : Nat}

theorem balanced_empty : empty.Balanced [] where
  count_eq := fun _ => rfl
  lt_opened := by simp
  mem_released := by simp [empty]
  nodup := List.nodup_nil

theorem Balanced.perm (h : g.Balanced refs) (hp : refs.Perm refs') : g.Balanced refs' where
  count_eq := fun id => (h.count_eq id).trans (hp.count_eq id)
  lt_opened := fun id hid => h.lt_opened id (hp.mem_iff.mpr hid)
  mem_released := fun id => by rw [h.mem_released, hp.mem_iff]
  nodup := h.nodup

/-- Only an artifact that someone refers to can be referred to once more. -/
theorem balanced_retain (h : g.Balanced refs) (hid : id ∈ refs) :
    (g.retain id).Balanced (id :: refs) where
  count_eq := by
    intro other
    rw [count_retain, List.count_cons]
    by_cases ho : other = id
    · subst ho
      simp [h.count_eq]
    · simp [ho, Ne.symm ho, h.count_eq]
  lt_opened := by
    intro other ho
    rcases List.mem_cons.mp ho with rfl | ho
    · exact h.lt_opened _ hid
    · exact h.lt_opened _ ho
  mem_released := by
    intro other
    rw [released_retain, opened_retain, h.mem_released]
    have : other ∈ id :: refs ↔ other ∈ refs := by
      rw [List.mem_cons]
      constructor
      · rintro (rfl | ho)
        · exact hid
        · exact ho
      · exact Or.inr
    rw [this]
  nodup := h.nodup

theorem balanced_acquire (h : g.Balanced refs) : g.acquire.2.Balanced (g.opened :: refs) where
  count_eq := by
    intro other
    have hnew : g.opened ∉ refs := fun hm => Nat.lt_irrefl _ (h.lt_opened _ hm)
    rw [count_acquire, List.count_cons]
    by_cases ho : other = g.opened
    · subst ho
      simp [List.count_eq_zero.mpr hnew]
    · simp [ho, Ne.symm ho, h.count_eq]
  lt_opened := by
    intro other ho
    rw [opened_acquire]
    rcases List.mem_cons.mp ho with rfl | ho
    · exact Nat.lt_succ_self _
    · exact Nat.lt_succ_of_lt (h.lt_opened _ ho)
  mem_released := by
    intro other
    rw [released_acquire, opened_acquire, h.mem_released, List.mem_cons, not_or]
    constructor
    · rintro ⟨hlt, hn⟩
      exact ⟨by omega, by omega, hn⟩
    · rintro ⟨hlt, hne, hn⟩
      exact ⟨by omega, hn⟩
  nodup := h.nodup

theorem balanced_release (h : g.Balanced (id :: refs)) : (g.release id).Balanced refs where
  count_eq := by
    intro other
    rw [count_release, h.count_eq, h.count_eq]
    by_cases ho : other = id
    · subst ho
      simp
    · simp [ho, Ne.symm ho]
  lt_opened := by
    intro other ho
    rw [opened_release]
    exact h.lt_opened other (List.mem_cons_of_mem _ ho)
  mem_released := by
    intro other
    have hcount : g.count id = refs.count id + 1 := by rw [h.count_eq, List.count_cons_self]
    have hlt := h.lt_opened id List.mem_cons_self
    rw [released_release, opened_release, hcount]
    by_cases hid : id ∈ refs
    · have : refs.count id + 1 ≠ 1 := by
        have := List.count_pos_iff.mpr hid
        omega
      rw [if_neg this, h.mem_released, List.mem_cons, not_or]
      constructor
      · rintro ⟨ho, -, hn⟩
        exact ⟨ho, hn⟩
      · rintro ⟨ho, hn⟩
        exact ⟨ho, fun he => hn (he ▸ hid), hn⟩
    · rw [List.count_eq_zero.mpr hid, if_pos rfl, List.mem_append, List.mem_singleton,
        h.mem_released, List.mem_cons, not_or]
      constructor
      · rintro (⟨ho, -, hn⟩ | rfl)
        · exact ⟨ho, hn⟩
        · exact ⟨hlt, hid⟩
      · rintro ⟨ho, hn⟩
        by_cases he : other = id
        · exact Or.inr he
        · exact Or.inl ⟨ho, he, hn⟩
  nodup := by
    rw [released_release]
    split
    · refine List.nodup_append.mpr ⟨h.nodup, List.nodup_singleton _, ?_⟩
      intro other ho last hl he
      rw [List.mem_singleton] at hl
      subst he hl
      exact ((h.mem_released _).mp ho).2 List.mem_cons_self
    · exact h.nodup

/-- The artifacts that have been opened and not released. -/
def alive (g : Guards) : List Nat := (List.range g.opened).filter (· ∉ g.released)

/-- The artifacts that are alive are those that someone refers to. -/
theorem Balanced.alive_perm (h : g.Balanced refs) : g.alive.Perm refs.dedup := by
  refine (List.perm_ext_iff_of_nodup (List.nodup_range.filter _) (List.nodup_dedup _)).mpr ?_
  intro id
  rw [List.mem_filter, List.mem_range, decide_eq_true_iff, h.mem_released, List.mem_dedup]
  constructor
  · rintro ⟨hlt, hn⟩
    by_contra hid
    exact hn ⟨hlt, hid⟩
  · intro hid
    exact ⟨h.lt_opened id hid, fun hn => hn.2 hid⟩

end Guards

/-! ## Entries of a list with keys -/

namespace Association

variable {κ α : Type} [DecidableEq κ] {key : κ} {a : α} {entries : List (κ × α)}

theorem nodup_keys_erase (h : (keys entries).Nodup) : (keys (erase key entries)).Nodup :=
  h.sublist (List.filter_sublist.map _)

theorem nodup_keys_set (h : (keys entries).Nodup) : (keys (set key a entries)).Nodup := by
  unfold set
  rw [keys_cons, List.nodup_cons, mem_keys_erase]
  exact ⟨fun hm => hm.2 rfl, nodup_keys_erase h⟩

theorem erase_of_lookup_eq_none (h : entries.lookup key = none) : erase key entries = entries := by
  unfold erase
  rw [List.filter_eq_self]
  intro p hp
  have hk : key ≠ p.1 := by simpa using List.lookup_eq_none_iff.mp h p hp
  simpa using hk.symm

theorem perm_cons_erase (hn : (keys entries).Nodup) (h : entries.lookup key = some a) :
    entries.Perm ((key, a) :: erase key entries) := by
  induction entries with
  | nil => cases h
  | cons p rest ih =>
    obtain ⟨k, b⟩ := p
    rw [keys_cons, List.nodup_cons] at hn
    rw [lookup_cons] at h
    split at h
    · rename_i hk
      cases h
      subst hk
      have hrest : rest.lookup key = none := by
        rw [List.lookup_eq_none_iff]
        intro q hq
        have hq' : key ≠ q.1 := fun he => hn.1 (List.mem_map.mpr ⟨q, hq, he.symm⟩)
        simpa using hq'
      have herase : erase key ((key, a) :: rest) = erase key rest :=
        List.filter_cons_of_neg (by simp)
      rw [herase, erase_of_lookup_eq_none hrest]
    · rename_i hk
      have herase : erase key ((k, b) :: rest) = (k, b) :: erase key rest :=
        List.filter_cons_of_pos (by simpa using Ne.symm hk)
      rw [herase]
      exact ((ih hn.2 h).cons (k, b)).trans (.swap _ _ _)

end Association

/-! ## Loaders whose references are accounted for -/

namespace Loader

def ids (o : LoadOutcome) : List Nat := (handles o).map (·.id)

def entryIds (entries : List (NormalPath × CacheEntry)) : List Nat :=
  entries.flatMap fun p => ids p.2.outcome

def previousIds : Option CacheEntry → List Nat
  | none => []
  | some e => ids e.outcome

theorem mem_ids {o : LoadOutcome} {id : Nat} : id ∈ ids o ↔ o.id? = some id := by
  cases o with
  | error e => exact iff_of_false List.not_mem_nil nofun
  | ok h => exact List.mem_singleton.trans (eq_comm.trans Option.some_inj.symm)

theorem perm_entryIds (key : NormalPath) {entries : List (NormalPath × CacheEntry)}
    (hn : (Association.keys entries).Nodup) :
    (entryIds entries).Perm
      (previousIds (entries.lookup key) ++ entryIds (Association.erase key entries)) := by
  cases he : entries.lookup key with
  | none => rw [Association.erase_of_lookup_eq_none he]; rfl
  | some e => exact (Association.perm_cons_erase hn he).flatMap_right _

/-- The entries of a loader and the given outside references are all the references there are, no
path has two entries, and the journal agrees. -/
structure Accounted (l : Loader) (outside : List Nat) : Prop where
  balanced : l.guards.Balanced (entryIds l.entries ++ outside)
  keys_nodup : (Association.keys l.entries).Nodup
  journaled : l.Journaled

variable {l : Loader} {outside outside' : List Nat} {key : NormalPath} {o : LoadOutcome}
  {id : Nat}

theorem accounted_empty : empty.Accounted [] :=
  ⟨Guards.balanced_empty, List.nodup_nil, journaled_empty⟩

theorem Accounted.perm (h : l.Accounted outside) (hp : outside.Perm outside') :
    l.Accounted outside' :=
  ⟨h.balanced.perm (hp.append_left _), h.keys_nodup, h.journaled⟩

theorem Accounted.mem_entryIds (h : l.Accounted outside) {e : CacheEntry}
    (he : l.entry? key = some e) (hid : id ∈ ids e.outcome) : id ∈ entryIds l.entries := by
  have hp := perm_entryIds key h.keys_nodup
  rw [show l.entries.lookup key = some e from he] at hp
  exact hp.mem_iff.mpr (List.mem_append_left _ hid)

theorem accounted_retain (h : l.Accounted outside)
    (ho : ∀ id ∈ ids o, id ∈ entryIds l.entries ++ outside) :
    (l.retain o).Accounted (ids o ++ outside) := by
  cases o with
  | error e => exact h
  | ok handle =>
    have hb := Guards.balanced_retain h.balanced (ho handle.id List.mem_cons_self)
    exact ⟨hb.perm List.perm_middle.symm, h.keys_nodup, h.journaled.retain _⟩

/-- The last reference to an artifact is not one of an entry if it comes from the outside. -/
theorem accounted_release (h : l.Accounted (id :: outside)) : (l.release id).Accounted outside := by
  have hb := h.balanced.perm List.perm_middle
  refine ⟨Guards.balanced_release hb, h.keys_nodup, h.journaled.release ?_⟩
  intro hlast key hkey
  obtain ⟨e, he, hid⟩ := Option.bind_eq_some_iff.mp hkey
  have hentry := h.mem_entryIds he (mem_ids.mpr hid)
  have hpos := List.count_pos_iff.mpr (List.mem_append_left outside hentry)
  have hcount := hb.count_eq id
  rw [List.count_cons_self] at hcount
  omega

theorem accounted_drop (h : l.Accounted (ids o ++ outside)) : (l.drop o).Accounted outside := by
  cases o with
  | error e => exact h
  | ok handle => exact accounted_release h

theorem accounted_dropEntry {e : Option CacheEntry} (h : l.Accounted (previousIds e ++ outside)) :
    (l.dropEntry e).Accounted outside := by
  cases e with
  | none => exact h
  | some e => exact accounted_drop h

/-- An attempt gives its caller the reference to a validator that is made, and keeps none to an
artifact whose validator cannot be made. -/
theorem accounted_attempt (key : NormalPath) (h : l.Accounted outside) (opener : Opener)
    (isPresent : Bool) (stamp : Option Int) :
    (l.attempt opener isPresent key stamp).1.Accounted
      (ids (l.attempt opener isPresent key stamp).2 ++ outside) := by
  have hopened : Accounted
      { l with openings := l.openings ++ [key], guards := l.guards.acquire.2 }
      (l.guards.opened :: outside) :=
    ⟨(Guards.balanced_acquire h.balanced).perm List.perm_middle.symm, h.keys_nodup,
      h.journaled.of_eq rfl rfl rfl⟩
  rcases l.attempt_cases opener isPresent key stamp with ⟨-, heq⟩ | ⟨e, -, -, heq⟩ |
    ⟨a, e, -, -, -, heq⟩ | ⟨a, v, -, -, -, heq⟩
  · rw [heq]
    exact h
  · rw [heq]
    exact ⟨h.balanced, h.keys_nodup, h.journaled.of_eq rfl rfl rfl⟩
  · rw [heq]
    exact accounted_release hopened
  · rw [heq]
    exact hopened

/-- Remembering moves the reference to what was remembered before to the outside. -/
theorem accounted_remember (key : NormalPath) (stamp : Option Int)
    (h : l.Accounted (ids o ++ outside)) :
    (l.remember key ⟨stamp, o⟩).Accounted (previousIds (l.entry? key) ++ (ids o ++ outside)) := by
  have hr := accounted_retain (o := o) h
    (fun id hid => List.mem_append_right _ (List.mem_append_left _ hid))
  have hn := hr.keys_nodup
  rw [entries_retain] at hn
  refine ⟨?_, Association.nodup_keys_set hn, h.journaled.remember key _⟩
  refine hr.balanced.perm ?_
  rw [entries_retain]
  have hp := (perm_entryIds key hn).append_right (ids o ++ (ids o ++ outside))
  refine hp.trans ?_
  -- The outcome is now held twice, by the entry and by the caller.
  have hentries : entryIds (l.remember key ⟨stamp, o⟩).entries =
      ids o ++ entryIds (Association.erase key l.entries) := rfl
  rw [hentries, List.perm_iff_count]
  intro id
  unfold entry?
  simp only [List.count_append]
  omega

theorem accounted_loadStamped (key : NormalPath) (h : l.Accounted outside) (opener : Opener)
    (isPresent : Bool) (stamp : Option Int) :
    (l.loadStamped opener isPresent key stamp).loader.Accounted
      (ids (l.loadStamped opener isPresent key stamp).outcome ++ outside) := by
  by_cases hit : l.IsHit key stamp
  · obtain ⟨e, he, hs⟩ := hit
    rw [l.loadStamped_hit opener isPresent key stamp he hs]
    refine accounted_retain h ?_
    exact fun id hid => List.mem_append_left _ (h.mem_entryIds he hid)
  · rw [l.loadStamped_miss opener isPresent key stamp hit, loader_reload, outcome_reload]
    refine accounted_dropEntry ?_
    have hr := accounted_remember key stamp (accounted_attempt key h opener isPresent stamp)
    have he : Loader.entry? (l.attempt opener isPresent key stamp).1 key = l.entry? key :=
      entry?_attempt _ _ _ _ _ _
    rwa [he] at hr

theorem accounted_without (key : NormalPath) (h : l.Accounted outside) :
    (l.without key).Accounted (previousIds (l.entry? key) ++ outside) := by
  refine ⟨?_, Association.nodup_keys_erase h.keys_nodup, h.journaled.without key⟩
  refine h.balanced.perm ?_
  have hp := (perm_entryIds key h.keys_nodup).append_right outside
  refine hp.trans ?_
  have hentries : (l.without key).entries = Association.erase key l.entries := rfl
  rw [hentries, List.perm_iff_count]
  intro id
  unfold entry?
  simp only [List.count_append]
  omega

theorem accounted_forgetKey (h : l.Accounted outside) : (l.forgetKey key).1.Accounted outside := by
  cases he : l.entry? key with
  | none =>
    rw [l.forgetKey_none key he]
    exact h
  | some e =>
    have hr := accounted_without key h
    rw [he] at hr
    rw [l.forgetKey_some key he]
    exact accounted_drop hr

/-! ## Releases inside one call -/

/-- What an entry refers to has not been released. -/
theorem Accounted.not_mem_releasedIn (h : l.Accounted outside) {e : CacheEntry}
    (he : l.entry? key = some e) (hid : id ∈ ids e.outcome) : id ∉ releasedIn l.journal := by
  rw [h.journaled.released, h.balanced.mem_released]
  exact fun hm => hm.2 (List.mem_append_left _ (h.mem_entryIds he hid))

/-- The journal of a load in the place of an entry. What the attempt opens in vain is released
first, then the new outcome is stored, and what it replaces is released last, if at all. -/
theorem exists_journal_replaced (h : l.Accounted outside) {s : Site} {e : CacheEntry}
    (he : l.entry? key = some e) (hne : e.stamp ≠ s.stamp key) :
    ∃ early late, (l.loadAt s key).loader.journal =
        l.journal ++ early ++ .stored key (l.loadAt s key).outcome.id? :: late ∧
      (∀ x ∈ early, x = .released l.guards.opened) ∧
      (∀ id ∈ ids e.outcome, id ∉ releasedIn (l.journal ++ early)) ∧
      ∀ x ∈ late, ∃ id ∈ ids e.outcome, x = .released id := by
  have miss : ¬ l.IsHit key (s.stamp key) := by
    rintro ⟨e', he', hs⟩
    cases he.symm.trans he'
    exact hne hs
  obtain ⟨early, hearly, hopened⟩ :=
    l.exists_journal_attempt s.opener (s.shows key) key (s.stamp key)
  obtain ⟨late, hlate, hprevious⟩ :=
    l.exists_journal_miss s.opener (s.shows key) key (s.stamp key) miss
  refine ⟨early, late, ?_, hopened, ?_, ?_⟩
  · rw [← hearly]
    exact hlate
  · intro id hid
    have hattempt := accounted_attempt key h s.opener (s.shows key) (s.stamp key)
    rw [← hearly]
    exact hattempt.not_mem_releasedIn ((entry?_attempt _ _ _ _ _ _).trans he) hid
  · intro x hx
    obtain ⟨id, hid, rfl⟩ := hprevious x hx
    rw [he] at hid
    exact ⟨id, mem_ids.mpr hid, rfl⟩

/-- The journal of forgetting an entry. It is erased, and what it refers to is released then, if at
all. -/
theorem exists_journal_forgotten (h : l.Accounted outside) {e : CacheEntry}
    (he : l.entry? key = some e) :
    ∃ late, (l.forgetKey key).1.journal = l.journal ++ .erased key :: late ∧
      (∀ id ∈ ids e.outcome, id ∉ releasedIn l.journal) ∧
      ∀ x ∈ late, ∃ id ∈ ids e.outcome, x = .released id := by
  obtain ⟨late, hlate, hreleased⟩ := l.exists_journal_forgetKey key he
  refine ⟨late, hlate, fun id hid => h.not_mem_releasedIn he hid, ?_⟩
  intro x hx
  obtain ⟨id, hid, rfl⟩ := hreleased x hx
  exact ⟨id, mem_ids.mpr hid, rfl⟩

/-- An artifact whose validator cannot be made is released by the load that opened it. -/
theorem released_of_broken (h : l.Accounted outside) {s : Site} {a : Artifact} {e : LoadError}
    (miss : ¬ l.IsHit key (s.stamp key)) (hs : s.shows key = true) (ho : s.opener key = .ok a)
    (hi : a.instantiate key = .error e) :
    l.guards.opened ∈ (l.loadAt s key).loader.guards.released := by
  have hm : isMissing (s.shows key) (s.stamp key) = false := by rw [Site.isMissing_eq, hs]; rfl
  have hattempt := l.journal_attempt_of_broken s.opener (s.shows key) key (s.stamp key) hm ho hi
  obtain ⟨late, hlate, -⟩ :=
    l.exists_journal_miss s.opener (s.shows key) key (s.stamp key) miss
  have hload := accounted_loadStamped key h s.opener (s.shows key) (s.stamp key)
  unfold loadAt
  rw [← hload.journaled.released, hlate, hattempt]
  refine List.mem_filterMap.mpr ⟨.released l.guards.opened, ?_, rfl⟩
  exact List.mem_append_left _ List.mem_concat_self

/-! ## Runs -/

namespace Usage

def references (u : Usage) : List Nat := entryIds u.loader.entries ++ u.held.map (·.id)

/-- Whether a request makes the opener open an artifact. -/
def opensArtifact (u : Usage) (q : Request) : Bool :=
  match q.call with
  | .load path =>
    (u.request q).1.loader.openings ≠ u.loader.openings &&
      (q.site.opener (q.site.key path)).isOk
  | _ => false

def openedIn : List Request → Nat
  | [] => 0
  | q :: earlier => openedIn earlier + if (after earlier).opensArtifact q then 1 else 0

theorem opened_after (qs : List Request) : (after qs).loader.guards.opened = openedIn qs := by
  induction qs with
  | nil => rfl
  | cons q earlier ih =>
    obtain ⟨site, call⟩ := q
    unfold openedIn
    rw [← ih]
    cases call with
    | load path =>
      have hopens : (after earlier).opensArtifact ⟨site, .load path⟩ =
          (((after earlier).loader.loadAt site (site.key path)).loader.openings ≠
            (after earlier).loader.openings && (site.opener (site.key path)).isOk) := rfl
      have hafter : (after (⟨site, .load path⟩ :: earlier)).loader =
          ((after earlier).loader.loadAt site (site.key path)).loader := rfl
      rw [hopens, hafter]
      by_cases hit : (after earlier).loader.IsHit (site.key path) (site.stamp (site.key path))
      · obtain ⟨e, he, hs⟩ := hit
        rw [loadAt_hit he hs]
        simp
      · rw [opened_loadAt_miss hit, openings_loadAt_miss hit]
        cases site.shows (site.key path) <;> simp
    | forget path => exact opened_forgetKey _ _
    | isCached path => rfl
    | drop n =>
      have hafter : (after (⟨site, .drop n⟩ :: earlier)).loader.guards.opened =
          (after earlier).loader.guards.opened := by
        rw [after_cons]
        rcases request_drop_cases (after earlier) site n with hr | ⟨h, -, hr⟩
        · rw [hr]
        · rw [hr]
          exact opened_drop _ _
      exact hafter

theorem accounted_request {u : Usage} (h : u.loader.Accounted (u.held.map (·.id))) (q : Request) :
    (u.request q).1.loader.Accounted ((u.request q).1.held.map (·.id)) := by
  obtain ⟨site, call⟩ := q
  cases call with
  | load path =>
    have hl := accounted_loadStamped (site.key path) h site.opener (site.shows (site.key path))
      (site.stamp (site.key path))
    rw [show ids _ = (handles _).map (·.id) from rfl, ← List.map_append] at hl
    exact hl
  | forget path => exact accounted_forgetKey h
  | isCached path => exact h
  | drop n =>
    rcases request_drop_cases u site n with hr | ⟨handle, hn, hr⟩
    · rw [hr]
      exact h
    · rw [hr]
      obtain ⟨hlt, rfl⟩ := List.getElem?_eq_some_iff.mp hn
      have hp := (List.getElem_cons_eraseIdx_perm hlt).map (·.id)
      exact accounted_drop (o := .ok _) (h.perm hp.symm)

/-- In every run the entries and the handles of the callers are all the references there are. -/
theorem accounted_after (qs : List Request) :
    (after qs).loader.Accounted ((after qs).held.map (·.id)) := by
  induction qs with
  | nil => exact accounted_empty
  | cons q earlier ih => exact accounted_request ih q

theorem journal_prefix_request (u : Usage) (q : Request) :
    u.loader.journal <+: (u.request q).1.loader.journal := by
  obtain ⟨site, call⟩ := q
  cases call with
  | load path => exact u.loader.journal_prefix_loadStamped _ _ _ _
  | forget path => exact u.loader.journal_prefix_forgetKey _
  | isCached path => exact List.prefix_refl _
  | drop n =>
    rcases request_drop_cases u site n with hr | ⟨h, -, hr⟩
    · rewrite [hr]
      exact List.prefix_refl _
    · rw [hr]
      exact u.loader.journal_prefix_drop _

/-- A journal that goes on keeps its releases. -/
theorem released_prefix_after (qs : List Request) (q : Request) :
    (after qs).loader.guards.released <+: (after (q :: qs)).loader.guards.released := by
  rw [← (accounted_after qs).journaled.released, ← (accounted_after (q :: qs)).journaled.released]
  exact (journal_prefix_request (after qs) q).filterMap _

/-- The artifacts that were opened are those that were released and those that are referred to. -/
theorem perm_range_after (qs : List Request) :
    ((after qs).loader.guards.released ++ (after qs).references.dedup).Perm
      (List.range (openedIn qs)) := by
  have hb := (accounted_after qs).balanced
  rw [← opened_after]
  refine (List.perm_ext_iff_of_nodup ?_ List.nodup_range).mpr ?_
  · refine List.nodup_append.mpr ⟨hb.nodup, List.nodup_dedup _, ?_⟩
    intro id hid id' hid' he
    subst he
    exact ((hb.mem_released id).mp hid).2 (List.mem_dedup.mp hid')
  · intro id
    rw [List.mem_append, List.mem_dedup, List.mem_range, hb.mem_released]
    constructor
    · rintro (⟨hlt, -⟩ | hm)
      · exact hlt
      · exact hb.lt_opened id hm
    · intro hlt
      by_cases hm : id ∈ (after qs).references
      · exact Or.inr hm
      · exact Or.inl ⟨hlt, hm⟩

end Usage

/-! ## The law -/

/-- How artifacts are owned after a run, and what the next call does to them. -/
structure OwnershipLaw (qs : List Request) (u : Usage) : Prop where
  /-- No artifact is released twice, and what is released stays so. -/
  released_once : u.loader.guards.released.Nodup
  released_prefix : ∀ q, u.loader.guards.released <+: (u.request q).1.loader.guards.released
  /-- An artifact is released exactly if it was opened and neither an entry nor a caller refers to
  it. -/
  mem_released : ∀ id, id ∈ u.loader.guards.released ↔
    id < Usage.openedIn qs ∧ id ∉ u.references
  /-- Those that are left are as many as there are validators that are referred to. -/
  alive : Usage.openedIn qs = u.loader.guards.released.length + u.references.dedup.length
  keys_nodup : (Association.keys u.loader.entries).Nodup
  /-- A validator that a load makes belongs to the artifact that the load opened. -/
  id_of_made : ∀ (s : Site) (path : String) (h : Handle),
    ¬ u.loader.IsHit (s.key path) (s.stamp (s.key path)) →
    (u.loader.load s.files s.opener path).outcome = .ok h → h.id = Usage.openedIn qs
  /-- An artifact whose validator cannot be made is released by the load that opened it. -/
  of_broken : ∀ (s : Site) (path : String) (a : Artifact) (e : LoadError),
    ¬ u.loader.IsHit (s.key path) (s.stamp (s.key path)) → s.shows (s.key path) = true →
    s.opener (s.key path) = .ok a → a.instantiate (s.key path) = .error e →
    Usage.openedIn qs ∈ (u.loader.load s.files s.opener path).loader.guards.released
  /-- The journal tells what is remembered and what has been released, and no artifact was released
  while it was remembered. -/
  journaled : u.loader.Journaled
  journal_prefix : ∀ q, u.loader.journal <+: (u.request q).1.loader.journal
  /-- What a load replaces is released when the new outcome is in its place, if at all. Before that
  only an artifact is released that was opened in vain. -/
  of_replaced : ∀ (s : Site) (path : String) (e : CacheEntry),
    u.loader.entry? (s.key path) = some e → e.stamp ≠ s.stamp (s.key path) →
    ∃ early late, (u.loader.load s.files s.opener path).loader.journal =
        u.loader.journal ++ early ++
          .stored (s.key path) (u.loader.load s.files s.opener path).outcome.id? :: late ∧
      (∀ x ∈ early, x = .released (Usage.openedIn qs)) ∧
      (∀ id ∈ ids e.outcome, id ∉ releasedIn (u.loader.journal ++ early)) ∧
      ∀ x ∈ late, ∃ id ∈ ids e.outcome, x = .released id
  /-- What is forgotten is released when the entry is gone, if at all. -/
  of_forgotten : ∀ (s : Site) (path : String) (e : CacheEntry),
    u.loader.entry? (s.key path) = some e →
    ∃ late, (u.loader.forget s.files.workingDirectory path).1.journal =
        u.loader.journal ++ .erased (s.key path) :: late ∧
      (∀ id ∈ ids e.outcome, id ∉ releasedIn u.loader.journal) ∧
      ∀ x ∈ late, ∃ id ∈ ids e.outcome, x = .released id

/-- **Resource accounting.** After every run each artifact that was opened has either been released,
once, or is still referred to. A call releases only what nobody refers to any more, and what an
entry referred to not before the entry has been replaced or is gone. -/
theorem resource_accounting (qs : List Request) : OwnershipLaw qs (Usage.after qs) where
  released_once := (Usage.accounted_after qs).balanced.nodup
  released_prefix := Usage.released_prefix_after qs
  mem_released := by
    intro id
    rw [← Usage.opened_after]
    exact (Usage.accounted_after qs).balanced.mem_released id
  alive := by
    have h := (Usage.perm_range_after qs).length_eq
    rw [List.length_append, List.length_range] at h
    exact h.symm
  keys_nodup := (Usage.accounted_after qs).keys_nodup
  id_of_made := by
    intro s path h miss ho
    rw [← Usage.opened_after]
    exact (id_loadAt_miss miss ho).1
  of_broken := by
    intro s path a e miss hs ho hi
    rw [← Usage.opened_after]
    exact released_of_broken (Usage.accounted_after qs) miss hs ho hi
  journaled := (Usage.accounted_after qs).journaled
  journal_prefix := Usage.journal_prefix_request (Usage.after qs)
  of_replaced := by
    intro s path e he hne
    rw [← Usage.opened_after]
    exact exists_journal_replaced (Usage.accounted_after qs) he hne
  of_forgotten := fun _ _ _ he => exists_journal_forgotten (Usage.accounted_after qs) he

end Loader

end ImageLint
