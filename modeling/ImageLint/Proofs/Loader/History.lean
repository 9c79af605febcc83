import ImageLint.Proofs.Loader.Run

/-!
# Loaders and their history

What a loader answers is determined by what happened before: `latest` reads from the events of a run
alone which load of a path counts, and `entry?_after` says that the loader remembers just that.

* `entry?_after`: the invariant, kept by every request.
* `id_lt_opened`: the numbers of the handles that were given out have all been used up.
* `history_law`: hits, misses and the other answers, for every request of every run.
-/

namespace ImageLint.Loader

open Host

/-- A request that was made, and the reply to it. -/
structure Event where
  request : Request
  reply : Reply

/-- What happened in a run, the latest first. -/
def events : List Request → List Event
  | [] => []
  | q :: earlier => ⟨q, ((Usage.after earlier).request q).2⟩ :: events earlier

/-- The latest load of a path since the path was last forgotten: the time that it saw, and how it
ended. -/
def latest (key : NormalPath) : List Event → Option CacheEntry
  | [] => none
  | e :: earlier =>
    match e.request.call, e.reply with
    | .load path, .loaded outcome =>
      if key = e.request.site.key path then some ⟨e.request.site.stamp key, outcome⟩
      else latest key earlier
    | .forget path, _ =>
      if key = e.request.site.key path then none else latest key earlier
    | _, _ => latest key earlier

/-- A request changes what the loader remembers as it changes the history. -/
theorem entry?_request {u : Usage} {es : List Event} {key : NormalPath} (q : Request)
    (h : u.loader.entry? key = latest key es) :
    (u.request q).1.loader.entry? key = latest key (⟨q, (u.request q).2⟩ :: es) := by
  obtain ⟨site, call⟩ := q
  cases call with
  | load path =>
    simp only [Usage.request, latest, load_eq, loadAt, entry?_loadStamped, h]
    split
    · rename_i hk
      rw [← hk]
    · rfl
  | forget path => simp only [Usage.request, latest, forget_eq, entry?_forgetKey, h]
  | isCached path => exact h
  | drop n =>
    have hl : latest key (⟨⟨site, .drop n⟩, (u.request ⟨site, .drop n⟩).2⟩ :: es) = latest key es := by
      simp only [latest]
    rw [hl, ← h]
    rcases request_drop_cases u site n with hr | ⟨handle, -, hr⟩
    · rw [hr]
    · rw [hr, entry?_drop]

/-- The loader remembers of each path the latest load since the path was last forgotten. -/
theorem entry?_after (qs : List Request) (key : NormalPath) :
    (Usage.after qs).loader.entry? key = latest key (events qs) := by
  induction qs with
  | nil => rfl
  | cons q earlier ih => exact entry?_request q ih

/-! ## Numbers -/

theorem mem_events_of_latest {key : NormalPath} {es : List Event} {e : CacheEntry}
    (h : latest key es = some e) : ∃ event ∈ es, event.reply = .loaded e.outcome := by
  induction es with
  | nil => cases h
  | cons event earlier ih =>
    have later : latest key earlier = some e →
        ∃ event' ∈ event :: earlier, event'.reply = .loaded e.outcome := by
      intro h'
      obtain ⟨event', hm, hr⟩ := ih h'
      exact ⟨event', List.mem_cons_of_mem _ hm, hr⟩
    unfold latest at h
    split at h
    · rename_i path outcome hc hr
      split at h
      · cases h
        exact ⟨event, List.mem_cons_self, hr⟩
      · exact later h
    · split at h
      · cases h
      · exact later h
    · exact later h

/-- The numbers of the handles that were given out have all been used up. -/
theorem id_lt_opened (qs : List Request) :
    ∀ event ∈ events qs, ∀ h : Handle, event.reply = .loaded (.ok h) →
      h.id < (Usage.after qs).loader.guards.opened := by
  induction qs with
  | nil => simp [events]
  | cons q earlier ih =>
    have grows := opened_le_request (Usage.after earlier) q
    intro event hm h hr
    rcases List.mem_cons.mp hm with rfl | hm
    · obtain ⟨site, call⟩ := q
      cases call with
      | load path =>
        have ho : ((Usage.after earlier).loader.loadAt site (site.key path)).outcome = .ok h :=
          Reply.loaded.inj hr
        by_cases hit : (Usage.after earlier).loader.IsHit (site.key path)
            (site.stamp (site.key path))
        · obtain ⟨e, he, hs⟩ := hit
          rw [loadAt_hit he hs] at ho
          rw [entry?_after] at he
          obtain ⟨event', hm', hr'⟩ := mem_events_of_latest he
          exact Nat.lt_of_lt_of_le (ih event' hm' h (by rw [hr', ← ho])) grows
        · obtain ⟨hid, hopened⟩ := id_loadAt_miss hit ho
          change h.id <
            ((Usage.after earlier).loader.loadAt site (site.key path)).loader.guards.opened
          omega
      | forget path => cases hr
      | isCached path => cases hr
      | drop n =>
        rcases request_drop_cases (Usage.after earlier) site n with hd | ⟨h', -, hd⟩ <;>
          rw [hd] at hr <;> cases hr
    · exact Nat.lt_of_lt_of_le (ih event hm h hr) grows

/-! ## The law -/

/-- What a load of a path has to do at a site after the given events. -/
structure LoadLaw (es : List Event) (l : Loader) (s : Site) (key : NormalPath)
    (loading : Loading) : Prop where
  /-- A load is a hit exactly if the path was loaded since it was last forgotten and the latest such
  load saw the time that the artifact has now. -/
  hit_iff : l.IsHit key (s.stamp key) ↔ ∃ e, latest key es = some e ∧ e.stamp = s.stamp key
  /-- A hit repeats the outcome of the latest load, number and failure included. -/
  of_hit : ∀ e, latest key es = some e → e.stamp = s.stamp key →
    loading.outcome = e.outcome ∧ loading.loader.openings = l.openings
  of_missing : ¬ l.IsHit key (s.stamp key) → s.shows key = false →
    loading.outcome = .error (.missing key) ∧ loading.loader.openings = l.openings
  /-- Otherwise the artifact is opened once, and a validator that is made is none of those that were
  given out before. -/
  of_present : ¬ l.IsHit key (s.stamp key) → s.shows key = true →
    loading.loader.openings = l.openings ++ [key] ∧
      validatorOf loading.outcome = s.opener.validator key ∧
      ∀ h, loading.outcome = .ok h → ∀ event ∈ es, ∀ h', event.reply = .loaded (.ok h') →
        h'.id ≠ h.id

theorem isHit_after (qs : List Request) (key : NormalPath) (stamp : Option Int) :
    (Usage.after qs).loader.IsHit key stamp ↔
      ∃ e, latest key (events qs) = some e ∧ e.stamp = stamp := by
  simp only [IsHit, entry?_after]

theorem loadLaw_after (qs : List Request) (s : Site) (key : NormalPath) :
    LoadLaw (events qs) (Usage.after qs).loader s key ((Usage.after qs).loader.loadAt s key) where
  hit_iff := isHit_after qs key _
  of_hit := by
    intro e he hs
    rw [← entry?_after] at he
    rw [loadAt_hit he hs]
    exact ⟨rfl, openings_retain _ _⟩
  of_missing := by
    intro miss hp
    have hv := validatorOf_loadAt_miss miss
    have ho := openings_loadAt_miss miss
    simp only [hp, Bool.false_eq_true, if_false] at hv ho
    cases hout : ((Usage.after qs).loader.loadAt s key).outcome with
    | ok h => rw [hout] at hv; cases hv
    | error e => rw [hout] at hv; cases hv; exact ⟨rfl, ho⟩
  of_present := by
    intro miss hp
    have hv := validatorOf_loadAt_miss miss
    have ho := openings_loadAt_miss miss
    simp only [hp, if_true] at hv ho
    refine ⟨ho, hv, ?_⟩
    intro h hout event hm h' hr
    have hlt := id_lt_opened qs event hm h' hr
    have hid := (id_loadAt_miss miss hout).1
    omega

/-- **The history law.** At every point of every run, what a loader answers to a load, to being made
to forget and to being asked is determined by the events before. -/
theorem history_law (earlier : List Request) (s : Site) (path : String) :
    LoadLaw (events earlier) (Usage.after earlier).loader s (s.key path)
        ((Usage.after earlier).loader.load s.files s.opener path) ∧
      ((Usage.after earlier).loader.forget s.files.workingDirectory path).2 =
        (latest (s.key path) (events earlier)).isSome ∧
      (Usage.after earlier).loader.isCached s.files.workingDirectory path =
        (latest (s.key path) (events earlier)).isSome := by
  refine ⟨loadLaw_after earlier s (s.key path), ?_, ?_⟩
  · rw [forget_eq, answer_forgetKey, entry?_after]
  · rw [isCached_eq, entry?_after]

end ImageLint.Loader
