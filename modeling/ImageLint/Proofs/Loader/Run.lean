import ImageLint.Proofs.Loader.Step
import ImageLint.Validation

/-!
# Loaders in use

A loader is shared by callers, who load, forget and ask, keep the handles that they are given and
drop them in any order. Each request is made at a site of its own: between two requests files may
come, go and change their times, and the opener may answer differently.

The requests of a run are listed with the latest first, so that `Usage.after` recurs on the run and
an induction over it meets the last request on the outside. Every request of a run is the head of
some tail of it, and a statement about the head of all runs is about all requests.
-/

namespace ImageLint

open Host

namespace Site

def key (s : Site) (path : String) : NormalPath := normalize s.files.workingDirectory path

def stamp (s : Site) (key : NormalPath) : Option Int := s.files.modified? key.text

def shows (s : Site) (key : NormalPath) : Bool := s.files.isPresent key.text

theorem isSome_stamp (s : Site) (key : NormalPath) : (s.stamp key).isSome = s.shows key := by
  unfold stamp shows FileSystem.modified? FileSystem.isPresent
  cases s.files.find key.text <;> rfl

/-- An artifact has no time exactly if it is not there. -/
theorem isMissing_eq (s : Site) (key : NormalPath) :
    Loader.isMissing (s.shows key) (s.stamp key) = !s.shows key := by
  rw [← isSome_stamp]
  unfold Loader.isMissing
  cases s.stamp key <;> rfl

end Site

namespace Loader

/-- What callers do with a loader. -/
inductive Call where
  | load (path : String)
  | forget (path : String)
  | isCached (path : String)
  /-- Drops the handle at a place among those that are held. -/
  | drop (n : Nat)

/-- A call, and the host while it is made. -/
structure Request where
  site : Site
  call : Call

inductive Reply where
  | loaded (o : LoadOutcome)
  | truth (b : Bool)
  | done

def handles : LoadOutcome → List Handle
  | .ok h => [h]
  | .error _ => []

/-- A loader, and the handles that its callers hold. -/
structure Usage where
  loader : Loader
  held : List Handle

namespace Usage

def start : Usage := ⟨.empty, []⟩

def request (u : Usage) (q : Request) : Usage × Reply :=
  match q.call with
  | .load path =>
    let loading := u.loader.load q.site.files q.site.opener path
    (⟨loading.loader, handles loading.outcome ++ u.held⟩, .loaded loading.outcome)
  | .forget path =>
    let (l, forgotten) := u.loader.forget q.site.files.workingDirectory path
    (⟨l, u.held⟩, .truth forgotten)
  | .isCached path => (u, .truth (u.loader.isCached q.site.files.workingDirectory path))
  | .drop n =>
    match u.held[n]? with
    | some h => (⟨u.loader.drop (.ok h), u.held.eraseIdx n⟩, .done)
    | none => (u, .done)

/-- A loader that began empty, after the requests of a run. -/
def after : List Request → Usage
  | [] => start
  | q :: earlier => ((after earlier).request q).1

theorem after_cons (q : Request) (earlier : List Request) :
    after (q :: earlier) = ((after earlier).request q).1 := rfl

end Usage

/-! ## Calls at a site -/

def loadAt (l : Loader) (s : Site) (key : NormalPath) : Loading :=
  l.loadStamped s.opener (s.shows key) key (s.stamp key)

theorem load_eq (l : Loader) (s : Site) (path : String) :
    l.load s.files s.opener path = l.loadAt s (s.key path) := rfl

theorem forget_eq (l : Loader) (s : Site) (path : String) :
    l.forget s.files.workingDirectory path = l.forgetKey (s.key path) := rfl

theorem isCached_eq (l : Loader) (s : Site) (path : String) :
    l.isCached s.files.workingDirectory path = (l.entry? (s.key path)).isSome := rfl

/-- A handle that is dropped is one of those that are held. -/
theorem request_drop_cases (u : Usage) (s : Site) (n : Nat) :
    u.request ⟨s, .drop n⟩ = (u, .done) ∨
      ∃ h, u.held[n]? = some h ∧
        u.request ⟨s, .drop n⟩ = (⟨u.loader.drop (.ok h), u.held.eraseIdx n⟩, .done) := by
  unfold Usage.request
  cases hn : u.held[n]? with
  | none => exact Or.inl (by simp only [hn])
  | some h => exact Or.inr ⟨h, rfl, by simp only [hn]⟩

variable {l : Loader} {s : Site} {key : NormalPath}

theorem loadAt_hit {e : CacheEntry} (he : l.entry? key = some e) (hs : e.stamp = s.stamp key) :
    l.loadAt s key = { loader := l.retain e.outcome, outcome := e.outcome, log := [] } :=
  l.loadStamped_hit _ _ _ _ he hs

theorem validatorOf_loadAt_miss (miss : ¬ l.IsHit key (s.stamp key)) :
    validatorOf (l.loadAt s key).outcome =
      if s.shows key then s.opener.validator key else .error (.missing key) := by
  unfold loadAt
  rw [outcome_miss _ _ _ _ _ miss, validatorOf_attempt, Site.isMissing_eq]
  cases s.shows key <;> rfl

theorem openings_loadAt_miss (miss : ¬ l.IsHit key (s.stamp key)) :
    (l.loadAt s key).loader.openings =
      if s.shows key then l.openings ++ [key] else l.openings := by
  unfold loadAt
  rw [openings_miss _ _ _ _ _ miss, Site.isMissing_eq]
  cases s.shows key <;> rfl

theorem opened_loadAt_miss (miss : ¬ l.IsHit key (s.stamp key)) :
    (l.loadAt s key).loader.guards.opened =
      l.guards.opened + if s.shows key && (s.opener key).isOk then 1 else 0 := by
  unfold loadAt
  rw [opened_miss _ _ _ _ _ miss, opened_attempt, Site.isMissing_eq, Bool.not_not]

/-- A validator that is made by a load gets a number that was not used before. -/
theorem id_loadAt_miss (miss : ¬ l.IsHit key (s.stamp key)) {h : Handle}
    (ho : (l.loadAt s key).outcome = .ok h) :
    h.id = l.guards.opened ∧ (l.loadAt s key).loader.guards.opened = l.guards.opened + 1 := by
  unfold loadAt at ho ⊢
  rw [outcome_miss _ _ _ _ _ miss] at ho
  rw [opened_miss _ _ _ _ _ miss]
  exact id_attempt _ _ _ _ _ ho

theorem opened_le_loadAt : l.guards.opened ≤ (l.loadAt s key).loader.guards.opened := by
  by_cases hit : l.IsHit key (s.stamp key)
  · obtain ⟨e, he, hs⟩ := hit
    rw [loadAt_hit he hs]
    exact Nat.le_of_eq (l.opened_retain _).symm
  · rw [opened_loadAt_miss hit]
    exact Nat.le_add_right _ _

theorem opened_le_request (u : Usage) (q : Request) :
    u.loader.guards.opened ≤ (u.request q).1.loader.guards.opened := by
  obtain ⟨site, call⟩ := q
  cases call with
  | load path => exact opened_le_loadAt
  | forget path => exact Nat.le_of_eq (u.loader.opened_forgetKey _).symm
  | isCached path => exact Nat.le_refl _
  | drop n =>
    rcases request_drop_cases u site n with hr | ⟨h, -, hr⟩
    · rewrite [hr]
      exact Nat.le_refl _
    · rw [hr]
      exact Nat.le_of_eq (u.loader.opened_drop _).symm

end Loader

/-! ## A host with one file -/

namespace Host

def oneFile (time : Int) : FileSystem where
  root := .directory [("v", .file (.text "") time)] 0
  workingDirectory := ⟨[]⟩
  clock := 1

theorem modified?_oneFile (time : Int) : (oneFile time).modified? "/v" = some time := by
  have hpieces : pieces "/v" = ["", "v"] := by decide
  have hroot : component? "" = none := by decide
  have hname : component? "v" = some (.normal "v") := by decide
  have hfile : (oneFile time).follow false FileSystem.maxLinks ⟨[]⟩ ["", "v"] =
      .ok (.found ⟨["v"]⟩ (.file (.text "") time)) := by
    rw [FileSystem.follow, hroot]
    rw [FileSystem.follow, hname]
    rfl
  have hlocate : (oneFile time).locate "/v" = .ok (.found ⟨["v"]⟩ (.file (.text "") time)) := by
    rw [← hfile, ← hpieces]
    rfl
  unfold FileSystem.modified? FileSystem.find
  rw [hlocate]
  rfl

end Host

end ImageLint

