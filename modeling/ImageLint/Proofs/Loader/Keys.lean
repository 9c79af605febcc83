import ImageLint.Proofs.Host.Normalization
import ImageLint.Proofs.Loader.Run

/-!
# The keys of a loader

A loader remembers validators by the normal forms of their paths. The normal form of a path is the
place that its text tells when it is joined to the working directory, and two paths that tell one
place are one path for the loader: what is loaded by one spelling is found by the other, and is
forgotten by it.

* `isCached_load`, `isCached_forget`: what loading and forgetting one path does to another one.
* `one_key_per_location`: normal forms, spellings, and entries.
-/

namespace ImageLint

open Host

namespace Loader

variable (l : Loader) (s : Site) (path other : String)

theorem isCached_load :
    (l.load s.files s.opener path).loader.isCached s.files.workingDirectory other =
      if s.key other = s.key path then true else l.isCached s.files.workingDirectory other := by
  rw [load_eq, isCached_eq, isCached_eq, loadAt, entry?_loadStamped]
  split <;> rfl

theorem isCached_forget :
    (l.forget s.files.workingDirectory path).1.isCached s.files.workingDirectory other =
      if s.key other = s.key path then false
      else l.isCached s.files.workingDirectory other := by
  rw [forget_eq, isCached_eq, isCached_eq, entry?_forgetKey]
  split <;> rfl

end Loader

namespace Site

/-- The place that a path tells from a working directory, as a stack with the last name on top. -/
def location (w path : String) : List String := (components (join w path)).foldl settle []

/-- A host with the working directory that a text tells. -/
def WorksIn (s : Site) (w : String) : Prop := s.files.workingDirectory = normalize ⟨[]⟩ w

variable {s : Site} {w : String}

theorem names_key (hs : s.WorksIn w) (hw : isAbsolute w = true) (path : String) :
    (s.key path).names = (location w path).reverse := by
  unfold key location
  rw [hs, ← normalize_join hw, names_normalize]
  rfl

/-- Paths have one key exactly if they tell one place. -/
theorem key_eq_iff (hs : s.WorksIn w) (hw : isAbsolute w = true) (path other : String) :
    s.key other = s.key path ↔ location w other = location w path := by
  have hnames (p q : NormalPath) : p = q ↔ p.names = q.names := by
    cases p
    cases q
    simp
  rw [hnames, names_key hs hw, names_key hs hw, List.reverse_inj]

theorem ordinary_key (hs : s.WorksIn w) (path : String) :
    ∀ name ∈ (s.key path).names, Ordinary name := by
  have hroot : ∀ name ∈ (⟨[]⟩ : NormalPath).names, Ordinary name := nofun
  unfold key
  rw [hs]
  exact ordinary_normalize (ordinary_normalize hroot w) path

end Site

/-- What the key of a path is, and what it does for a loader. -/
structure KeyLaw (s : Site) (w path : String) : Prop where
  absolute : isAbsolute (s.key path).text = true
  written : components (s.key path).text = .root :: (s.key path).names.map .normal
  ordinary : ∀ name ∈ (s.key path).names, Ordinary name
  folded : (s.key path).names = (Site.location w path).reverse
  idempotent : s.key (s.key path).text = s.key path
  respelled : ∀ other, Respelled path other → s.key other = s.key path
  /-- Two spellings of one place are answered alike, and leave the same loader behind. -/
  sameAnswers : ∀ other, Site.location w other = Site.location w path → ∀ l : Loader,
    l.load s.files s.opener other = l.load s.files s.opener path ∧
    l.forget s.files.workingDirectory other = l.forget s.files.workingDirectory path ∧
    l.isCached s.files.workingDirectory other = l.isCached s.files.workingDirectory path
  /-- What is done with one path is seen through the other one exactly if both tell one place. -/
  sameEntry : ∀ (other : String) (l : Loader),
    (l.load s.files s.opener path).loader.isCached s.files.workingDirectory other =
      (if Site.location w other = Site.location w path then true
        else l.isCached s.files.workingDirectory other) ∧
    (l.forget s.files.workingDirectory path).1.isCached s.files.workingDirectory other =
      (if Site.location w other = Site.location w path then false
        else l.isCached s.files.workingDirectory other)

/-- **One key for each place.** In every absolute working directory, the key of a path is the place
that its text tells there: an absolute path of names alone, which is its own key and the key of every
other spelling. A loader has one entry for all spellings of a place. -/
theorem one_key_per_location {s : Site} {w : String} (hs : s.WorksIn w)
    (hw : isAbsolute w = true) (path : String) : KeyLaw s w path where
  absolute := isAbsolute_text _
  written := components_text (Site.ordinary_key hs path)
  ordinary := Site.ordinary_key hs path
  folded := Site.names_key hs hw path
  idempotent := normalize_text (Site.ordinary_key hs path) _
  respelled _ h := normalize_respelled h _
  sameAnswers other h l := by
    have hkey := (Site.key_eq_iff hs hw path other).mpr h
    refine ⟨?_, ?_, ?_⟩
    · rw [Loader.load_eq, Loader.load_eq, hkey]
    · rw [Loader.forget_eq, Loader.forget_eq, hkey]
    · rw [Loader.isCached_eq, Loader.isCached_eq, hkey]
  sameEntry other l := by
    have hkey := Site.key_eq_iff hs hw path other
    refine ⟨?_, ?_⟩
    · rw [Loader.isCached_load]
      simp only [hkey]
    · rw [Loader.isCached_forget]
      simp only [hkey]

/-- A site in a working directory that is not written in its normal form. -/
def detouredSite : Site := ⟨oneFile 8, fun key => .error (.missing key)⟩

theorem one_key_per_location_detoured :
    detouredSite.WorksIn "/a/.." ∧ isAbsolute "/a/.." = true ∧
      (detouredSite.key "../b/../v").names = ["v"] ∧
      detouredSite.key "../b/c/../../v" = detouredSite.key "../b/../v" ∧
      (Loader.empty.load (oneFile 8) detouredSite.opener "../b/../v").loader.isCached ⟨[]⟩ "v/." =
        true := by
  have hsite : detouredSite.WorksIn "/a/.." := by
    unfold Site.WorksIn
    decide
  have habsolute : isAbsolute "/a/.." = true := by decide
  have hname : Ordinary "c" := ⟨by decide, by decide, by decide, by decide⟩
  have hspelling : Respelled "../b/../v" "../b/c/../../v" := .detour "../b" "../v" (.name hname)
  have hlaw := one_key_per_location hsite habsolute "../b/../v"
  have hplace : Site.location "/a/.." "v/." = Site.location "/a/.." "../b/../v" := by decide
  refine ⟨hsite, habsolute, ?_, hlaw.respelled _ hspelling, ?_⟩
  · rw [hlaw.folded]
    decide
  · have hentry := (hlaw.sameEntry "v/." Loader.empty).1
    rwa [if_pos hplace] at hentry

end ImageLint
