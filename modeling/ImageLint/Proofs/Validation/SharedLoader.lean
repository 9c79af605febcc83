import ImageLint.Proofs.Loader.Run
import Mathlib.Logic.Function.Basic

/-!
# Engines that share a loader

Several engines may share one loader, and what one of them loads or forgets is seen by all. When
opening an artifact is determined by its path and its time, this cannot be told from what the passes
report: every pass reports what it would report with an empty loader.

* `CustomValidator.Conduct`: the part of a validator that its findings depend on.
* `Loader.Faithful`: every entry is what a fresh load would give at the time of the entry. It is
  kept by `faithful_loadAt`, `faithful_forgetKey` and `faithful_drop`, whoever calls.
* `diagnostics_validateModel`: with a faithful loader a pass is a function of the site alone.
* `cache_unobservable`: the same for every pass of every run of a fleet of engines.
-/

namespace ImageLint

open Host

/-! ## What findings depend on -/

namespace CustomValidator

/-- The entry point and the checks. The name of a validator is not among what its findings depend
on. -/
abbrev Conduct : Type := String × List Check

def conduct (v : CustomValidator) : Conduct := (v.entryPoint, v.checks)

theorem run_eq_of_conduct {v w : CustomValidator} (h : v.conduct = w.conduct) (m : Model)
    (file : Option String) : v.run m file = w.run m file := by
  obtain ⟨entryPoint, name, checks⟩ := v
  obtain ⟨entryPoint', name', checks'⟩ := w
  cases h
  rfl

/-- The findings of a validator, or of its absence. -/
def findings (c : Except LoadError Conduct) (m : Model) (file : Option String) :
    List Diagnostic :=
  match c with
  | .ok (entryPoint, checks) => (run ⟨entryPoint, "", checks⟩ m file).sink.diagnostics
  | .error e => [Engine.loadFinding e]

end CustomValidator

open CustomValidator

/-- What loading an artifact gives, as far as findings depend on it, when it is determined by the
path and the time of the artifact. -/
abbrev Behaviour : Type := NormalPath → Int → Except LoadError Conduct

/-- What a load gives at a path that has the given time, or none. -/
def Behaviour.at (f : Behaviour) (key : NormalPath) : Option Int → Except LoadError Conduct
  | some time => f key time
  | none => .error (.missing key)

/-- At a site every artifact that is there behaves as its path and its time say. -/
def Site.Steady (s : Site) (f : Behaviour) : Prop :=
  ∀ key time, s.stamp key = some time → (s.opener.validator key).map conduct = f key time

/-! ## Faithful loaders -/

namespace Loader

/-- How an outcome behaves. -/
def conductOf (o : LoadOutcome) : Except LoadError Conduct := (validatorOf o).map conduct

/-- Every entry is what a fresh load would give at the time of the entry. -/
def Faithful (l : Loader) (f : Behaviour) : Prop :=
  ∀ key e, l.entry? key = some e → conductOf e.outcome = f.at key e.stamp

variable {l : Loader} {f : Behaviour} {s : Site} {key : NormalPath}

theorem faithful_empty : empty.Faithful f := by
  intro key e he
  cases he

/-- Whether or not it repeats an outcome, a load gives what the site shows now. -/
theorem conductOf_loadAt (h : l.Faithful f) (hs : s.Steady f) :
    conductOf (l.loadAt s key).outcome = f.at key (s.stamp key) := by
  by_cases hit : l.IsHit key (s.stamp key)
  · obtain ⟨e, he, het⟩ := hit
    rw [loadAt_hit he het, ← het]
    exact h key e he
  · unfold conductOf
    rw [validatorOf_loadAt_miss hit, ← Site.isSome_stamp]
    cases ht : s.stamp key with
    | none => rfl
    | some time => exact hs key time ht

theorem faithful_loadAt (key : NormalPath) (h : l.Faithful f) (hs : s.Steady f) :
    (l.loadAt s key).loader.Faithful f := by
  intro other e he
  unfold loadAt at he
  rw [entry?_loadStamped] at he
  split at he
  · rename_i ho
    cases he
    rw [ho]
    exact conductOf_loadAt h hs
  · exact h other e he

theorem faithful_forgetKey (h : l.Faithful f) : (l.forgetKey key).1.Faithful f := by
  intro other e he
  rw [entry?_forgetKey] at he
  split at he
  · cases he
  · exact h other e he

theorem faithful_drop (h : l.Faithful f) (o : LoadOutcome) : (l.drop o).Faithful f := by
  intro other e he
  rw [entry?_drop] at he
  exact h other e he

end Loader

/-! ## One pass -/

namespace Engine

variable {e : Engine} {f : Behaviour} {s : Site} {provided : Option String} {m : Model}
  {file : Option String}

/-- A pass runs the validator in the outcome of the load, and drops its reference to it. -/
theorem runValidator_cases (e : Engine) (s : Site) (path : String) (m : Model)
    (file : Option String) :
    (∃ h, (e.loader.loadAt s (s.key path)).outcome = .ok h ∧
      (e.runValidator s path m file).engine.loader =
        (e.loader.loadAt s (s.key path)).loader.drop (.ok h) ∧
      (e.runValidator s path m file).diagnostics = (h.validator.run m file).sink.diagnostics) ∨
    (∃ err, (e.loader.loadAt s (s.key path)).outcome = .error err ∧
      (e.runValidator s path m file).engine.loader = (e.loader.loadAt s (s.key path)).loader ∧
      (e.runValidator s path m file).diagnostics = [loadFinding err]) := by
  unfold runValidator
  rw [Loader.load_eq]
  cases ho : (e.loader.loadAt s (s.key path)).outcome with
  | ok h => exact Or.inl ⟨h, rfl, by simp only [ho], by simp only [ho]⟩
  | error err => exact Or.inr ⟨err, rfl, by simp only [ho], by simp only [ho]⟩

theorem diagnostics_runValidator (path : String) :
    (e.runValidator s path m file).diagnostics =
      findings (Loader.conductOf (e.loader.loadAt s (s.key path)).outcome) m file := by
  rcases e.runValidator_cases s path m file with ⟨h, ho, -, hd⟩ | ⟨err, ho, -, hd⟩
  · have hrun : h.validator.run m file =
        run ⟨h.validator.entryPoint, "", h.validator.checks⟩ m file :=
      run_eq_of_conduct rfl m file
    rw [hd, ho, hrun]
    rfl
  · rw [hd, ho]
    rfl

theorem faithful_runValidator (h : e.loader.Faithful f) (hs : s.Steady f) (path : String) :
    (e.runValidator s path m file).engine.loader.Faithful f := by
  have hload := Loader.faithful_loadAt (s.key path) h hs
  rcases e.runValidator_cases s path m file with ⟨handle, -, hl, -⟩ | ⟨err, -, hl, -⟩
  · rw [hl]
    exact Loader.faithful_drop hload _
  · rw [hl]
    exact hload

theorem loader_switch_cases (e : Engine) (workingDirectory : NormalPath) (path : Option String) :
    (e.switch workingDirectory path).1.loader = e.loader ∨
      ∃ key, (e.switch workingDirectory path).1.loader = (e.loader.forgetKey key).1 := by
  unfold switch
  split
  · exact Or.inl rfl
  · split
    · exact Or.inl rfl
    · exact Or.inr ⟨_, rfl⟩

theorem faithful_switch (h : e.loader.Faithful f) (workingDirectory : NormalPath)
    (path : Option String) : (e.switch workingDirectory path).1.loader.Faithful f := by
  rcases e.loader_switch_cases workingDirectory path with hl | ⟨key, hl⟩
  · rw [hl]
    exact h
  · rw [hl]
    exact Loader.faithful_forgetKey h

/-- What the validator at a path reports at a site. -/
def customFindings (f : Behaviour) (s : Site) (provided : Option String) (m : Model)
    (file : Option String) : List Diagnostic :=
  match provided with
  | none => []
  | some path => findings (f.at (s.key path) (s.stamp (s.key path))) m file

theorem diagnostics_runCustom (h : e.loader.Faithful f) (hs : s.Steady f) :
    (e.runCustom s provided m file).diagnostics = customFindings f s provided m file := by
  have hsw := faithful_switch h s.files.workingDirectory provided
  unfold runCustom customFindings
  cases provided with
  | none => rfl
  | some path =>
    refine (diagnostics_runValidator path).trans ?_
    rw [Loader.conductOf_loadAt hsw hs]

theorem faithful_runCustom (h : e.loader.Faithful f) (hs : s.Steady f) :
    (e.runCustom s provided m file).engine.loader.Faithful f := by
  have hsw := faithful_switch h s.files.workingDirectory provided
  unfold runCustom
  cases provided with
  | none => exact hsw
  | some path => exact faithful_runValidator hsw hs path

/-- With a faithful loader the findings of a pass do not depend on what the loader remembers. -/
theorem diagnostics_validateModel (h : e.loader.Faithful f) (hs : s.Steady f)
    (rules : AttributeRules) :
    (e.validateModel rules s provided m file).diagnostics =
      (ownFindings rules m ++ customFindings f s provided m file).map (·.fillFile file) := by
  unfold validateModel
  rw [← diagnostics_runCustom h hs]

end Engine

/-! ## Runs of a fleet -/

/-- Engines that share a loader: the loader, and the path that each engine used last. -/
structure Fleet (ι : Type) where
  loader : Loader
  active : ι → Option String

/-- A pass over a model by one of the engines, with what it sees of the host and the answer about
the path of its validator. -/
structure Turn (ι : Type) where
  who : ι
  site : Site
  provided : Option String
  model : Model
  file : Option String

namespace Fleet

variable {ι : Type}

def start : Fleet ι := ⟨.empty, fun _ => none⟩

def pass (rules : ι → AttributeRules) (fl : Fleet ι) (t : Turn ι) : Pass :=
  (⟨fl.active t.who, fl.loader⟩ : Engine).validateModel (rules t.who) t.site t.provided t.model
    t.file

variable [DecidableEq ι] (rules : ι → AttributeRules)

def step (fl : Fleet ι) (t : Turn ι) : Fleet ι :=
  ⟨(fl.pass rules t).engine.loader,
    Function.update fl.active t.who (fl.pass rules t).engine.active⟩

/-- A fleet that began with an empty loader, after the turns of a run, the latest first. -/
def after : List (Turn ι) → Fleet ι
  | [] => start
  | t :: earlier => (after earlier).step rules t

theorem faithful_after {f : Behaviour} (turns : List (Turn ι))
    (hs : ∀ t ∈ turns, t.site.Steady f) : (after rules turns).loader.Faithful f := by
  induction turns with
  | nil => exact Loader.faithful_empty
  | cons t earlier ih =>
    have he := ih (fun t' ht' => hs t' (List.mem_cons_of_mem _ ht'))
    exact Engine.faithful_runCustom (e := ⟨(after rules earlier).active t.who, _⟩) he
      (hs t List.mem_cons_self)

/-- **The cache is unobservable.** When opening an artifact is determined by its path and its time,
every pass of every run reports what an engine with an empty loader would report at that moment,
whichever path that engine used last; and no turn of an engine changes what a later one reports. -/
theorem cache_unobservable (f : Behaviour) (earlier : List (Turn ι)) (t : Turn ι)
    (hs : ∀ t' ∈ t :: earlier, t'.site.Steady f) :
    (∀ active : Option String,
      ((after rules earlier).pass rules t).diagnostics =
        ((⟨active, .empty⟩ : Engine).validateModel (rules t.who) t.site t.provided t.model
          t.file).diagnostics) ∧
      ∀ other : Turn ι, other.site.Steady f →
        ((after rules (other :: earlier)).pass rules t).diagnostics =
          ((after rules earlier).pass rules t).diagnostics := by
  have ht : t.site.Steady f := hs t List.mem_cons_self
  have hearlier : ∀ t' ∈ earlier, t'.site.Steady f :=
    fun t' ht' => hs t' (List.mem_cons_of_mem _ ht')
  have report : ∀ (active : Option String) (l : Loader), l.Faithful f →
      ((⟨active, l⟩ : Engine).validateModel (rules t.who) t.site t.provided t.model
        t.file).diagnostics =
      (Engine.ownFindings (rules t.who) t.model ++
        Engine.customFindings f t.site t.provided t.model t.file).map (·.fillFile t.file) :=
    fun active l hl => Engine.diagnostics_validateModel (e := ⟨active, l⟩) hl ht (rules t.who)
  -- Both reports are the findings of the site, and no loader occurs in those.
  have now := report ((after rules earlier).active t.who) _ (faithful_after rules earlier hearlier)
  refine ⟨?_, ?_⟩
  · intro active
    exact now.trans (report active .empty Loader.faithful_empty).symm
  · intro other ho
    have later := faithful_after rules (other :: earlier) (fun t' ht' => by
      rcases List.mem_cons.mp ht' with rfl | ht'
      · exact ho
      · exact hearlier t' ht')
    exact (report _ _ later).trans now.symm

end Fleet

/-! ## A host that behaves as told -/

/-- A site whose artifacts behave as their path and their time say. -/
def Behaviour.site (f : Behaviour) (files : FileSystem) : Site where
  files
  opener key :=
    match files.modified? key.text with
    | none => .error (.missing key)
    | some time =>
      match f key time with
      | .error e => .error e
      | .ok (entryPoint, checks) =>
        .ok { kitVersion := kitVersion, entryPoint, construct := .ok ⟨"", checks⟩ }

theorem steady_site (f : Behaviour) (files : FileSystem) : (f.site files).Steady f := by
  intro key time ht
  have ht' : files.modified? key.text = some time := ht
  unfold Opener.validator Behaviour.site
  simp only [ht']
  cases f key time with
  | error e => rfl
  | ok c => rfl

namespace Fleet

/-- Artifacts that cannot be opened before time 5, and find fault with every model from then on. -/
def lateValidator : Behaviour := fun key time =>
  if time < 5 then .error (.unreadable key "") else
    .ok ("V", [⟨"seen", .model,
      fun _ => ⟨[Rule.customValidatorLoad.diagnostic "seen"], .succeeded⟩⟩])

/-- Two engines with one validator, which is replaced between the passes. One of the engines then
goes over to no validator. The latest turn comes first. -/
def firstTurns : List (Turn Bool) :=
  [⟨true, lateValidator.site (oneFile 8), none, ⟨[]⟩, none⟩,
    ⟨true, lateValidator.site (oneFile 3), some "./v", ⟨[]⟩, none⟩,
    ⟨false, lateValidator.site (oneFile 3), some "v", ⟨[]⟩, some "a"⟩]

/-- The other engine comes back to the replaced validator. -/
def lastTurn : Turn Bool := ⟨false, lateValidator.site (oneFile 8), some "v", ⟨[]⟩, some "b"⟩

theorem steady_turns : ∀ t ∈ lastTurn :: firstTurns, t.site.Steady lateValidator := by
  intro t ht
  simp only [lastTurn, firstTurns, List.mem_cons, List.not_mem_nil, or_false] at ht
  rcases ht with rfl | rfl | rfl | rfl <;> exact steady_site _ _

theorem cache_unobservable_two_engines :
    (∀ t ∈ lastTurn :: firstTurns, t.site.Steady lateValidator) ∧
      ∀ active : Option String,
        ((after (fun _ => .builtIn) firstTurns).pass (fun _ => .builtIn) lastTurn).diagnostics =
          ((⟨active, .empty⟩ : Engine).validateModel .builtIn (lateValidator.site (oneFile 8))
            (some "v") ⟨[]⟩ (some "b")).diagnostics :=
  ⟨steady_turns, (cache_unobservable (fun _ => .builtIn) lateValidator _ _ steady_turns).1⟩

end Fleet

end ImageLint
