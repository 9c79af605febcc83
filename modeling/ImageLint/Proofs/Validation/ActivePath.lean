import ImageLint.Proofs.Loader.Ownership
import ImageLint.Proofs.Validation.SharedLoader

/-!
# The path that an engine uses

An engine keeps the path of the validator that it used last, as it was written; its loader keeps
entries by normal paths. When the answer about the path changes, the entry of the former path is
forgotten before the new validator is loaded. Of an engine that has its loader for itself and whose
passes follow one another, the entry of the last answer is therefore all that is left.

* `remembers_loadAt`, `remembers_forgetKey`, `remembers_switch`, `remembers_runValidator`: which
  paths are remembered after each step of a pass.
* `tidy_runCustom`: a pass leaves the path in use as the only one that is remembered.
* `accounted_runCustom`: a pass keeps no reference to a validator.
* `switching_law`: both for every pass of every run, and passes that ask for nothing.
-/

namespace ImageLint

open Host

/-! ## What a loader remembers -/

namespace Association

variable {κ α : Type} [DecidableEq κ] {key : κ} {entries : List (κ × α)}

theorem isSome_lookup_iff : (entries.lookup key).isSome ↔ key ∈ keys entries := by
  induction entries with
  | nil => simp [keys]
  | cons p rest ih =>
    obtain ⟨k, a⟩ := p
    rw [lookup_cons, keys_cons, List.mem_cons, ← ih]
    by_cases hk : key = k
    · simp [hk]
    · simp [hk]

end Association

namespace Loader

variable {l : Loader} {s : Site} {key other : NormalPath}

def Remembers (l : Loader) (key : NormalPath) : Prop := (l.entry? key).isSome

theorem mem_keys_iff_remembers : key ∈ Association.keys l.entries ↔ l.Remembers key :=
  Association.isSome_lookup_iff.symm

theorem not_remembers_empty (key : NormalPath) : ¬ empty.Remembers key := by
  intro h
  cases h

theorem remembers_drop (o : LoadOutcome) : Remembers (l.drop o) key ↔ l.Remembers key := by
  unfold Remembers
  rw [entry?_drop]

theorem remembers_loadAt :
    (l.loadAt s key).loader.Remembers other ↔ other = key ∨ l.Remembers other := by
  unfold Remembers loadAt
  rw [entry?_loadStamped]
  by_cases ho : other = key
  · simp [ho]
  · simp [ho]

theorem remembers_forgetKey :
    (l.forgetKey key).1.Remembers other ↔ other ≠ key ∧ l.Remembers other := by
  unfold Remembers
  rw [entry?_forgetKey]
  by_cases ho : other = key
  · simp [ho]
  · simp [ho]

/-- A loader that remembers just one path, or none, has one entry, or none. -/
theorem keys_eq_toList {o : Option NormalPath} (hn : (Association.keys l.entries).Nodup)
    (h : ∀ key, l.Remembers key ↔ o = some key) : Association.keys l.entries = o.toList := by
  have hmem : ∀ key, key ∈ Association.keys l.entries ↔ o = some key :=
    fun key => mem_keys_iff_remembers.trans (h key)
  cases o with
  | none =>
    refine List.eq_nil_iff_forall_not_mem.mpr ?_
    intro key hkey
    cases (hmem key).mp hkey
  | some k =>
    refine List.perm_singleton.mp ((List.perm_ext_iff_of_nodup hn (List.nodup_singleton k)).mpr ?_)
    intro key
    rw [hmem, List.mem_singleton, Option.some.injEq, eq_comm]

theorem length_entryIds_le (entries : List (NormalPath × CacheEntry)) :
    (entryIds entries).length ≤ entries.length := by
  induction entries with
  | nil => exact Nat.le_refl 0
  | cons p rest ih =>
    have hids : (ids p.2.outcome).length ≤ 1 := by
      cases p.2.outcome <;> simp [ids, handles]
    have hcons : entryIds (p :: rest) = ids p.2.outcome ++ entryIds rest := rfl
    rw [hcons, List.length_append, List.length_cons]
    omega

/-- When nobody but the entries holds on to validators, no more are alive than there are entries. -/
theorem length_alive_le (h : l.Accounted []) : l.guards.alive.length ≤ l.entries.length := by
  have hperm := h.balanced.alive_perm.length_eq
  have hdedup := (List.dedup_sublist (entryIds l.entries ++ [])).length_le
  have hentries := length_entryIds_le l.entries
  rw [List.append_nil] at hperm hdedup
  omega

end Loader

/-! ## Switching -/

namespace Engine

variable {e : Engine} {s : Site} {provided : Option String} {m : Model} {file : Option String}
  {key workingDirectory : NormalPath}

/-- The normal form of the path in use. -/
def activeKey (e : Engine) (workingDirectory : NormalPath) : Option NormalPath :=
  e.active.map (normalize workingDirectory)

/-- An answer that is not just another spelling of the path in use. -/
def Leaves (e : Engine) (answer : Option String) : Prop := sameAnswer e.active answer = false

theorem map_normalize_of_sameAnswer {a b : Option String} (h : sameAnswer a b = true)
    (workingDirectory : NormalPath) :
    a.map (normalize workingDirectory) = b.map (normalize workingDirectory) := by
  match a, b with
  | none, none => rfl
  | some a, some b =>
    have hc : components a = components b := of_decide_eq_true h
    simp only [Option.map_some, Host.normalize, hc]
  | none, some b => cases h
  | some a, none => cases h

/-- The three things that switching can do: nothing, take a first path, or forget the former one. -/
theorem switch_cases (e : Engine) (workingDirectory : NormalPath) (answer : Option String) :
    (¬ e.Leaves answer ∧ (e.switch workingDirectory answer).1 = e) ∨
    (e.Leaves answer ∧ e.active = none ∧
      (e.switch workingDirectory answer).1 = ⟨answer, e.loader⟩) ∨
    (∃ previous, e.Leaves answer ∧ e.active = some previous ∧
      (e.switch workingDirectory answer).1 =
        ⟨answer, (e.loader.forgetKey (normalize workingDirectory previous)).1⟩) := by
  unfold switch Leaves
  cases hs : sameAnswer e.active answer with
  | true => exact Or.inl ⟨by simp, by simp⟩
  | false =>
    cases ha : e.active with
    | none => exact Or.inr (Or.inl ⟨rfl, rfl, rfl⟩)
    | some previous => exact Or.inr (Or.inr ⟨previous, rfl, rfl, rfl⟩)

theorem activeKey_switch (e : Engine) (workingDirectory : NormalPath) (answer : Option String) :
    (e.switch workingDirectory answer).1.activeKey workingDirectory =
      answer.map (normalize workingDirectory) := by
  rcases e.switch_cases workingDirectory answer with ⟨hs, h⟩ | ⟨-, -, h⟩ | ⟨previous, -, -, h⟩
  · rw [h]
    exact map_normalize_of_sameAnswer (Bool.not_eq_false _ ▸ hs) workingDirectory
  · rw [h]
    rfl
  · rw [h]
    rfl

theorem active_switch (e : Engine) (workingDirectory : NormalPath) (answer : Option String) :
    (e.switch workingDirectory answer).1.active =
      if sameAnswer e.active answer then e.active else answer := by
  unfold switch
  split
  · rfl
  · split <;> rfl

/-- Switching makes the loader forget the path that is left, and no other. -/
theorem remembers_switch (e : Engine) (workingDirectory : NormalPath) (answer : Option String) :
    (e.switch workingDirectory answer).1.loader.Remembers key ↔
      e.loader.Remembers key ∧ ¬ (e.Leaves answer ∧ e.activeKey workingDirectory = some key) := by
  rcases e.switch_cases workingDirectory answer with ⟨hs, h⟩ | ⟨-, ha, h⟩ | ⟨previous, hs, ha, h⟩
  · rw [h]
    exact (and_iff_left fun hl => hs hl.1).symm
  · rw [h]
    have hnone : e.activeKey workingDirectory ≠ some key := by
      unfold activeKey
      rw [ha]
      exact nofun
    exact (and_iff_left fun hl => hnone hl.2).symm
  · rw [h, Loader.remembers_forgetKey]
    have hkey : e.activeKey workingDirectory = some key ↔
        key = normalize workingDirectory previous := by
      unfold activeKey
      rw [ha, Option.map_some, Option.some.injEq, eq_comm]
    rw [hkey, and_comm]
    exact and_congr_right fun _ => not_congr (and_iff_right hs).symm

/-! ## One pass -/

theorem active_runValidator (e : Engine) (s : Site) (path : String) (m : Model)
    (file : Option String) : (e.runValidator s path m file).engine.active = e.active := by
  unfold runValidator
  dsimp only
  split <;> rfl

theorem remembers_runValidator (e : Engine) (s : Site) (path : String) (m : Model)
    (file : Option String) :
    (e.runValidator s path m file).engine.loader.Remembers key ↔
      key = s.key path ∨ e.loader.Remembers key := by
  rw [← Loader.remembers_loadAt (s := s)]
  rcases e.runValidator_cases s path m file with ⟨h, -, hl, -⟩ | ⟨err, -, hl, -⟩
  · rw [hl, Loader.remembers_drop]
  · rw [hl]

/-- The path in use is remembered, and nothing else. -/
def Tidy (e : Engine) (workingDirectory : NormalPath) : Prop :=
  ∀ key, e.loader.Remembers key ↔ e.activeKey workingDirectory = some key

theorem tidy_fresh (workingDirectory : NormalPath) : fresh.Tidy workingDirectory := by
  intro key
  refine iff_of_false (Loader.not_remembers_empty key) ?_
  intro h
  cases h

/-- Nothing but the new path can be remembered after switching. -/
theorem activeKey_of_remembers_switch (h : e.Tidy workingDirectory) (answer : Option String)
    (hkey : (e.switch workingDirectory answer).1.loader.Remembers key) :
    answer.map (normalize workingDirectory) = some key := by
  obtain ⟨hold, hstays⟩ := (remembers_switch e workingDirectory answer).mp hkey
  have hactive := (h key).mp hold
  have hsame : sameAnswer e.active answer = true := by
    by_contra hs
    exact hstays ⟨(Bool.not_eq_true _).mp hs, hactive⟩
  exact (map_normalize_of_sameAnswer hsame workingDirectory).symm.trans hactive

theorem tidy_runCustom (h : e.Tidy s.files.workingDirectory) (provided : Option String) (m : Model)
    (file : Option String) :
    (e.runCustom s provided m file).engine.Tidy s.files.workingDirectory ∧
      (e.runCustom s provided m file).engine.activeKey s.files.workingDirectory =
        provided.map s.key := by
  have hactive := e.activeKey_switch s.files.workingDirectory provided
  have hswitched : ∀ key, (e.switch s.files.workingDirectory provided).1.loader.Remembers key →
      provided.map s.key = some key := fun key => activeKey_of_remembers_switch h provided
  unfold runCustom
  cases provided with
  | none =>
    refine ⟨?_, hactive⟩
    intro key
    refine ⟨fun hkey => hactive.trans (hswitched key hkey), ?_⟩
    intro hkey
    rw [hactive] at hkey
    cases hkey
  | some path =>
    have hkept :=
      active_runValidator (e.switch s.files.workingDirectory (some path)).1 s path m file
    have hkey : ((e.switch s.files.workingDirectory (some path)).1.runValidator s path m
        file).engine.activeKey s.files.workingDirectory = some (s.key path) := by
      unfold activeKey at hactive ⊢
      rw [hkept, hactive]
      rfl
    refine ⟨?_, hkey⟩
    intro key
    rw [hkey, Option.some.injEq]
    refine (remembers_runValidator _ s path m file).trans ?_
    constructor
    · rintro (rfl | hold)
      · rfl
      · exact Option.some.inj (hswitched key hold)
    · rintro rfl
      exact Or.inl rfl

theorem accounted_switch {outside : List Nat} (h : e.loader.Accounted outside)
    (workingDirectory : NormalPath) (answer : Option String) :
    (e.switch workingDirectory answer).1.loader.Accounted outside := by
  rcases e.loader_switch_cases workingDirectory answer with hl | ⟨key, hl⟩
  · rw [hl]
    exact h
  · rw [hl]
    exact Loader.accounted_forgetKey h

/-- A pass drops the validator that it has run. -/
theorem accounted_runValidator {outside : List Nat} (h : e.loader.Accounted outside) (s : Site)
    (path : String) (m : Model) (file : Option String) :
    (e.runValidator s path m file).engine.loader.Accounted outside := by
  have hload : (e.loader.loadAt s (s.key path)).loader.Accounted
      (Loader.ids (e.loader.loadAt s (s.key path)).outcome ++ outside) :=
    Loader.accounted_loadStamped (s.key path) h _ _ _
  rcases e.runValidator_cases s path m file with ⟨handle, ho, hl, -⟩ | ⟨err, ho, hl, -⟩
  · rw [ho] at hload
    rw [hl]
    exact Loader.accounted_drop hload
  · rw [ho] at hload
    rw [hl]
    exact hload

theorem accounted_runCustom {outside : List Nat} (h : e.loader.Accounted outside) (s : Site)
    (provided : Option String) (m : Model) (file : Option String) :
    (e.runCustom s provided m file).engine.loader.Accounted outside := by
  have hswitched := accounted_switch h s.files.workingDirectory provided
  unfold runCustom
  cases provided with
  | none => exact hswitched
  | some path => exact accounted_runValidator hswitched s path m file

/-- What is true of an engine between passes, when nobody but its loader holds on to validators. -/
structure Kept (e : Engine) (workingDirectory : NormalPath) : Prop where
  tidy : e.Tidy workingDirectory
  accounted : e.loader.Accounted []

theorem keys_of_kept (h : e.Kept workingDirectory) :
    Association.keys e.loader.entries = (e.activeKey workingDirectory).toList :=
  Loader.keys_eq_toList h.accounted.keys_nodup h.tidy

theorem length_alive_of_kept (h : e.Kept workingDirectory) :
    e.loader.guards.alive.length ≤ 1 := by
  have halive := Loader.length_alive_le h.accounted
  have hkeys := congrArg List.length (keys_of_kept h)
  have hone : (e.activeKey workingDirectory).toList.length ≤ 1 := by
    cases e.activeKey workingDirectory <;> simp
  unfold Association.keys at hkeys
  rw [List.length_map] at hkeys
  omega

/-! ## Passes one after another -/

/-- A document that is validated, and the host at that time. -/
structure Visit where
  site : Site
  document : Document

section Visits

variable {σ : Type} (rules : AttributeRules) (ask : StateM σ (Option String))

/-- A pass over a document. The answers about the path come from a source with a state of its
own. -/
def visit (p : Engine × σ) (v : Visit) : Engine × σ :=
  let (pass, source) := (p.1.validateAsking rules v.site ask v.document).run p.2
  (pass.engine, source)

/-- A new engine and a source of paths, after the passes of a run, the latest first. -/
def afterVisits (source : σ) : List Visit → Engine × σ
  | [] => (fresh, source)
  | v :: earlier => visit rules ask (afterVisits source earlier) v

theorem afterVisits_cons (source : σ) (v : Visit) (earlier : List Visit) :
    afterVisits rules ask source (v :: earlier) =
      visit rules ask (afterVisits rules ask source earlier) v := rfl

theorem visit_of_clean {v : Visit} (hv : v.document.syntaxDiagnostics = []) (p : Engine × σ) :
    visit rules ask p v =
      ((p.1.runCustom v.site (ask.run p.2).1 v.document.model v.document.file).engine,
        (ask.run p.2).2) := by
  unfold visit validateAsking
  rw [hv]
  rfl

theorem visit_of_broken {v : Visit} (hv : v.document.syntaxDiagnostics ≠ []) (p : Engine × σ) :
    visit rules ask p v = p := by
  have hempty : v.document.syntaxDiagnostics.isEmpty = false := by
    rw [← Bool.not_eq_true, List.isEmpty_iff]
    exact hv
  unfold visit validateAsking
  rw [hempty]
  rfl

theorem kept_visit {v : Visit} {p : Engine × σ} (h : p.1.Kept v.site.files.workingDirectory) :
    (visit rules ask p v).1.Kept v.site.files.workingDirectory := by
  by_cases hv : v.document.syntaxDiagnostics = []
  · rw [visit_of_clean rules ask hv]
    exact ⟨(tidy_runCustom h.tidy _ _ _).1, accounted_runCustom h.accounted _ _ _ _⟩
  · rw [visit_of_broken rules ask hv]
    exact h

theorem kept_afterVisits (source : σ) (workingDirectory : NormalPath) (visits : List Visit)
    (hwd : ∀ v ∈ visits, v.site.files.workingDirectory = workingDirectory) :
    (afterVisits rules ask source visits).1.Kept workingDirectory := by
  induction visits with
  | nil => exact ⟨tidy_fresh workingDirectory, Loader.accounted_empty⟩
  | cons v earlier ih =>
    have hearlier := ih fun v' hv' => hwd v' (List.mem_cons_of_mem _ hv')
    obtain rfl := hwd v List.mem_cons_self
    exact kept_visit rules ask hearlier

/-- What a pass over a document does to an engine and to the source of its paths. -/
structure SwitchingLaw (workingDirectory : NormalPath) (d : Document)
    (before after : Engine × σ) : Prop where
  /-- The source is asked, and its answer is all that is remembered. -/
  of_clean : d.syntaxDiagnostics = [] →
    after.2 = (ask.run before.2).2 ∧
      Association.keys after.1.loader.entries =
        ((ask.run before.2).1.map (normalize workingDirectory)).toList
  /-- The source is not asked, and the engine stays as it was. -/
  of_broken : d.syntaxDiagnostics ≠ [] → after = before
  alive_le_one : after.1.loader.guards.alive.length ≤ 1

/-- **Switching.** After every pass over a document that is looked into, the loader has an entry for
the answer of that pass and no other, whether or not its validator could be loaded; and at most one
validator is alive. -/
theorem switching_law (workingDirectory : NormalPath) (source : σ) (earlier : List Visit)
    (v : Visit)
    (hwd : ∀ v' ∈ v :: earlier, v'.site.files.workingDirectory = workingDirectory) :
    SwitchingLaw ask workingDirectory v.document (afterVisits rules ask source earlier)
      (afterVisits rules ask source (v :: earlier)) := by
  have hbefore := kept_afterVisits rules ask source workingDirectory earlier
    fun v' hv' => hwd v' (List.mem_cons_of_mem _ hv')
  have hafter := kept_afterVisits rules ask source workingDirectory _ hwd
  refine ⟨?_, ?_, length_alive_of_kept hafter⟩
  · intro hv
    rw [keys_of_kept hafter]
    obtain rfl := hwd v List.mem_cons_self
    rw [afterVisits_cons, visit_of_clean rules ask hv]
    refine ⟨rfl, congrArg Option.toList ?_⟩
    exact (tidy_runCustom hbefore.tidy _ _ _).2
  · intro hv
    exact visit_of_broken rules ask hv _

end Visits

/-! ## A path in two spellings -/

/-- Gives the answers of a list one after another, and no path when they are used up. -/
def answers : StateM (List (Option String)) (Option String) :=
  fun rest => (rest.head?.join, rest.tail)

/-- Two documents that are looked into, and between them one that is not. -/
def threeVisits : List Visit :=
  let here := Fleet.lateValidator.site (oneFile 8)
  [⟨here, ⟨none, ⟨[]⟩, []⟩⟩,
    ⟨here, ⟨none, ⟨[]⟩, [Diagnostic.warning ""]⟩⟩,
    ⟨here, ⟨none, ⟨[]⟩, []⟩⟩]

theorem switching_law_respelled :
    (∀ v ∈ threeVisits, v.site.files.workingDirectory = ⟨[]⟩) ∧
      Association.keys (afterVisits .builtIn answers [some "v", some "w/../v"]
        threeVisits).1.loader.entries = [⟨["v"]⟩] ∧
      (afterVisits .builtIn answers [some "v", some "w/../v"]
        threeVisits).1.loader.guards.alive.length ≤ 1 := by
  have hwd : ∀ v ∈ threeVisits, v.site.files.workingDirectory = ⟨[]⟩ := by
    intro v hv
    simp only [threeVisits, List.mem_cons, List.not_mem_nil, or_false] at hv
    rcases hv with rfl | rfl | rfl <;> rfl
  have hlaw := switching_law .builtIn answers ⟨[]⟩ [some "v", some "w/../v"] _ _ hwd
  have hkeys := (hlaw.of_clean rfl).2
  have hnormal : normalize ⟨[]⟩ "w/../v" = ⟨["v"]⟩ := by decide
  refine ⟨hwd, hkeys.trans ?_, hlaw.alive_le_one⟩
  exact congrArg (fun key => [key]) hnormal

end Engine

end ImageLint
