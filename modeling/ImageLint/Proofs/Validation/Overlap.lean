import ImageLint.Proofs.Validation.ActivePath

/-!
# Passes that overlap

A pass asks for the path of the validator, switches its engine to it and loads the validator. Passes
of one engine may overlap, and then other passes come between these steps. A pass that has switched
may find the engine on another path when it loads. The path that it loads then has been forgotten
already, and nobody will forget it again unless the engine comes back to it: it is astray.

Beside the engine a record is kept of the paths that went astray in this way and have not been left
since. When no pass is under way these paths and the one in use are exactly what is remembered. If
no pass switches while another still has to load, nothing goes astray.

* `recorded_after`: what is remembered is told by the path in use and by the record.
* `undisturbed_after`: nothing goes astray when switching and loading are not torn apart.
* `remembered_when_idle`: what is left of any passes, and when that is the path in use alone.
* `late_load_goes_astray`: three passes, and an entry that no pass will forget.
-/

namespace ImageLint.Engine

open Host

/-- The next step of some pass. -/
inductive Move where
  /-- A pass asks for the path and gets an answer. -/
  | ask (answer : Option String)
  /-- The pass at a place among those that have an answer switches the engine. -/
  | switch (n : Nat) (site : Site)
  /-- The pass at a place among those that have switched to a path loads the validator. -/
  | load (n : Nat) (site : Site) (m : Model) (file : Option String)

namespace Move

def isSwitch : Move → Bool
  | .switch _ _ => true
  | _ => false

/-- Whether a step is taken in the given working directory. -/
def In (workingDirectory : NormalPath) : Move → Prop
  | .ask _ => True
  | .switch _ s => s.files.workingDirectory = workingDirectory
  | .load _ s _ _ => s.files.workingDirectory = workingDirectory

end Move

/-- An engine with the passes that are under way. -/
structure Overlap where
  engine : Engine
  /-- The answers of the passes that have to switch. -/
  asked : List (Option String)
  /-- The paths of the passes that have to load. -/
  switched : List String
  /-- The paths that were loaded while another was in use, and have not been left since. -/
  astray : List NormalPath

namespace Overlap

def start : Overlap := ⟨fresh, [], [], []⟩

/-- Without a path there is nothing to load, and the pass is through. -/
def runSwitch (o : Overlap) (s : Site) (answer : Option String) : Overlap where
  engine := (o.engine.switch s.files.workingDirectory answer).1
  asked := o.asked
  switched := o.switched ++ answer.toList
  astray :=
    if sameAnswer o.engine.active answer then o.astray
    else o.astray.filter fun key => o.engine.activeKey s.files.workingDirectory ≠ some key

def runLoad (o : Overlap) (s : Site) (path : String) (m : Model) (file : Option String) :
    Overlap where
  engine := (o.engine.runValidator s path m file).engine
  asked := o.asked
  switched := o.switched
  astray :=
    if o.engine.activeKey s.files.workingDirectory = some (s.key path) then o.astray
    else s.key path :: o.astray

def move (o : Overlap) : Move → Overlap
  | .ask answer => { o with asked := o.asked ++ [answer] }
  | .switch n s =>
    match o.asked[n]? with
    | some answer => { o.runSwitch s answer with asked := o.asked.eraseIdx n }
    | none => o
  | .load n s m file =>
    match o.switched[n]? with
    | some path => { o.runLoad s path m file with switched := o.switched.eraseIdx n }
    | none => o

/-- An engine that began with nothing, after the steps of a run, the latest first. -/
def after : List Move → Overlap
  | [] => start
  | m :: earlier => (after earlier).move m

/-- No pass is under way. -/
def Idle (o : Overlap) : Prop := o.asked = [] ∧ o.switched = []

/-- No pass switches while another still has to load. -/
def Undisturbed : List Move → Prop
  | [] => True
  | m :: earlier => (m.isSwitch = true → (after earlier).switched = []) ∧ Undisturbed earlier

/-- The three steps of a pass, one right after another, are a pass. -/
theorem engine_pass (o : Overlap) (s : Site) (answer : Option String) (m : Model)
    (file : Option String) :
    let switched := (o.move (.ask answer)).move (.switch o.asked.length s)
    (match answer with
      | none => switched
      | some _ => switched.move (.load o.switched.length s m file)).engine =
      (o.engine.runCustom s answer m file).engine := by
  cases answer with
  | none =>
    simp only [move, List.getElem?_concat_length]
    rfl
  | some path =>
    have hpath : (o.switched ++ (some path).toList)[o.switched.length]? = some path :=
      List.getElem?_concat_length
    simp only [move, runSwitch, List.getElem?_concat_length, hpath]
    rfl

variable {o : Overlap} {workingDirectory key : NormalPath}

theorem move_switch_cases (o : Overlap) (n : Nat) (s : Site) :
    (∃ answer, o.asked[n]? = some answer ∧
      o.move (.switch n s) = { o.runSwitch s answer with asked := o.asked.eraseIdx n }) ∨
      o.move (.switch n s) = o := by
  unfold move
  cases hn : o.asked[n]? with
  | none => exact Or.inr (by simp only [hn])
  | some answer => exact Or.inl ⟨answer, rfl, by simp only [hn]⟩

theorem move_load_cases (o : Overlap) (n : Nat) (s : Site) (m : Model) (file : Option String) :
    (∃ path, o.switched[n]? = some path ∧
      o.move (.load n s m file) =
        { o.runLoad s path m file with switched := o.switched.eraseIdx n }) ∨
      o.move (.load n s m file) = o := by
  unfold move
  cases hn : o.switched[n]? with
  | none => exact Or.inr (by simp only [hn])
  | some path => exact Or.inl ⟨path, rfl, by simp only [hn]⟩

/-! ## What is remembered -/

/-- The path in use and the paths astray are what is remembered. The path in use may still have to
be loaded by a pass that is under way. -/
structure Recorded (workingDirectory : NormalPath) (o : Overlap) : Prop where
  told : ∀ key, o.engine.loader.Remembers key →
    o.engine.activeKey workingDirectory = some key ∨ key ∈ o.astray
  astray : ∀ key ∈ o.astray, o.engine.loader.Remembers key
  active : ∀ key, o.engine.activeKey workingDirectory = some key →
    o.engine.loader.Remembers key ∨ ∃ path ∈ o.switched, normalize workingDirectory path = key

theorem recorded_start (workingDirectory : NormalPath) : Recorded workingDirectory start where
  told key h := absurd h (Loader.not_remembers_empty key)
  astray := List.forall_mem_nil _
  active := nofun

theorem mem_astray_runSwitch (o : Overlap) (s : Site) (answer : Option String) :
    key ∈ (o.runSwitch s answer).astray ↔
      key ∈ o.astray ∧
        ¬ (o.engine.Leaves answer ∧ o.engine.activeKey s.files.workingDirectory = some key) := by
  unfold runSwitch Leaves
  cases hs : sameAnswer o.engine.active answer with
  | true => simp
  | false => simp

theorem recorded_runSwitch {s : Site} (h : Recorded s.files.workingDirectory o)
    (answer : Option String) : Recorded s.files.workingDirectory (o.runSwitch s answer) := by
  have hactive := o.engine.activeKey_switch s.files.workingDirectory answer
  refine ⟨?_, ?_, ?_⟩
  · intro key hkey
    obtain ⟨hold, hstays⟩ := (remembers_switch o.engine s.files.workingDirectory answer).mp hkey
    by_cases hl : o.engine.Leaves answer
    · -- The path in use has been forgotten, so this one was astray.
      refine Or.inr ((mem_astray_runSwitch o s answer).mpr ⟨?_, hstays⟩)
      exact (h.told key hold).resolve_left fun ha => hstays ⟨hl, ha⟩
    · have hsame := map_normalize_of_sameAnswer ((Bool.not_eq_false _).mp hl)
        s.files.workingDirectory
      rcases h.told key hold with ha | ha
      · exact Or.inl (hactive.trans (hsame.symm.trans ha))
      · exact Or.inr ((mem_astray_runSwitch o s answer).mpr ⟨ha, hstays⟩)
  · intro key hkey
    obtain ⟨hold, hstays⟩ := (mem_astray_runSwitch o s answer).mp hkey
    exact (remembers_switch o.engine s.files.workingDirectory answer).mpr
      ⟨h.astray key hold, hstays⟩
  · intro key hkey
    have hanswer := hactive.symm.trans hkey
    obtain ⟨path, rfl, hpath⟩ := Option.map_eq_some_iff.mp hanswer
    exact Or.inr ⟨path, List.mem_append_right _ List.mem_cons_self, hpath⟩

theorem activeKey_runLoad (o : Overlap) (s : Site) (path : String) (m : Model)
    (file : Option String) (workingDirectory : NormalPath) :
    (o.runLoad s path m file).engine.activeKey workingDirectory =
      o.engine.activeKey workingDirectory :=
  congrArg (Option.map (normalize workingDirectory)) (active_runValidator o.engine s path m file)

theorem recorded_runLoad {s : Site} (h : Recorded s.files.workingDirectory o) (path : String)
    (m : Model) (file : Option String) :
    Recorded s.files.workingDirectory (o.runLoad s path m file) := by
  have hactive := activeKey_runLoad o s path m file s.files.workingDirectory
  have hremembers : ∀ key, (o.runLoad s path m file).engine.loader.Remembers key ↔
      key = s.key path ∨ o.engine.loader.Remembers key :=
    fun key => remembers_runValidator o.engine s path m file
  have hastray : ∀ key, key ∈ (o.runLoad s path m file).astray ↔
      key ∈ o.astray ∨
        key = s.key path ∧ o.engine.activeKey s.files.workingDirectory ≠ some (s.key path) := by
    intro key
    unfold runLoad
    by_cases ha : o.engine.activeKey s.files.workingDirectory = some (s.key path)
    · simp [ha]
    · simp [ha, or_comm]
  refine ⟨?_, ?_, ?_⟩
  · intro key hkey
    rw [hactive, hastray]
    rcases (hremembers key).mp hkey with rfl | hold
    · by_cases ha : o.engine.activeKey s.files.workingDirectory = some (s.key path)
      · exact Or.inl ha
      · exact Or.inr (Or.inr ⟨rfl, ha⟩)
    · exact (h.told key hold).imp_right Or.inl
  · intro key hkey
    refine (hremembers key).mpr ?_
    rcases (hastray key).mp hkey with hold | ⟨hk, -⟩
    · exact Or.inr (h.astray key hold)
    · exact Or.inl hk
  · intro key hkey
    rw [hactive] at hkey
    exact (h.active key hkey).imp_left fun hold => (hremembers key).mpr (Or.inr hold)

/-- A path whose load is through is remembered, so no pass has to load it any more. -/
theorem recorded_finish {s : Site} (h : Recorded s.files.workingDirectory o) {n : Nat}
    {path : String} (hn : o.switched[n]? = some path)
    (hpath : o.engine.loader.Remembers (s.key path)) :
    Recorded s.files.workingDirectory { o with switched := o.switched.eraseIdx n } := by
  refine ⟨h.told, h.astray, ?_⟩
  intro key hkey
  rcases h.active key hkey with hold | ⟨path', hmem, hkey'⟩
  · exact Or.inl hold
  · by_cases hp : path' = path
    · refine Or.inl ?_
      rw [← hkey', hp]
      exact hpath
    · refine Or.inr ⟨path', ?_, hkey'⟩
      obtain ⟨i, hi⟩ := List.mem_iff_getElem?.mp hmem
      refine List.mem_eraseIdx_iff_getElem?.mpr ⟨i, ?_, hi⟩
      rintro rfl
      exact hp (Option.some.inj (hi.symm.trans hn))

theorem recorded_move (h : Recorded workingDirectory o) {m : Move} (hm : m.In workingDirectory) :
    Recorded workingDirectory (o.move m) := by
  cases m with
  | ask answer => exact ⟨h.told, h.astray, h.active⟩
  | switch n s =>
    obtain rfl : s.files.workingDirectory = workingDirectory := hm
    rcases move_switch_cases o n s with ⟨answer, -, heq⟩ | heq
    · rw [heq]
      have hr := recorded_runSwitch h answer
      exact ⟨hr.told, hr.astray, hr.active⟩
    · rw [heq]
      exact h
  | load n s m file =>
    obtain rfl : s.files.workingDirectory = workingDirectory := hm
    rcases move_load_cases o n s m file with ⟨path, hn, heq⟩ | heq
    · rw [heq]
      have hr := recorded_runLoad h path m file
      exact recorded_finish hr hn
        ((remembers_runValidator o.engine s path m file).mpr (Or.inl rfl))
    · rw [heq]
      exact h

theorem recorded_after {run : List Move} (hrun : ∀ m ∈ run, m.In workingDirectory) :
    Recorded workingDirectory (after run) := by
  induction run with
  | nil => exact recorded_start workingDirectory
  | cons m earlier ih =>
    exact recorded_move (ih fun m' hm' => hrun m' (List.mem_cons_of_mem _ hm'))
      (hrun m List.mem_cons_self)

theorem Recorded.mem_keys_iff (h : Recorded workingDirectory o) (hidle : o.Idle)
    (key : NormalPath) :
    key ∈ Association.keys o.engine.loader.entries ↔
      o.engine.activeKey workingDirectory = some key ∨ key ∈ o.astray := by
  rw [Loader.mem_keys_iff_remembers]
  refine ⟨h.told key, ?_⟩
  rintro (hactive | hastray)
  · refine (h.active key hactive).resolve_right ?_
    rintro ⟨path, hpath, -⟩
    rw [hidle.2] at hpath
    cases hpath
  · exact h.astray key hastray

theorem keys_eq_nil_of_active {e : Engine}
    (h : ∀ key ∈ Association.keys e.loader.entries, e.activeKey workingDirectory = some key)
    (hnone : e.active = none) : Association.keys e.loader.entries = [] := by
  refine List.eq_nil_iff_forall_not_mem.mpr ?_
  intro key hkey
  have hactive := h key hkey
  unfold activeKey at hactive
  rw [hnone] at hactive
  cases hactive

/-! ## Passes that do not tear each other apart -/

/-- Passes that have to load find the engine on their path. -/
structure OnPath (workingDirectory : NormalPath) (o : Overlap) : Prop where
  astray : o.astray = []
  switched : ∀ path ∈ o.switched,
    o.engine.activeKey workingDirectory = some (normalize workingDirectory path)

theorem onPath_move (h : OnPath workingDirectory o) {m : Move} (hm : m.In workingDirectory)
    (halone : m.isSwitch = true → o.switched = []) : OnPath workingDirectory (o.move m) := by
  cases m with
  | ask answer => exact ⟨h.astray, h.switched⟩
  | switch n s =>
    obtain rfl : s.files.workingDirectory = workingDirectory := hm
    rcases move_switch_cases o n s with ⟨answer, -, heq⟩ | heq
    · rw [heq]
      refine ⟨?_, ?_⟩
      · unfold runSwitch
        simp [h.astray]
      · intro path hpath
        have hanswer : path ∈ o.switched ++ answer.toList := hpath
        rw [halone rfl, List.nil_append, Option.mem_toList] at hanswer
        refine (o.engine.activeKey_switch s.files.workingDirectory answer).trans ?_
        rw [hanswer]
        rfl
    · rw [heq]
      exact h
  | load n s m file =>
    obtain rfl : s.files.workingDirectory = workingDirectory := hm
    rcases move_load_cases o n s m file with ⟨path, hn, heq⟩ | heq
    · rw [heq]
      refine ⟨?_, ?_⟩
      · have hactive := h.switched path (List.mem_of_getElem? hn)
        exact (if_pos hactive).trans h.astray
      · intro path' hpath'
        refine (activeKey_runLoad o s path m file s.files.workingDirectory).trans ?_
        exact h.switched path' (List.mem_of_mem_eraseIdx hpath')
    · rw [heq]
      exact h

theorem undisturbed_after {run : List Move} (hrun : ∀ m ∈ run, m.In workingDirectory)
    (halone : Undisturbed run) : OnPath workingDirectory (after run) := by
  induction run with
  | nil => exact ⟨rfl, List.forall_mem_nil _⟩
  | cons m earlier ih =>
    have hearlier := ih (fun m' hm' => hrun m' (List.mem_cons_of_mem _ hm')) halone.2
    exact onPath_move hearlier (hrun m List.mem_cons_self) halone.1

/-- **Passes that overlap.** When no pass is under way, the path in use and the paths astray are
exactly what is remembered. So nothing else than the path in use is remembered exactly if no other
path is astray; and this is so when no pass switches while another still has to load. -/
theorem remembered_when_idle (workingDirectory : NormalPath) (run : List Move)
    (hrun : ∀ m ∈ run, m.In workingDirectory) :
    let o := after run
    let keys := Association.keys o.engine.loader.entries
    (o.Idle → ∀ key, key ∈ keys ↔
      o.engine.activeKey workingDirectory = some key ∨ key ∈ o.astray) ∧
      (o.Idle → (((∀ key ∈ keys, o.engine.activeKey workingDirectory = some key) ∧
          (o.engine.active = none → keys = [])) ↔
        ∀ key ∈ o.astray, o.engine.activeKey workingDirectory = some key)) ∧
      (Undisturbed run → o.astray = []) := by
  have hr := recorded_after hrun
  refine ⟨hr.mem_keys_iff, ?_, fun halone => (undisturbed_after hrun halone).astray⟩
  intro hidle
  have hmem := hr.mem_keys_iff hidle
  constructor
  · rintro ⟨honly, -⟩ key hkey
    exact honly key ((hmem key).mpr (Or.inr hkey))
  · intro hastray
    have honly : ∀ key ∈ Association.keys (after run).engine.loader.entries,
        (after run).engine.activeKey workingDirectory = some key := by
      intro key hkey
      rcases (hmem key).mp hkey with hactive | ha
      · exact hactive
      · exact hastray key ha
    exact ⟨honly, keys_eq_nil_of_active honly⟩

/-! ## Three passes and two paths -/

def here : Site := Fleet.lateValidator.site (oneFile 8)

theorem key_here : here.key "v" = ⟨["v"]⟩ ∧ here.key "w" = ⟨["w"]⟩ := by decide

theorem sameAnswer_here :
    sameAnswer none (some "v") = false ∧ sameAnswer (some "v") (some "v") = true ∧
      sameAnswer (some "v") (some "w") = false := by decide

/-- Two passes ask before either of them switches, and each of them switches and loads at once. -/
def inTurn : List Move :=
  [.load 0 here ⟨[]⟩ none, .switch 0 here, .load 0 here ⟨[]⟩ none, .switch 0 here,
    .ask (some "w"), .ask (some "v")]

theorem in_inTurn : ∀ m ∈ inTurn, m.In ⟨[]⟩ := by
  simp [inTurn, Move.In, here, Behaviour.site, oneFile]

theorem remembered_when_idle_in_turn :
    (∀ m ∈ inTurn, m.In ⟨[]⟩) ∧ Undisturbed inTurn ∧ (after inTurn).Idle ∧
      ∀ key, key ∈ Association.keys (after inTurn).engine.loader.entries ↔ key = ⟨["w"]⟩ := by
  have halone : Undisturbed inTurn := by
    simp [inTurn, Undisturbed, Move.isSwitch, after, move, runSwitch, runLoad, start]
  have hidle : (after inTurn).Idle := by
    simp [inTurn, Idle, after, move, runSwitch, runLoad, start]
  have hactive : (after inTurn).engine.activeKey ⟨[]⟩ = some ⟨["w"]⟩ := by
    have hw : normalize ⟨[]⟩ "w" = ⟨["w"]⟩ := key_here.2
    simp [inTurn, activeKey, after, move, runSwitch, runLoad, start, fresh, active_switch,
      active_runValidator, sameAnswer_here, hw]
  obtain ⟨hmem, -, hastray⟩ := remembered_when_idle ⟨[]⟩ inTurn in_inTurn
  refine ⟨in_inTurn, halone, hidle, ?_⟩
  intro key
  rw [hmem hidle key, hastray halone, hactive, Option.some.injEq, eq_comm]
  exact or_iff_left List.not_mem_nil

/-- A pass is through with the first path. A second one is about to load that path when a third one
moves the engine on to another path. -/
def lateLoad : List Move :=
  [.load 0 here ⟨[]⟩ none, .load 1 here ⟨[]⟩ none, .switch 0 here, .ask (some "w"),
    .switch 0 here, .ask (some "v"), .load 0 here ⟨[]⟩ none, .switch 0 here, .ask (some "v")]

theorem in_lateLoad : ∀ m ∈ lateLoad, m.In ⟨[]⟩ := by
  simp [lateLoad, Move.In, here, Behaviour.site, oneFile]

/-- All three passes are through and the engine uses the second path, but the first one is
remembered as well. -/
theorem late_load_goes_astray :
    (∀ m ∈ lateLoad, m.In ⟨[]⟩) ∧ (after lateLoad).Idle ∧
      (after lateLoad).engine.active = some "w" ∧
      (after lateLoad).engine.activeKey ⟨[]⟩ = some ⟨["w"]⟩ ∧
      ⟨["v"]⟩ ∈ Association.keys (after lateLoad).engine.loader.entries := by
  have hv : normalize ⟨[]⟩ "v" = ⟨["v"]⟩ := key_here.1
  have hw : normalize ⟨[]⟩ "w" = ⟨["w"]⟩ := key_here.2
  have hidle : (after lateLoad).Idle := by
    simp [lateLoad, Idle, after, move, runSwitch, runLoad, start]
  have hactive : (after lateLoad).engine.active = some "w" := by
    simp [lateLoad, after, move, runSwitch, runLoad, start, fresh, active_switch,
      active_runValidator, sameAnswer_here]
  have hastray : (after lateLoad).astray = [⟨["v"]⟩] := by
    have hdirectory : here.files.workingDirectory = ⟨[]⟩ := rfl
    simp [lateLoad, activeKey, after, move, runSwitch, runLoad, start, fresh, active_switch,
      active_runValidator, sameAnswer_here, hdirectory, key_here, hv, hw]
  have hr := recorded_after in_lateLoad
  refine ⟨in_lateLoad, hidle, hactive, ?_, ?_⟩
  · unfold activeKey
    rw [hactive, Option.map_some, hw]
  · refine Loader.mem_keys_iff_remembers.mpr (hr.astray _ ?_)
    rw [hastray]
    exact List.mem_cons_self

end Overlap

end ImageLint.Engine
