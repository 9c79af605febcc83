import ImageLint.Proofs.Command.Composition
import ImageLint.Yaml.Config

/-!
# A failed run reports nothing

Four things can make a run fail, and they are met in this order: the configuration cannot be used,
the custom validator does not exist, a document cannot be loaded, the report cannot be written.

* `ConfigFault`, `ValidatorFault`, `DocumentFault`, `ReportFault`: these things, told by what stands
  on the host. Which texts are configurations is up to the decoder, of which nothing is assumed.
* `lintFiles_of_missing`, `lintFiles_of_bad`: a missing validator comes before the documents, and of
  these the first that cannot be loaded ends the run.
* `lint_cases`: a run stops at the first of the first three, or it delivers its reports.
* `failed_run_reports_nothing`: a run fails because of them and of nothing else, with the error of
  the first one, and the first three leave no trace.
-/

namespace ImageLint.Command

open Host

variable {decode : Config.Decoder} {fs : FileSystem} {a : Arguments}
  {environment : List (String × String)} {s : Settings}

/-! ## What can go wrong -/

/-- The configuration file of a run: the one that is named, or else the first default one that is
there. -/
def configFile (fs : FileSystem) (a : Arguments) : Option String :=
  a.configPath.or (Config.defaultPaths.find? fs.isFile)

/-- What is wrong with the configuration of a run. -/
inductive ConfigFault (decode : Config.Decoder) (fs : FileSystem) (a : Arguments) :
    ConfigError → Prop where
  | unreadable {path : String} {e : PathError} :
      configFile fs a = some path → fs.readText path = .error e →
      ConfigFault decode fs a (.unreadable path e)
  | malformed {path text : String} :
      configFile fs a = some path → fs.readText path = .ok text → decode text = none →
      ConfigFault decode fs a (.malformed path)

/-- The settings of a run. A configuration that cannot be used sets nothing. -/
def settingsOf (decode : Config.Decoder) (fs : FileSystem) (a : Arguments)
    (environment : List (String × String)) : Settings :=
  .resolve a (Config.load decode fs a.configPath).toOption.join environment

/-- The custom validator of a run does not exist. -/
def ValidatorFault (fs : FileSystem) (s : Settings) (path : String) : Prop :=
  s.customValidator = some path ∧ fs.isPresent path = false

/-- The reports are finished and cannot be written. -/
def ReportFault (fs : FileSystem) (a : Arguments) (s : Settings) (e : PathError) : Prop :=
  ∃ outcome log path, lintFiles fs a.files s = .ok (outcome, log) ∧ s.reportPath = some path ∧
    fs.writeFile path (.text (s.format.render s.quiet false outcome.reports)) fs.clock = .error e

/-! ## The configuration -/

theorem load_eq (decode : Config.Decoder) (fs : FileSystem) (a : Arguments) :
    Config.load decode fs a.configPath =
      match configFile fs a with
      | some path => some <$> Config.ofFile decode fs path
      | none => .ok none := by
  unfold Config.load configFile
  cases a.configPath with
  | some path => rfl
  | none => rfl

theorem ofFile_eq_error_iff {path : String} {e : ConfigError} :
    Config.ofFile decode fs path = .error e ↔
      (∃ pe, fs.readText path = .error pe ∧ e = .unreadable path pe) ∨
        ∃ text, fs.readText path = .ok text ∧ decode text = none ∧ e = .malformed path := by
  unfold Config.ofFile
  cases fs.readText path with
  | error pe => simp [eq_comm]
  | ok text => cases hparse : decode text <;> simp [hparse, eq_comm]

theorem map_some_eq_error_iff {ε α : Type} {r : Except ε α} {e : ε} :
    some <$> r = .error e ↔ r = .error e := by
  cases r with
  | error e' => exact ⟨fun h => congrArg _ (Except.error.inj h), congrArg _⟩
  | ok b => exact ⟨nofun, nofun⟩

theorem load_eq_error_iff {e : ConfigError} :
    Config.load decode fs a.configPath = .error e ↔ ConfigFault decode fs a e := by
  rw [load_eq]
  constructor
  · intro h
    cases hfile : configFile fs a with
    | none =>
      rw [hfile] at h
      cases h
    | some path =>
      rw [hfile] at h
      rcases ofFile_eq_error_iff.mp (map_some_eq_error_iff.mp h) with
        ⟨pe, hread, rfl⟩ | ⟨text, hread, hparse, rfl⟩
      · exact .unreadable hfile hread
      · exact .malformed hfile hread hparse
  · intro h
    cases h with
    | unreadable hfile hread =>
      rw [hfile]
      exact map_some_eq_error_iff.mpr (ofFile_eq_error_iff.mpr (Or.inl ⟨_, hread, rfl⟩))
    | malformed hfile hread hparse =>
      rw [hfile]
      exact map_some_eq_error_iff.mpr (ofFile_eq_error_iff.mpr (Or.inr ⟨_, hread, hparse, rfl⟩))

/-! ## The documents -/

theorem checkValidator_of_fault {path : String} (h : ValidatorFault fs s path) :
    checkValidator fs s.customValidator = .error (.validatorNotFound path) := by
  obtain ⟨hpath, habsent⟩ := h
  unfold checkValidator
  simp [hpath, habsent]

theorem isOk_checkValidator (h : ¬ ∃ path, ValidatorFault fs s path) :
    (checkValidator fs s.customValidator).isOk = true := by
  cases hpath : s.customValidator with
  | none => rfl
  | some path =>
    cases hpresent : fs.isPresent path with
    | true =>
      have hcheck : checkValidator fs (some path) = .ok () := if_pos hpresent
      rw [hcheck]
      rfl
    | false => exact absurd ⟨path, hpath, hpresent⟩ h

theorem reportAt_of_fault (site : Site) (s : Settings) {path : String} {e : DocumentError}
    (h : DocumentFault site.files path e) : reportAt site s path = .error (.document path e) := by
  have hload := loadDocument_eq_error_iff.mpr ⟨e, h, rfl⟩
  unfold reportAt
  rw [hload]
  rfl

theorem isOk_reportAt (site : Site) (s : Settings) {path : String}
    (h : ¬ ∃ e, DocumentFault site.files path e) : (reportAt site s path).isOk = true := by
  have hload := isOk_loadDocument_iff.mpr fun e he => h ⟨e, he⟩
  unfold reportAt
  cases hd : loadDocument site.files path with
  | ok d => rfl
  | error e =>
    rw [hd] at hload
    cases hload

theorem lintFiles_of_outcomeAt_error {paths : List String} {e : LintError}
    (h : outcomeAt ⟨fs, .native fs⟩ s paths = .error e) : lintFiles fs paths s = .error e := by
  rw [outcomeAt_native] at h
  cases hrun : lintFiles fs paths s with
  | ok found =>
    rw [hrun] at h
    cases h
  | error e' =>
    rw [hrun] at h
    cases h
    rfl

theorem lintFiles_of_missing {path : String} (h : ValidatorFault fs s path) (paths : List String) :
    lintFiles fs paths s = .error (.validatorNotFound path) := by
  apply lintFiles_of_outcomeAt_error
  rw [outcomeAt_eq_mapM, checkValidator_of_fault h]
  rfl

/-- The first document that cannot be loaded ends the run, whatever the ones before it hold. -/
theorem lintFiles_of_bad (hvalidator : ¬ ∃ path, ValidatorFault fs s path)
    {before : List String} {path : String} {e : DocumentError}
    (hbefore : ∀ other ∈ before, ¬ ∃ e, DocumentFault fs other e) (h : DocumentFault fs path e)
    (after : List String) :
    lintFiles fs (before ++ path :: after) s = .error (.document path e) := by
  apply lintFiles_of_outcomeAt_error
  have hok : ∀ other ∈ before, (reportAt ⟨fs, .native fs⟩ s other).isOk = true :=
    fun other hother => isOk_reportAt _ s (hbefore other hother)
  have hfirst := mapM_of_error hok (reportAt_of_fault ⟨fs, .native fs⟩ s h) after
  have hvalid := eq_ok_of_isOk () (isOk_checkValidator hvalidator)
  rw [outcomeAt_eq_mapM, hfirst, hvalid]
  rfl

theorem lintFiles_of_good (hvalidator : ¬ ∃ path, ValidatorFault fs s path) {paths : List String}
    (h : ∀ path ∈ paths, ¬ ∃ e, DocumentFault fs path e) :
    ∃ outcome log, lintFiles fs paths s = .ok (outcome, log) := by
  have hrun := (outcomeAt_eq_ok_iff ⟨fs, .native fs⟩ s).mpr
    ⟨isOk_checkValidator hvalidator, fun path hpath => isOk_reportAt _ s (h path hpath), rfl⟩
  rw [outcomeAt_native] at hrun
  cases hfound : lintFiles fs paths s with
  | ok found => exact ⟨found.1, found.2, rfl⟩
  | error e =>
    rw [hfound] at hrun
    cases hrun

/-! ## The run -/

/-- A run that ends before anything is reported. -/
def stopped (fs : FileSystem) (notes : List String) (e : LintError) : LintRun :=
  { files := fs, output := "", notes, log := [], result := .error e }

variable (coloured : Bool)

theorem lint_of_unconfigured {e : ConfigError} (h : ConfigFault decode fs a e) :
    lint decode fs a environment coloured = stopped fs [] (.config e) := by
  unfold lint
  rw [load_eq_error_iff.mpr h]
  rfl

theorem lint_of_configured (h : ¬ ∃ e, ConfigFault decode fs a e) :
    lint decode fs a environment coloured =
      lintWith fs a (settingsOf decode fs a environment) coloured := by
  unfold lint settingsOf
  cases hload : Config.load decode fs a.configPath with
  | error e => exact absurd ⟨e, load_eq_error_iff.mp hload⟩ h
  | ok config => rfl

theorem lintWith_of_error {e : LintError} (h : lintFiles fs a.files s = .error e) :
    lintWith fs a s coloured = stopped fs (validatorNotes fs s) e := by
  unfold lintWith
  rw [h]
  rfl

theorem lintWith_of_ok {outcome : Outcome} {log : List Log.Line}
    (h : lintFiles fs a.files s = .ok (outcome, log)) :
    lintWith fs a s coloured = deliver fs s coloured outcome (validatorNotes fs s) log := by
  unfold lintWith
  rw [h]

theorem isOk_deliver (outcome : Outcome) (notes : List String) (log : List Log.Line) :
    (deliver fs s coloured outcome notes log).result.isOk = false ↔
      ∃ path e, s.reportPath = some path ∧
        fs.writeFile path (.text (s.format.render s.quiet false outcome.reports)) fs.clock =
          .error e := by
  unfold deliver
  cases s.reportPath with
  | none => simp [Except.isOk, Except.toBool]
  | some path =>
    cases hwrite :
      fs.writeFile path (.text (s.format.render s.quiet false outcome.reports)) fs.clock <;>
      simp [hwrite, Except.isOk, Except.toBool]

/-- A run stops at the first thing that is wrong, or it delivers its reports. -/
theorem lint_cases (decode : Config.Decoder) (fs : FileSystem) (a : Arguments)
    (environment : List (String × String)) (coloured : Bool) :
    (∃ notes e, lint decode fs a environment coloured = stopped fs notes e ∧
      ((∃ e, ConfigFault decode fs a e) ∨
        (∃ path, ValidatorFault fs (settingsOf decode fs a environment) path) ∨
        ∃ path ∈ a.files, ∃ e, DocumentFault fs path e)) ∨
    ((¬ ∃ e, ConfigFault decode fs a e) ∧
      (¬ ∃ path, ValidatorFault fs (settingsOf decode fs a environment) path) ∧
      (∀ path ∈ a.files, ¬ ∃ e, DocumentFault fs path e) ∧
      ∃ outcome notes log,
        lintFiles fs a.files (settingsOf decode fs a environment) = .ok (outcome, log) ∧
        lint decode fs a environment coloured =
          deliver fs (settingsOf decode fs a environment) coloured outcome notes log) := by
  by_cases hconfig : ∃ e, ConfigFault decode fs a e
  · obtain ⟨e, he⟩ := hconfig
    exact Or.inl ⟨_, _, lint_of_unconfigured coloured he, Or.inl ⟨e, he⟩⟩
  by_cases hvalidator : ∃ path, ValidatorFault fs (settingsOf decode fs a environment) path
  · obtain ⟨path, hpath⟩ := hvalidator
    have hstop := lintWith_of_error coloured (lintFiles_of_missing hpath a.files)
    exact Or.inl ⟨_, _, (lint_of_configured coloured hconfig).trans hstop,
      Or.inr (Or.inl ⟨path, hpath⟩)⟩
  have hlint : lint decode fs a environment coloured = _ := lint_of_configured coloured hconfig
  -- what is left to go wrong before the report is the first document that cannot be loaded
  rcases all_isOk_or_first_error (loadDocument fs) a.files with
    hgood | ⟨before, path, after, e, hfiles, hbefore, hpath⟩
  · have hgood' : ∀ path ∈ a.files, ¬ ∃ e, DocumentFault fs path e := by
      rintro path hpath ⟨e, he⟩
      exact isOk_loadDocument_iff.mp (hgood path hpath) e he
    obtain ⟨outcome, log, hrun⟩ := lintFiles_of_good hvalidator hgood'
    exact Or.inr ⟨hconfig, hvalidator, hgood', outcome, _, log, hrun,
      hlint.trans (lintWith_of_ok coloured hrun)⟩
  · obtain ⟨fault, hfault, rfl⟩ := loadDocument_eq_error_iff.mp hpath
    have hbefore' : ∀ other ∈ before, ¬ ∃ e, DocumentFault fs other e := by
      rintro other hother ⟨e, he⟩
      exact isOk_loadDocument_iff.mp (hbefore other hother) e he
    have hrun := lintFiles_of_bad hvalidator hbefore' hfault after
    rw [← hfiles] at hrun
    have hmem : path ∈ a.files := by
      rw [hfiles]
      exact List.mem_append_right before List.mem_cons_self
    exact Or.inl ⟨_, _, hlint.trans (lintWith_of_error coloured hrun),
      Or.inr (Or.inr ⟨path, hmem, fault, hfault⟩)⟩

/-- **A failed run reports nothing.** A run fails if and only if its configuration cannot be used,
its custom validator does not exist, one of its documents cannot be loaded or its report cannot be
written. Of the first three, the first one is the error of the run, and of several documents that
cannot be loaded it is the first in the order of the arguments. Whenever one of these three is the
case, nothing is printed and the host stays as it was. -/
theorem failed_run_reports_nothing (decode : Config.Decoder) (fs : FileSystem) (a : Arguments)
    (environment : List (String × String)) (coloured : Bool) :
    let s := settingsOf decode fs a environment
    let run := lint decode fs a environment coloured
    let unconfigured := ∃ e, ConfigFault decode fs a e
    let missing := ∃ path, ValidatorFault fs s path
    let bad := fun path => ∃ e, DocumentFault fs path e
    (run.result.isOk = false ↔
      unconfigured ∨ missing ∨ (∃ path ∈ a.files, bad path) ∨ ∃ e, ReportFault fs a s e) ∧
      (∀ e, ConfigFault decode fs a e → run.result = .error (.config e)) ∧
      (∀ path, ¬ unconfigured → ValidatorFault fs s path →
        run.result = .error (.validatorNotFound path)) ∧
      (∀ before path after e, ¬ unconfigured → ¬ missing → a.files = before ++ path :: after →
        (∀ other ∈ before, ¬ bad other) → DocumentFault fs path e →
        run.result = .error (.document path e)) ∧
      (unconfigured ∨ missing ∨ (∃ path ∈ a.files, bad path) →
        run.output = "" ∧ run.files = fs) := by
  intro s run unconfigured missing bad
  refine ⟨?_, ?_, ?_, ?_, ?_⟩
  · rcases lint_cases decode fs a environment coloured with
      ⟨notes, e, hrun, hfault⟩ | ⟨hconfig, hvalidator, hgood, outcome, notes, log, hfound, hrun⟩
    · have hresult : run.result = .error e := congrArg LintRun.result hrun
      rw [hresult]
      refine ⟨fun _ => ?_, fun _ => rfl⟩
      rcases hfault with h | h | h
      · exact Or.inl h
      · exact Or.inr (Or.inl h)
      · exact Or.inr (Or.inr (Or.inl h))
    · have hresult : run.result = _ := congrArg LintRun.result hrun
      rw [hresult, isOk_deliver]
      constructor
      · rintro ⟨path, e, hpath, hwrite⟩
        exact Or.inr (Or.inr (Or.inr ⟨e, outcome, log, path, hfound, hpath, hwrite⟩))
      · rintro (h | h | ⟨path, hpath, h⟩ | ⟨e, outcome', log', path, hfound', hpath, hwrite⟩)
        · exact absurd h hconfig
        · exact absurd h hvalidator
        · exact absurd h (hgood path hpath)
        · rw [hfound] at hfound'
          cases hfound'
          exact ⟨path, e, hpath, hwrite⟩
  · intro e he
    exact congrArg LintRun.result (lint_of_unconfigured coloured he)
  · intro path hconfig hpath
    have hstop := lintWith_of_error coloured (lintFiles_of_missing hpath a.files)
    exact congrArg LintRun.result ((lint_of_configured coloured hconfig).trans hstop)
  · intro before path after e hconfig hvalidator hfiles hbefore he
    have hfirst := lintFiles_of_bad hvalidator hbefore he after
    rw [← hfiles] at hfirst
    have hstop := lintWith_of_error coloured hfirst
    exact congrArg LintRun.result ((lint_of_configured coloured hconfig).trans hstop)
  · intro hfault
    rcases lint_cases decode fs a environment coloured with
      ⟨notes, e, hrun, -⟩ | ⟨hconfig, hvalidator, hgood, -⟩
    · have hstopped : run = stopped fs notes e := hrun
      rw [hstopped]
      exact ⟨rfl, rfl⟩
    · rcases hfault with h | h | ⟨path, hpath, h⟩
      · exact absurd h hconfig
      · exact absurd h hvalidator
      · exact absurd h (hgood path hpath)

/-! ## A run with a missing document -/

/-- A host with an empty configuration `a` and a document `b`. -/
def configured : FileSystem := twoFiles "" deployedAgain.toJson.compactText

/-- The second of three documents is missing, and the report is to replace the first. -/
def missingSecond : Arguments where
  files := ["b", "c", "b"]
  configPath := some "a"
  reportPath := some "b"

theorem load_configured : Config.load Config.ofYaml configured (some "a") = .ok (some {}) := by
  have hread : configured.readText "a" = .ok "" := (readText_twoFiles _ _).1
  have hparse : Config.ofYaml "" = some {} := rfl
  have hrelative : Config.relativeTo "a" {} = {} := by
    unfold Config.relativeTo
    cases parent? "a" <;> rfl
  unfold Config.load Config.ofFile
  simp only [hread, hparse, hrelative]
  rfl

theorem not_configFault_configured {a : Arguments} (h : a.configPath = some "a") :
    ¬ ∃ e, ConfigFault Config.ofYaml configured a e := by
  rintro ⟨e, he⟩
  have herror := load_eq_error_iff.mpr he
  rw [h, load_configured] at herror
  cases herror

theorem settingsOf_configured {a : Arguments} (h : a.configPath = some "a") :
    settingsOf Config.ofYaml configured a [] = .resolve a (some {}) [] := by
  unfold settingsOf
  rw [h, load_configured]
  rfl

theorem customValidator_configured {a : Arguments} (h : a.configPath = some "a") :
    (settingsOf Config.ofYaml configured a []).customValidator = a.customValidator := by
  rw [settingsOf_configured h]
  exact Option.or_none

theorem failed_run_reports_nothing_missingSecond :
    let run := lint Config.ofYaml configured missingSecond [] false
    let validated := { missingSecond with customValidator := some "c" }
    let misconfigured := { validated with configPath := some "c" }
    run.result = .error (.document "c" (.unreadable .notFound)) ∧
      run.output = "" ∧ run.files = configured ∧
      (lint Config.ofYaml configured validated [] false).result = .error (.validatorNotFound "c") ∧
      (lint Config.ofYaml configured misconfigured [] false).result =
        .error (.config (.unreadable "c" .notFound)) := by
  intro run validated misconfigured
  obtain ⟨-, hb, hc⟩ := readText_twoFiles "" deployedAgain.toJson.compactText
  have hconfigured := @not_configFault_configured
  have hexists : ¬ ∃ path,
      ValidatorFault configured (settingsOf Config.ofYaml configured missingSecond []) path := by
    rintro ⟨path, hpath, -⟩
    rw [customValidator_configured rfl] at hpath
    cases hpath
  have hgood : ∀ other ∈ ["b"], ¬ ∃ e, DocumentFault configured other e := by
    intro other hother
    obtain rfl := List.mem_singleton.mp hother
    have hload : loadDocument configured "b" = .ok deployedAgain := loadDocument_written hb
    rintro ⟨e, he⟩
    exact isOk_loadDocument_iff.mp (by rw [hload]; rfl) e he
  have hmissing : DocumentFault configured "c" (.unreadable .notFound) := .unreadable hc
  have habsent :
      ValidatorFault configured (settingsOf Config.ofYaml configured validated []) "c" := by
    refine ⟨customValidator_configured rfl, ?_⟩
    exact isPresent_twoFiles "" deployedAgain.toJson.compactText
  have hunreadable :
      ConfigFault Config.ofYaml configured misconfigured (.unreadable "c" .notFound) :=
    .unreadable rfl hc
  obtain ⟨-, -, -, hdocument, hsilent⟩ :=
    failed_run_reports_nothing Config.ofYaml configured missingSecond [] false
  obtain ⟨-, -, hvalidator, -⟩ :=
    failed_run_reports_nothing Config.ofYaml configured validated [] false
  obtain ⟨-, hconfig, -⟩ :=
    failed_run_reports_nothing Config.ofYaml configured misconfigured [] false
  have hbad : ∃ path ∈ missingSecond.files, ∃ e, DocumentFault configured path e :=
    ⟨"c", by decide, _, hmissing⟩
  obtain ⟨houtput, hfiles⟩ := hsilent (Or.inr (Or.inr hbad))
  exact ⟨hdocument ["b"] "c" ["b"] _ (hconfigured rfl) hexists rfl hgood hmissing, houtput, hfiles,
    hvalidator "c" (hconfigured rfl) habsent, hconfig _ hunreadable⟩

end ImageLint.Command
