import ImageLint.Proofs.Analysis.ShortCircuit
import ImageLint.Proofs.Command.Documents

/-!
# A lint run is compositional in its files

All documents of a run share one engine, and what that engine remembers of one document cannot be
seen in the report on another. So a run is a walk over its paths in which each document is analysed
as if it were the only one.

* `mapM_eq_ok_iff`, `mapM_of_error`: a walk succeeds where all of it succeeds, and fails where it
  fails first.
* `Engine.analyze_of_faithful`: the report on a document is that of a fresh engine, whatever was
  analysed before it.
* `outcomeAt_eq_mapM`: what a run finds, with every document on its own.
* `lint_compositional`: runs over lists of files put together, and in other orders.
-/

namespace ImageLint

open Host

/-! ## Walks that may fail -/

section Walk

variable {ε α β : Type} {f : α → Except ε β}

theorem mapM_of_ok {g : α → β} {xs : List α} (h : ∀ x ∈ xs, f x = .ok (g x)) :
    xs.mapM f = .ok (xs.map g) := by
  induction xs with
  | nil => rfl
  | cons x xs ih =>
    have hx := h x List.mem_cons_self
    have hxs := ih fun y hy => h y (List.mem_cons_of_mem x hy)
    rw [List.mapM_cons, hx, hxs]
    rfl

theorem mapM_of_error {before : List α} {x : α} {e : ε}
    (hbefore : ∀ y ∈ before, (f y).isOk = true) (hx : f x = .error e) (after : List α) :
    (before ++ x :: after).mapM f = .error e := by
  induction before with
  | nil =>
    rw [List.nil_append, List.mapM_cons, hx]
    rfl
  | cons y before ih =>
    have hrest := ih fun z hz => hbefore z (List.mem_cons_of_mem y hz)
    have hy := hbefore y List.mem_cons_self
    rw [List.cons_append, List.mapM_cons, hrest]
    cases hfy : f y with
    | ok b => rfl
    | error e' =>
      rw [hfy] at hy
      cases hy

/-- All of a walk succeeds, or there is a first place where it fails. -/
theorem all_isOk_or_first_error (f : α → Except ε β) (xs : List α) :
    (∀ x ∈ xs, (f x).isOk = true) ∨
      ∃ before x after e, xs = before ++ x :: after ∧ (∀ y ∈ before, (f y).isOk = true) ∧
        f x = .error e := by
  induction xs with
  | nil => exact Or.inl (List.forall_mem_nil _)
  | cons x xs ih =>
    cases hx : f x with
    | error e => exact Or.inr ⟨[], x, xs, e, rfl, List.forall_mem_nil _, hx⟩
    | ok b =>
      have hok : (f x).isOk = true := by rw [hx]; rfl
      rcases ih with hall | ⟨before, y, after, e, rfl, hbefore, hy⟩
      · exact Or.inl (List.forall_mem_cons.mpr ⟨hok, hall⟩)
      · exact Or.inr ⟨x :: before, y, after, e, rfl, List.forall_mem_cons.mpr ⟨hok, hbefore⟩, hy⟩

theorem eq_ok_of_isOk {r : Except ε β} (default : β) (h : r.isOk = true) :
    r = .ok (r.toOption.getD default) := by
  cases r with
  | ok b => rfl
  | error e => cases h

theorem mapM_eq_ok_iff (default : β) {xs : List α} {ys : List β} : xs.mapM f = .ok ys ↔
    (∀ x ∈ xs, (f x).isOk = true) ∧ ys = xs.map fun x => (f x).toOption.getD default := by
  have hall (h : ∀ x ∈ xs, (f x).isOk = true) :
      xs.mapM f = .ok (xs.map fun x => (f x).toOption.getD default) :=
    mapM_of_ok fun x hx => eq_ok_of_isOk default (h x hx)
  constructor
  · intro h
    rcases all_isOk_or_first_error f xs with hok | ⟨before, x, after, e, rfl, hbefore, hx⟩
    · rw [hall hok] at h
      exact ⟨hok, (Except.ok.inj h).symm⟩
    · rw [mapM_of_error hbefore hx after] at h
      cases h
  · rintro ⟨hok, rfl⟩
    exact hall hok

end Walk

/-! ## One document after another -/

/-- What opens at a site does not depend on the time. -/
theorem Site.steady_opener (s : Site) :
    s.Steady fun key _ => (s.opener.validator key).map CustomValidator.conduct :=
  fun _ _ _ => rfl

namespace Engine

variable {e : Engine} {f : Behaviour} {site : Site}

theorem engine_analyze_of_clean {d : Document} (hd : d.syntaxDiagnostics = []) (e : Engine)
    (rules : AttributeRules) (site : Site) (provided : Option String) (options : AnalysisOptions) :
    (e.analyze rules site provided options d).engine =
      (e.runCustom site provided (d.model.substitute options.bindings) d.file).engine := by
  obtain ⟨file, model, found⟩ := d
  cases hd
  rfl

theorem analyze_of_broken {d : Document} (hd : d.syntaxDiagnostics ≠ []) (e : Engine)
    (rules : AttributeRules) (site : Site) (provided : Option String) (options : AnalysisOptions) :
    e.analyze rules site provided options d =
      { engine := e, report := .ofSyntax d.file d.syntaxDiagnostics, log := [] } := by
  unfold analyze
  rw [analyzeAsking_of_broken hd]
  rfl

/-- With a faithful loader a document is reported as by a fresh engine, and the loader stays
faithful. -/
theorem analyze_of_faithful (h : e.loader.Faithful f) (hs : site.Steady f)
    (rules : AttributeRules) (provided : Option String) (options : AnalysisOptions)
    (d : Document) :
    (e.analyze rules site provided options d).report =
        (fresh.analyze rules site provided options d).report ∧
      (e.analyze rules site provided options d).engine.loader.Faithful f := by
  by_cases hd : d.syntaxDiagnostics = []
  · have hfresh : fresh.loader.Faithful f := Loader.faithful_empty
    refine ⟨?_, ?_⟩
    · rw [report_analyze_of_clean hd, report_analyze_of_clean hd, diagnostics_validateModel h hs,
        diagnostics_validateModel hfresh hs]
    · rw [engine_analyze_of_clean hd]
      exact faithful_runCustom h hs
  · rw [analyze_of_broken hd, analyze_of_broken hd]
    exact ⟨rfl, h⟩

end Engine

namespace Command

open Engine

variable (site : Site) (s : Settings)

/-- The report on the document at a path when nothing else is analysed. -/
def reportAt (path : String) : Except LintError Report := do
  let d ← loadDocument site.files path
  pure (fresh.analyze .builtIn site s.customValidator s.analysisOptions d).report

/-- What a run finds. -/
def outcomeAt (paths : List String) : Except LintError Outcome := Prod.fst <$> lintAt site paths s

variable {site s} in
theorem outcomeAt_of_lintAt {paths : List String} {o : Outcome} {log : List Log.Line}
    (h : lintAt site paths s = .ok (o, log)) : outcomeAt site s paths = .ok o := by
  unfold outcomeAt
  rw [h]
  rfl

/-- What a run finds when libraries count as validators. -/
theorem outcomeAt_native (fs : FileSystem) (paths : List String) :
    outcomeAt ⟨fs, .native fs⟩ s paths = Prod.fst <$> lintFiles fs paths s := rfl

theorem map_fst_analyzeAll {f : Behaviour} (hs : site.Steady f) {e : Engine}
    (h : e.loader.Faithful f) (paths : List String) :
    Prod.fst <$> analyzeAll site s.customValidator s.analysisOptions e paths =
      paths.mapM (reportAt site s) := by
  induction paths generalizing e with
  | nil => rfl
  | cons path rest ih =>
    rw [List.mapM_cons]
    unfold analyzeAll reportAt
    cases hload : loadDocument site.files path with
    | error err => rfl
    | ok d =>
      obtain ⟨hreport, hfaithful⟩ :=
        analyze_of_faithful h hs .builtIn s.customValidator s.analysisOptions d
      have hrest := ih hfaithful
      unfold reportAt at hrest
      simp only [bind, Except.bind, pure, Except.pure] at hrest ⊢
      rw [← hrest, ← hreport]
      cases analyzeAll site s.customValidator s.analysisOptions
        (e.analyze .builtIn site s.customValidator s.analysisOptions d).engine rest <;> rfl

/-- A run looks whether its validator exists, and then analyses each document on its own. -/
theorem outcomeAt_eq_mapM (paths : List String) :
    outcomeAt site s paths =
      (checkValidator site.files s.customValidator).bind fun _ =>
        (paths.mapM (reportAt site s)).map fun reports =>
          ⟨reports, reports.any (·.isFailure s.failOnWarning)⟩ := by
  have hfresh : fresh.loader.Faithful fun key _ =>
      (site.opener.validator key).map CustomValidator.conduct := Loader.faithful_empty
  rw [← map_fst_analyzeAll site s site.steady_opener hfresh paths]
  unfold outcomeAt lintAt
  cases checkValidator site.files s.customValidator with
  | error err => rfl
  | ok u =>
    cases analyzeAll site s.customValidator s.analysisOptions .fresh paths <;> rfl

/-- The report on the document at a path, in every run at the site. -/
def reportOf (path : String) : Report :=
  (reportAt site s path).toOption.getD ⟨none, [], []⟩

/-- A run succeeds if its validator exists and each document can be loaded. -/
theorem outcomeAt_eq_ok_iff {paths : List String} {o : Outcome} :
    outcomeAt site s paths = .ok o ↔
      (checkValidator site.files s.customValidator).isOk = true ∧
        (∀ path ∈ paths, (reportAt site s path).isOk = true) ∧
        o = ⟨paths.map (reportOf site s),
          (paths.map (reportOf site s)).any (·.isFailure s.failOnWarning)⟩ := by
  rw [outcomeAt_eq_mapM]
  cases checkValidator site.files s.customValidator with
  | error err => simp [Except.bind, Except.isOk, Except.toBool]
  | ok u =>
    constructor
    · intro h
      cases hall : paths.mapM (reportAt site s) with
      | error err =>
        rw [hall] at h
        cases h
      | ok reports =>
        rw [hall] at h
        cases h
        obtain ⟨hok, rfl⟩ := (mapM_eq_ok_iff ⟨none, [], []⟩).mp hall
        exact ⟨rfl, hok, rfl⟩
    · rintro ⟨-, hok, rfl⟩
      have hall := (mapM_eq_ok_iff ⟨none, [], []⟩).mpr ⟨hok, rfl⟩
      rw [hall]
      rfl

/-- **A lint run is compositional in its files.** At a site each path has one report, whatever else
is analysed in the same run. A run over two lists succeeds if and only if the runs over each of them
do, and yields what these yield together. A run over the same paths in another order succeeds as
well, with the same reports in that order. -/
theorem lint_compositional : ∃ report : String → Report,
    (∀ paths o, outcomeAt site s paths = .ok o → o.reports = paths.map report) ∧
      (∀ xs ys o, outcomeAt site s (xs ++ ys) = .ok o ↔
        ∃ a b, outcomeAt site s xs = .ok a ∧ outcomeAt site s ys = .ok b ∧
          o = ⟨a.reports ++ b.reports, a.failed || b.failed⟩) ∧
      ∀ xs ys o, xs.Perm ys → outcomeAt site s xs = .ok o →
        outcomeAt site s ys = .ok ⟨ys.map report, o.failed⟩ := by
  refine ⟨reportOf site s, ?_, ?_, ?_⟩
  · intro paths o h
    obtain ⟨-, -, rfl⟩ := (outcomeAt_eq_ok_iff site s).mp h
    rfl
  · intro xs ys o
    simp only [outcomeAt_eq_ok_iff, List.map_append, List.any_append]
    constructor
    · rintro ⟨hvalidator, hok, rfl⟩
      obtain ⟨hxs, hys⟩ := List.forall_mem_append.mp hok
      exact ⟨_, _, ⟨hvalidator, hxs, rfl⟩, ⟨hvalidator, hys, rfl⟩, rfl⟩
    · rintro ⟨a, b, ⟨hvalidator, hxs, rfl⟩, ⟨-, hys, rfl⟩, rfl⟩
      exact ⟨hvalidator, List.forall_mem_append.mpr ⟨hxs, hys⟩, rfl⟩
  · intro xs ys o hperm h
    obtain ⟨hvalidator, hok, rfl⟩ := (outcomeAt_eq_ok_iff site s).mp h
    refine (outcomeAt_eq_ok_iff site s).mpr ⟨hvalidator, ?_, ?_⟩
    · intro path hpath
      exact hok path (hperm.mem_iff.mpr hpath)
    · rw [(hperm.map (reportOf site s)).any_eq]

theorem lint_compositional_twoDocuments :
    let site : Site := ⟨twoDocuments, .native twoDocuments⟩
    outcomeAt site strict ["a", "b"] = .ok ⟨[cutShortReport, deployedAgainReport], true⟩ ∧
      outcomeAt site strict ["b", "a"] = .ok ⟨[deployedAgainReport, cutShortReport], true⟩ ∧
      outcomeAt site strict ["a", "b", "b", "a"] = .ok
        ⟨[cutShortReport, deployedAgainReport, deployedAgainReport, cutShortReport], true⟩ := by
  intro site
  have hrun : outcomeAt site strict ["a", "b"] =
      .ok ⟨[cutShortReport, deployedAgainReport], true⟩ := by
    rw [outcomeAt_native, lintFiles_twoDocuments]
    rfl
  obtain ⟨report, hreports, happend, hperm⟩ := lint_compositional site strict
  have hmap := hreports _ _ hrun
  obtain ⟨ha, hrest⟩ := List.cons.inj hmap
  obtain ⟨hb, -⟩ := List.cons.inj hrest
  have hturned := hperm _ ["b", "a"] _ (.swap "b" "a" []) hrun
  simp only [List.map_cons, List.map_nil, ← ha, ← hb] at hturned
  exact ⟨hrun, hturned, (happend _ _ _).mpr ⟨_, _, hrun, hturned, rfl⟩⟩

end Command

end ImageLint
