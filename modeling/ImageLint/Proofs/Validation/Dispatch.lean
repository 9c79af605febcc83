import ImageLint.Proofs.Model.Walk
import ImageLint.Validator.Dispatch

/-!
# What a custom validator reports

A custom validator is run by two nested loops over one sink, in which the findings of a check are
given their places after it has ended. Here the run is told without loops and without a sink: the
nodes and the checks for them are listed in the order in which they meet, and each such meeting has
findings and perhaps a line of the log that depend on nothing else.

* `runCheck_eq`: one check at one node adds its own findings and its own line.
* `run_eq_foldl`: the loops go through the meetings.
* `dispatch_law`: the findings and the log of a run, and that endings do not matter for findings.
-/

namespace ImageLint

namespace Diagnostic

/-- The finding with its file, if it named none, and with its line and column, if it had no line. -/
def placed (d : Diagnostic) (file : Option String) (location : Option Location) : Diagnostic :=
  { d with
    file := d.file.or file
    line := d.line.or (location.map (·.line))
    column := if d.line.isSome then d.column else (location.map (·.column)).or d.column }

theorem fillLocation_fillFile (d : Diagnostic) (file : Option String) (location : Option Location) :
    (d.fillFile file).fillLocation location = d.placed file location := by
  obtain ⟨level, message, code, file', line, column, context, suggestion⟩ := d
  cases file' <;> cases line <;> cases location <;> rfl

theorem fillFile_placed (d : Diagnostic) (file : Option String) (location : Option Location) :
    (d.placed file location).fillFile file = d.placed file location := by
  obtain ⟨level, message, code, file', line, column, context, suggestion⟩ := d
  cases file' <;> cases file <;> rfl

end Diagnostic

/-- Why a check did not succeed, in words. -/
def Ending.cause? : Ending → Option String
  | .succeeded => none
  | .failed e => some e.text
  | .brokeOff p => some ("panicked: " ++ p.message)

theorem Ending.map_text_error? (e : Ending) : e.error?.map CheckError.text = e.cause? := by
  cases e <;> rfl

/-- The check that reports the same and ends in other ways. -/
def Check.withEnding (c : Check) (ending : Node → Ending) : Check :=
  { c with inspect := fun n => { c.inspect n with ending := ending n } }

namespace CustomValidator

variable (v : CustomValidator) (m : Model) (file : Option String)

/-- Every node with every check for its kind: the nodes in document order, and for each node the
checks in the order of the validator. -/
def meetings : List (Node × Check) :=
  m.nodes.flatMap fun n => (v.checks.filter fun c => c.accepts = n.kind).map fun c => (n, c)

/-- What a check reports at a node. -/
def reportedAt (i : Node × Check) : List Diagnostic :=
  (i.2.inspect i.1).reported.map (·.placed file i.1.location)

/-- The line of the log for a check that did not succeed at a node. -/
def complaint? (i : Node × Check) : Option Log.Line :=
  (i.2.inspect i.1).ending.cause?.map fun cause =>
    Log.error ("Custom validator " ++ v.entryPoint ++ " check '" ++ i.2.name ++ "' failed on " ++
      i.1.kind.name ++ ": " ++ cause)

theorem complaint?_eq_none_iff (i : Node × Check) :
    v.complaint? i = none ↔ (i.2.inspect i.1).ending = .succeeded := by
  unfold complaint?
  rw [Option.map_eq_none_iff]
  cases (i.2.inspect i.1).ending <;> simp [Ending.cause?]

/-! ## The loops -/

/-- The findings of a check are placed when it has ended, and those of earlier checks are left
alone. -/
theorem fillLocations_reportAll (s : Sink) (ds : List Diagnostic) (location : Option Location) :
    (s.reportAll ds).fillLocations s.length location =
      { s with diagnostics := s.diagnostics ++ ds.map (·.placed s.file location) } := by
  rw [Sink.reportAll_eq]
  unfold Sink.fillLocations Sink.length
  rw [List.take_left, List.drop_left, List.map_map]
  have hplaced : ((·.fillLocation location) ∘ (·.fillFile s.file) : Diagnostic → Diagnostic) =
      (·.placed s.file location) :=
    funext fun d => d.fillLocation_fillFile s.file location
  rw [hplaced]

theorem runCheck_eq (n : Node) (p : Progress) (c : Check) :
    v.runCheck n p c =
      { sink := { p.sink with
          diagnostics := p.sink.diagnostics ++ reportedAt p.sink.file (n, c) }
        log := p.log ++ (v.complaint? (n, c)).toList } := by
  have hlog : (c.inspect n).ending.error?.map (v.failure n c) = v.complaint? (n, c) := by
    unfold complaint?
    rw [← Ending.map_text_error?, Option.map_map]
    rfl
  have hsink := fillLocations_reportAll p.sink (c.inspect n).reported n.location
  unfold runCheck Check.run
  dsimp only
  rw [hlog, hsink]
  rfl

theorem run_eq_foldl : v.run m file =
    (v.meetings m).foldl (fun p i => v.runCheck i.1 p i.2) { sink := .empty file, log := [] } := by
  unfold run meetings
  rw [List.foldl_flatMap]
  congr 1
  funext p n
  unfold runNode Check.appliesTo
  rw [List.foldl_map]

theorem foldl_runCheck (is : List (Node × Check)) (p : Progress) :
    is.foldl (fun p i => v.runCheck i.1 p i.2) p =
      { sink := { p.sink with
          diagnostics := p.sink.diagnostics ++ is.flatMap (reportedAt p.sink.file) }
        log := p.log ++ is.filterMap v.complaint? } := by
  induction is generalizing p with
  | nil => simp
  | cons i is ih =>
    rw [List.foldl_cons, runCheck_eq, ih]
    have hlog : (v.complaint? i).toList ++ is.filterMap v.complaint? =
        (i :: is).filterMap v.complaint? := by
      rw [List.filterMap_cons]
      cases v.complaint? i <;> rfl
    rw [← hlog]
    simp only [List.flatMap_cons, List.append_assoc]

theorem run_eq : v.run m file =
    { sink := ⟨file, (v.meetings m).flatMap (reportedAt file)⟩
      log := (v.meetings m).filterMap v.complaint? } := by
  rw [run_eq_foldl, foldl_runCheck]
  rfl

/-! ## Other endings -/

/-- The validator whose check at each place of the list ends as told. -/
def withEndings (endings : Nat → Node → Ending) : CustomValidator :=
  { v with checks := v.checks.mapIdx fun k c => c.withEnding (endings k) }

theorem flatMap_filter_mapIdx {α β : Type} {f : Nat → α → α} {p : α → Bool} {g : α → List β}
    (hp : ∀ k a, p (f k a) = p a) (hg : ∀ k a, g (f k a) = g a) (as : List α) :
    ((as.mapIdx f).filter p).flatMap g = (as.filter p).flatMap g := by
  induction as generalizing f with
  | nil => rfl
  | cons a as ih =>
    have htail := ih (f := fun k => f (k + 1)) (fun k => hp (k + 1)) (fun k => hg (k + 1))
    rw [List.mapIdx_cons, List.filter_cons, List.filter_cons, hp]
    split
    · rw [List.flatMap_cons, List.flatMap_cons, hg, htail]
    · exact htail

theorem flatMap_meetings (g : Node × Check → List Diagnostic) :
    (v.meetings m).flatMap g = m.nodes.flatMap fun n =>
      (v.checks.filter fun c => c.accepts = n.kind).flatMap fun c => g (n, c) := by
  unfold meetings
  rw [List.flatMap_assoc]
  simp only [List.flatMap_map]

/-- **Dispatch.** A run finds what the checks report when each of them meets the nodes of its kind,
in the order of the walk and then of the checks, and logs those that do not succeed, each of them
once. How checks end makes no difference to what is found. -/
theorem dispatch_law :
    m.nodes = m.walk .collector [] ∧
      (v.run m file).sink.diagnostics = (v.meetings m).flatMap (reportedAt file) ∧
      (v.run m file).log = (v.meetings m).filterMap v.complaint? ∧
      (v.run m file).log.length =
        (v.meetings m).countP (fun i => (i.2.inspect i.1).ending ≠ .succeeded) ∧
      ∀ endings : Nat → Node → Ending,
        ((v.withEndings endings).run m file).sink.diagnostics =
          (v.run m file).sink.diagnostics := by
  refine ⟨m.nodes_eq_walk, ?_, ?_, ?_, ?_⟩
  · rw [run_eq]
  · rw [run_eq]
  · rw [run_eq, List.length_filterMap_eq_countP]
    refine List.countP_congr ?_
    intro i _
    rw [decide_eq_true_iff, ne_eq, ← v.complaint?_eq_none_iff i, ← ne_eq,
      Option.isSome_iff_ne_none]
  · intro endings
    rw [run_eq, run_eq]
    simp only [flatMap_meetings]
    congr 1
    funext n
    have hkind : ∀ (k : Nat) (c : Check),
        decide ((c.withEnding (endings k)).accepts = n.kind) = decide (c.accepts = n.kind) :=
      fun _ _ => rfl
    have hreported : ∀ (k : Nat) (c : Check),
        reportedAt file (n, c.withEnding (endings k)) = reportedAt file (n, c) := fun _ _ => rfl
    exact flatMap_filter_mapIdx hkind hreported v.checks

end CustomValidator

end ImageLint
