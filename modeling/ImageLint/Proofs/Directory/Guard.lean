import ImageLint.Proofs.Host.Resolution
import ImageLint.Proofs.Validation.Dispatch
import ImageLint.Validator.Bundled
import Mathlib.Data.List.Basic

/-!
# Two judges of copied directories

The linter itself looks for deployments of directories, with the host at hand, and a bundled
validator does so by what is declared. On a host on which none of the sources exists the linter can
only go by what is declared too, and then the two find the same deployments.

* `DeploymentStatement.DeclaresDirectory`: what it means for a statement to declare a directory.
* `Model.directoryDeployments_of_absent`: what the linter finds when no source exists.
* `CustomValidator.diagnostics_of_deployment_check`: a run of a validator that has one check, for
  deployments.
* `guard_agrees_with_advice`: both list one finding for each such statement, in document order.
-/

namespace ImageLint

open Host

/-- The statement copies a path of the host, and an attribute of its own section calls that path a
directory, whatever the other attributes say. -/
def DeploymentStatement.DeclaresDirectory (s : DeploymentStatement) : Prop :=
  (∃ p, s.content = some (.path p)) ∧
    ∃ attributes, s.attributeSection = some attributes ∧
      ∃ a, Attribute.valued a ∈ attributes.attributes ∧ a.name = "type" ∧ a.value = "dir"

namespace DeploymentStatement

variable (s : DeploymentStatement)

theorem isSome_sourcePath_iff : s.sourcePath.isSome = true ↔ ∃ p, s.content = some (.path p) := by
  unfold sourcePath
  rcases s.content with _ | c
  · simp
  · cases c <;> simp

theorem hasValuedAttribute_iff (name value : String) :
    s.hasValuedAttribute name value = true ↔
      ∃ attributes, s.attributeSection = some attributes ∧
        ∃ a, Attribute.valued a ∈ attributes.attributes ∧ a.name = name ∧ a.value = value := by
  unfold hasValuedAttribute attributes
  rw [List.any_eq_true]
  constructor
  · rintro ⟨a, ha, hmatches⟩
    cases hs : s.attributeSection with
    | none =>
      rw [hs] at ha
      cases ha
    | some attributes =>
      rw [hs] at ha
      cases a with
      | boolean a => cases hmatches
      | valued a =>
        have hboth : a.name = name ∧ a.value = value := by simpa using hmatches
        exact ⟨attributes, rfl, a, ha, hboth⟩
  · rintro ⟨attributes, hs, a, ha, hname, hvalue⟩
    rw [hs]
    exact ⟨.valued a, ha, by simp [hname, hvalue]⟩

theorem copiesDeclaredDirectory_iff :
    Bundled.copiesDeclaredDirectory s = true ↔ s.DeclaresDirectory := by
  unfold Bundled.copiesDeclaredDirectory DeclaresDirectory
  rw [Bool.and_eq_true, isSome_sourcePath_iff, hasValuedAttribute_iff]

instance : DecidablePred DeclaresDirectory :=
  fun s => decidable_of_iff _ s.copiesDeclaredDirectory_iff

end DeploymentStatement

/-! ## The judgement of the linter -/

namespace DirectoryDeployment

variable {fs : FileSystem} {s : DeploymentStatement} {source : String}

theorem suggest_of_absent (habsent : fs.isPresent source = false) (target : String) :
    suggest fs target source = none := by
  unfold FileSystem.isPresent at habsent
  unfold suggest
  cases hfind : fs.find source with
  | error e => rfl
  | ok e =>
    rw [hfind] at habsent
    cases habsent

/-- The advice on a statement whose source does not exist. -/
def declared (file : Option String) (s : DeploymentStatement) : DirectoryDeployment where
  targetPath := s.path
  sourcePath := s.sourcePath.getD ""
  location := s.location
  warning := finding file s (s.sourcePath.getD "")
  suggestions := none

theorem ofStatement?_of_absent
    (habsent : ∀ p, s.content = some (.path p) → fs.isPresent p.value = false)
    (file : Option String) :
    ofStatement? fs file s = if s.DeclaresDirectory then some (declared file s) else none := by
  by_cases hpath : ∃ p, s.content = some (.path p)
  · obtain ⟨p, hp⟩ := hpath
    have hsource : s.sourcePath = some p.value := by
      unfold DeploymentStatement.sourcePath
      rw [hp]
    have hgone : fs.isPresent p.value = false := habsent p hp
    have hcopies : copiesDirectory fs s p.value = s.hasValuedAttribute "type" "dir" := by
      unfold copiesDirectory
      rw [hgone]
      rfl
    have hdeclares : s.DeclaresDirectory ↔ s.hasValuedAttribute "type" "dir" = true := by
      rw [s.hasValuedAttribute_iff]
      exact and_iff_right ⟨p, hp⟩
    unfold ofStatement?
    rw [hsource]
    dsimp only
    rw [hcopies, suggest_of_absent hgone]
    simp only [hdeclares]
    unfold declared
    rw [hsource]
    rfl
  · have hnone : s.sourcePath = none := by
      rw [← Option.not_isSome_iff_eq_none, s.isSome_sourcePath_iff]
      exact hpath
    have hnot : ¬ s.DeclaresDirectory := fun h => hpath h.1
    unfold ofStatement?
    rw [hnone, if_neg hnot]

end DirectoryDeployment

/-- No path that a model copies from exists on a host. -/
def Model.SourcesAbsent (m : Model) (fs : FileSystem) : Prop :=
  ∀ s ∈ m.deployments, ∀ p, s.content = some (.path p) → fs.isPresent p.value = false

/-- The deployments that copy a declared directory, in document order. -/
def Model.declaredDirectories (m : Model) : List DeploymentStatement :=
  m.deployments.filter fun s => s.DeclaresDirectory

theorem filterMap_ite_eq_map_filter {α β : Type} (p : α → Prop) [DecidablePred p] (f : α → β)
    (as : List α) :
    as.filterMap (fun a => if p a then some (f a) else none) = (as.filter (p ·)).map f := by
  have hguard : (fun a => if p a then some (f a) else none) =
      fun a => (Option.guard (fun a => decide (p a)) a).map f := by
    funext a
    by_cases ha : p a <;> simp [Option.guard, ha]
  rw [hguard, ← List.map_filterMap, List.filterMap_eq_filter]

theorem Model.directoryDeployments_of_absent {m : Model} {fs : FileSystem}
    (habsent : m.SourcesAbsent fs) (file : Option String) :
    m.directoryDeployments fs file =
      m.declaredDirectories.map (DirectoryDeployment.declared file) := by
  have hstatement : ∀ s ∈ m.deployments,
      DirectoryDeployment.ofStatement? fs file s =
        if s.DeclaresDirectory then some (DirectoryDeployment.declared file s) else none := by
    intro s hs
    exact DirectoryDeployment.ofStatement?_of_absent (habsent s hs) file
  unfold directoryDeployments declaredDirectories
  rw [List.filterMap_congr hstatement, filterMap_ite_eq_map_filter]

/-! ## The judgement of the validator -/

namespace CustomValidator

/-- A check for deployments meets the deployments of the model and nothing else. -/
theorem meetings_of_deployment_check {v : CustomValidator} {c : Check} (hv : v.checks = [c])
    (hc : c.accepts = .deploymentStatement) (m : Model) :
    v.meetings m = m.deployments.map fun s => (.deploymentStatement s, c) := by
  have hnode : ∀ n : Node,
      ((v.checks.filter fun c => c.accepts = n.kind).map fun c => (n, c)) =
        (n.deployment?.map fun s => (Node.deploymentStatement s, c)).toList := by
    intro n
    rw [hv, List.filter_cons, hc]
    cases n <;> rfl
  unfold meetings
  simp only [hnode]
  rw [← m.filterMap_deployment?_nodes, List.map_filterMap, List.filterMap_eq_flatMap_toList]

theorem diagnostics_of_deployment_check {v : CustomValidator} {c : Check} (hv : v.checks = [c])
    (hc : c.accepts = .deploymentStatement) (m : Model) (file : Option String) :
    (v.run m file).sink.diagnostics =
      m.deployments.flatMap fun s => reportedAt file (.deploymentStatement s, c) := by
  rw [run_eq, meetings_of_deployment_check hv hc, List.flatMap_map]

end CustomValidator

namespace Bundled

/-- The check of the directory guard. -/
def guardCheck : Check := .typed copiedPath .deploymentStatement guardDirectories

/-- The directory guard, once it is made. -/
def guardValidator : CustomValidator where
  entryPoint := "directory_guard::DirectoryGuard"
  name := "directory-guard"
  checks := [guardCheck]

theorem instantiate_directoryGuard (key : NormalPath) :
    directoryGuard.instantiate key = .ok guardValidator := by
  have hversion : ¬ directoryGuard.kitVersion ≠ kitVersion := not_not_intro rfl
  unfold Artifact.instantiate
  rw [if_neg hversion]
  rfl

/-- The warning of the directory guard about a statement. -/
def guardWarning (file : Option String) (s : DeploymentStatement) : Diagnostic where
  level := .warning
  message := "Copying whole directories from host is considered harmful"
  code := some "copiedPath"
  file
  line := s.location.map (·.line)
  column := s.location.map (·.column)

theorem reportedAt_guardCheck (file : Option String) (s : DeploymentStatement) :
    CustomValidator.reportedAt file (.deploymentStatement s, guardCheck) =
      (if s.DeclaresDirectory then some (guardWarning file s) else none).toList := by
  have hinspect : guardCheck.inspect (.deploymentStatement s) = guardDirectories s := rfl
  unfold CustomValidator.reportedAt
  rw [hinspect]
  unfold guardDirectories
  simp only [← s.copiesDeclaredDirectory_iff]
  split
  · cases hl : s.location <;> simp [Diagnostic.placed, Diagnostic.atLocation, Node.location,
      guardWarning, hl, Diagnostic.warning, copiedPath]
  · rfl

theorem diagnostics_guardValidator (m : Model) (file : Option String) :
    (guardValidator.run m file).sink.diagnostics =
      m.declaredDirectories.map (guardWarning file) := by
  rw [CustomValidator.diagnostics_of_deployment_check (c := guardCheck) rfl rfl]
  simp only [reportedAt_guardCheck]
  rw [← List.filterMap_eq_flatMap_toList, filterMap_ite_eq_map_filter]
  rfl

theorem log_guardValidator (m : Model) (file : Option String) :
    (guardValidator.run m file).log = [] := by
  have hquiet : ∀ s, guardValidator.complaint? (.deploymentStatement s, guardCheck) = none := by
    intro s
    rw [CustomValidator.complaint?_eq_none_iff]
    have hinspect : guardCheck.inspect (.deploymentStatement s) = guardDirectories s := rfl
    rw [hinspect]
    unfold guardDirectories
    split <;> rfl
  rw [CustomValidator.run_eq,
    CustomValidator.meetings_of_deployment_check (c := guardCheck) rfl rfl, List.filterMap_map,
    List.filterMap_eq_nil_iff]
  intro s _
  exact hquiet s

/-- **The two judges agree.** On a host on which no source of a model exists, the linter and the
directory guard find the same deployments, namely those that copy a declared directory, in document
order: for each of them the linter has one advice, without suggestions, and the guard one warning.
-/
theorem guard_agrees_with_advice (fs : FileSystem) (m : Model) (habsent : m.SourcesAbsent fs)
    (file : Option String) (key : NormalPath) :
    ∃ guard, directoryGuard.instantiate key = .ok guard ∧
      let flagged := m.declaredDirectories
      let advice := m.directoryDeployments fs file
      let run := guard.run m file
      advice = flagged.map (DirectoryDeployment.declared file) ∧
        run.sink.diagnostics = flagged.map (guardWarning file) ∧
        run.log = [] ∧
        advice.map (·.location) = flagged.map (·.location) ∧
        run.sink.diagnostics.map (fun d => (d.line, d.column)) =
          advice.map (fun d => (d.location.map (·.line), d.location.map (·.column))) ∧
        run.sink.diagnostics.length = advice.length ∧
        (∀ d ∈ advice, d.suggestions = none) ∧
        ∀ d ∈ run.sink.diagnostics, d.level = .warning ∧ d.code = some "copiedPath" := by
  refine ⟨guardValidator, instantiate_directoryGuard key, ?_⟩
  intro flagged advice run
  have hadvice : advice = flagged.map (DirectoryDeployment.declared file) :=
    Model.directoryDeployments_of_absent habsent file
  have hwarnings : run.sink.diagnostics = flagged.map (guardWarning file) :=
    diagnostics_guardValidator m file
  refine ⟨hadvice, hwarnings, log_guardValidator m file, ?_, ?_, ?_, ?_, ?_⟩
  · rw [hadvice, List.map_map]
    rfl
  · rw [hadvice, hwarnings, List.map_map, List.map_map]
    rfl
  · rw [hadvice, hwarnings, List.length_map, List.length_map]
  · intro d hd
    rw [hadvice] at hd
    obtain ⟨s, -, rfl⟩ := List.mem_map.mp hd
    rfl
  · intro d hd
    rw [hwarnings] at hd
    obtain ⟨s, -, rfl⟩ := List.mem_map.mp hd
    exact ⟨rfl, rfl⟩

/-! ## Attributes that contradict each other, and a link that leads nowhere -/

/-- A host with a directory that is not copied and with a link that leads nowhere. -/
def danglingHost : FileSystem where
  root := .directory [("d", .directory [] 1), ("gone", .link "n")] 1
  workingDirectory := ⟨[]⟩
  clock := 2

theorem isPresent_gone : danglingHost.isPresent "gone" = false := by
  have hgone : IsName "gone" := by decide
  have hn : IsName "n" := by decide
  have hlink : danglingHost.Passes "gone" (39 + 1) ⟨[]⟩ 39
      (if isAbsolute "n" then ⟨[]⟩ else ⟨[]⟩) (pieces "n") :=
    FileSystem.passes_link hgone.component?_eq hgone.short rfl
  have habsent : danglingHost.resolve false "gone" = .ok (.absent ⟨[]⟩ "n") := by
    calc danglingHost.resolve false "gone"
      _ = danglingHost.follow false 40 ⟨[]⟩ ["gone"] := rfl
      _ = danglingHost.follow false 39 ⟨[]⟩ ["n"] := hlink []
      _ = .ok (.absent ⟨[]⟩ "n") := FileSystem.follow_absent hn.component?_eq hn.short rfl
  rw [FileSystem.isPresent, FileSystem.find_of_absent habsent]
  rfl

theorem isPresent_below : danglingHost.isPresent "d/a" = false := by
  have hd : IsName "d" := by decide
  have ha : IsName "a" := by decide
  have habsent : danglingHost.resolve false "d/a" = .ok (.absent ⟨["d"]⟩ "a") := by
    calc danglingHost.resolve false "d/a"
      _ = danglingHost.follow false 40 ⟨[]⟩ ["d", "a"] := rfl
      _ = danglingHost.follow false 40 ⟨["d"]⟩ ["a"] :=
        FileSystem.passes_directory hd.component?_eq hd.short rfl ["a"]
      _ = .ok (.absent ⟨["d"]⟩ "a") := FileSystem.follow_absent ha.component?_eq ha.short rfl
  rw [FileSystem.isPresent, FileSystem.find_of_absent habsent]
  rfl

/-- A deployment with the given attributes and content. -/
def deploymentOf (attributes : List Attribute) (content : Option Content) (line : UInt64) :
    DeploymentStatement where
  path := "/opt"
  isAssignment := content.isSome
  attributeSection := some ⟨attributes, none⟩
  content
  location := some ⟨line, 1⟩

/-- Types that contradict each other, a type that is only switched on, a text in place of a path and
no content at all. -/
def contradictory : Model where
  statements :=
    [.deployment (deploymentOf [.valued ⟨"type", "file", none⟩, .valued ⟨"type", "dir", none⟩]
        (some (.path ⟨"gone", none⟩)) 1),
      .attribute ⟨some ⟨[.valued ⟨"type", "dir", none⟩], none⟩, some ⟨2, 1⟩⟩,
      .deployment (deploymentOf [.boolean ⟨"type", true, none⟩] (some (.path ⟨"gone", none⟩)) 3),
      .deployment (deploymentOf [.valued ⟨"type", "dir", none⟩] (some (.block ⟨"d", none⟩)) 4),
      .deployment (deploymentOf [.valued ⟨"type", "dir", none⟩] none 5),
      .deployment (deploymentOf [.valued ⟨"type", "dir", none⟩] (some (.path ⟨"d/a", none⟩)) 6)]

theorem guard_agrees_with_advice_dangling :
    contradictory.SourcesAbsent danglingHost ∧
      ∃ guard, directoryGuard.instantiate ⟨["v"]⟩ = .ok guard ∧
        (contradictory.directoryDeployments danglingHost (some "f")).map (·.location) =
          [some ⟨1, 1⟩, some ⟨6, 1⟩] ∧
        (guard.run contradictory (some "f")).sink.diagnostics.map (·.line) = [some 1, some 6] := by
  have habsent : contradictory.SourcesAbsent danglingHost := by
    intro s hs p hp
    simp only [contradictory, Model.deployments, deploymentOf, List.filterMap_cons,
      List.filterMap_nil, Statement.deployment?, List.mem_cons, List.not_mem_nil, or_false] at hs
    rcases hs with rfl | rfl | rfl | rfl | rfl <;> cases hp
    · exact isPresent_gone
    · exact isPresent_gone
    · exact isPresent_below
  obtain ⟨guard, hmade, hadvice, hwarnings, -⟩ :=
    guard_agrees_with_advice danglingHost contradictory habsent (some "f") ⟨["v"]⟩
  refine ⟨habsent, guard, hmade, ?_, ?_⟩
  · rw [hadvice]
    decide
  · rw [hwarnings]
    decide

end Bundled

end ImageLint
