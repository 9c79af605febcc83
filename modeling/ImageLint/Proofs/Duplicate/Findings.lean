import ImageLint.Proofs.Duplicate.Groups
import Mathlib.Algebra.BigOperators.Group.Finset.Basic
import Mathlib.Data.List.FinRange

/-!
# What is found about target paths

The findings about target paths go by the targets of a model alone: which path each deployment has,
and where it stands. Here they are told from these targets, once path by path and once deployment by
deployment.

* `duplicatePaths_eq`: the paths that are used again, and the deployments of each.
* `flagged_perm`: the deployments that are found are those that share their path.
* `findings_about_paths`: both ways to tell the findings, what they go by, and how many there are.
-/

namespace ImageLint

/-- Where a deployment goes, and where it stands in the build file. -/
structure Target where
  path : String
  location : Option Location
  deriving DecidableEq, Repr

namespace Model

/-- The targets of the deployments of a model, in document order. -/
def targets (m : Model) : List Target := m.deployments.map fun s => ⟨s.path, s.location⟩

/-- The target paths of a model, in document order. -/
def paths (m : Model) : List String := m.deployments.map (·.path)

end Model

namespace Duplicate

/-- The finding for a target whose path is used so many times. -/
def report (uses : Nat) (t : Target) : Diagnostic where
  level := .warning
  message := "Duplicate path " ++ t.path
  code := some "duplicatePath"
  line := t.location.map (·.line)
  column := t.location.map (·.column)
  context := some (toString uses ++ " deployments target " ++ t.path)

/-- The paths of a list that are used more than once, in the order of their first uses. -/
def reused (paths : List String) : List String := paths.eraseDups.filter (2 ≤ paths.count ·)

theorem mem_reused {paths : List String} {p : String} : p ∈ reused paths ↔ 2 ≤ paths.count p := by
  unfold reused
  rw [List.mem_filter, List.mem_eraseDups, decide_eq_true_iff, and_iff_right_iff_imp]
  exact fun h => List.count_pos_iff.mp (by omega)

/-- Without repetitions paths stand in the order of their first uses. -/
theorem pairwise_idxOf_eraseDups (paths : List String) :
    paths.eraseDups.Pairwise fun p q => paths.idxOf p < paths.idxOf q := by
  induction paths using List.reverseRecOn with
  | nil => exact List.Pairwise.nil
  | append_singleton paths p ih =>
    have hkept {q : String} (hq : q ∈ paths.eraseDups) :
        (paths ++ [p]).idxOf q = paths.idxOf q :=
      List.idxOf_append_of_mem (List.mem_eraseDups.mp hq)
    have hold : paths.eraseDups.Pairwise fun q r =>
        (paths ++ [p]).idxOf q < (paths ++ [p]).idxOf r := by
      refine ih.imp_of_mem fun hq hr hlt => ?_
      rwa [hkept hq, hkept hr]
    rw [eraseDups_concat]
    split
    · exact hold
    · next hnew =>
      refine List.pairwise_append.mpr ⟨hold, List.pairwise_singleton _ p, ?_⟩
      intro q hq r hr
      rw [List.mem_singleton.mp hr, hkept hq, List.idxOf_append_of_notMem hnew]
      have hlt := List.idxOf_lt_length_of_mem (List.mem_eraseDups.mp hq)
      omega

theorem pairwise_idxOf_reused (paths : List String) :
    (reused paths).Pairwise fun p q => paths.idxOf p < paths.idxOf q :=
  (pairwise_idxOf_eraseDups paths).filter _

theorem nodup_reused (paths : List String) : (reused paths).Nodup :=
  (nodup_eraseDups paths).filter _

/-! ## Path by path -/

theorem finding_groupAt (ds : List DeploymentStatement) {s : DeploymentStatement} {p : String}
    (h : s.path = p) :
    finding (groupAt ds p) s = report ((ds.map (·.path)).count p) ⟨s.path, s.location⟩ := by
  subst h
  unfold finding report
  rw [length_members_groupAt]
  cases s.location <;> rfl

theorem findings_groupAt (ds : List DeploymentStatement) (p : String) :
    (groupAt ds p).findings = if 2 ≤ (ds.map (·.path)).count p then
      (ds.filter (·.path = p)).map fun s =>
        report ((ds.map (·.path)).count p) ⟨s.path, s.location⟩ else [] := by
  unfold Group.findings
  rw [length_members_groupAt]
  refine if_congr Iff.rfl (List.map_congr_left fun s hs => ?_) rfl
  exact finding_groupAt ds (of_decide_eq_true (List.mem_filter.mp hs).2)

/-- Elements to which nothing belongs may be left out. -/
theorem flatMap_ite {α β : Type} (l : List α) (keep : α → Prop) [DecidablePred keep]
    (f : α → List β) :
    (l.flatMap fun a => if keep a then f a else []) = (l.filter keep).flatMap f := by
  induction l with
  | nil => rfl
  | cons a l ih =>
    rw [List.flatMap_cons, ih]
    by_cases ha : keep a <;> simp [ha]

end Duplicate

namespace Model

open Duplicate

theorem map_path_targets (m : Model) : m.targets.map (·.path) = m.paths := List.map_map ..

theorem map_filter_targets (m : Model) (p : String) :
    m.targets.filter (·.path = p) =
      (m.deployments.filter (·.path = p)).map fun s => ⟨s.path, s.location⟩ := by
  unfold targets
  rw [List.filter_map]
  rfl

/-- For each path that is used again there is a finding for each target with that path. -/
theorem duplicatePaths_eq (m : Model) : m.duplicatePaths = (reused m.paths).flatMap fun p =>
    (m.targets.filter (·.path = p)).map (report (m.paths.count p)) := by
  unfold duplicatePaths reused
  rw [groups_eq, List.flatMap_map]
  simp only [findings_groupAt, map_filter_targets, List.map_map]
  exact flatMap_ite _ _ _

end Model

/-! ## Deployment by deployment -/

namespace Duplicate

variable (ts : List Target)

/-- The positions of the targets with a path. -/
def positions (p : String) : List (Fin ts.length) :=
  (List.finRange ts.length).filter fun i => ts[i].path = p

/-- The positions of the targets that are found, path by path. -/
def flagged : List (Fin ts.length) := (reused (ts.map (·.path))).flatMap (positions ts)

theorem mem_positions {p : String} {i : Fin ts.length} : i ∈ positions ts p ↔ ts[i].path = p := by
  simp [positions]

theorem nodup_positions (p : String) : (positions ts p).Nodup := (List.nodup_finRange _).filter _

theorem map_positions (p : String) :
    (positions ts p).map (ts[·]) = ts.filter (·.path = p) := by
  conv_rhs => rw [← List.map_getElem_finRange ts, List.filter_map]
  rfl

theorem length_positions (p : String) :
    (positions ts p).length = (ts.map (·.path)).count p := by
  rw [← List.length_map (ts[·]), map_positions, List.count, List.countP_map,
    List.countP_eq_length_filter]
  rfl

theorem nodup_flagged : (flagged ts).Nodup := by
  refine List.nodup_flatMap.mpr ⟨fun p _ => nodup_positions ts p, ?_⟩
  refine (pairwise_idxOf_reused _).imp fun hlt => ?_
  intro i hp hq
  rw [← (mem_positions ts).mp hp, ← (mem_positions ts).mp hq] at hlt
  exact absurd hlt (Nat.lt_irrefl _)

theorem mem_flagged_iff_count {i : Fin ts.length} :
    i ∈ flagged ts ↔ 2 ≤ (ts.map (·.path)).count ts[i].path := by
  unfold flagged
  rw [List.mem_flatMap]
  constructor
  · rintro ⟨p, hp, hi⟩
    rw [(mem_positions ts).mp hi]
    exact mem_reused.mp hp
  · intro h
    exact ⟨ts[i].path, mem_reused.mpr h, (mem_positions ts).mpr rfl⟩

/-- A list without repetitions has a second element exactly if it is that long. -/
theorem two_le_length_iff {α : Type} {l : List α} (hl : l.Nodup) {a : α} (ha : a ∈ l) :
    2 ≤ l.length ↔ ∃ b, b ≠ a ∧ b ∈ l := by
  constructor
  · intro h
    match l, h with
    | b :: c :: rest, _ =>
      have hbc : b ≠ c := fun e => (List.nodup_cons.mp hl).1 (e ▸ List.mem_cons_self)
      by_cases hb : b = a
      · exact ⟨c, fun hc => hbc (hb.trans hc.symm), by simp⟩
      · exact ⟨b, hb, by simp⟩
  · rintro ⟨b, hne, hb⟩
    have hpair : [a, b].Nodup := by simp [Ne.symm hne]
    have hsub : [a, b] ⊆ l := by simp [ha, hb]
    exact (hpair.subperm hsub).length_le

/-- A deployment is found exactly if another one has its path. -/
theorem mem_flagged {i : Fin ts.length} :
    i ∈ flagged ts ↔ ∃ j, j ≠ i ∧ ts[j].path = ts[i].path := by
  have hi : i ∈ positions ts ts[i].path := (mem_positions ts).mpr rfl
  rw [mem_flagged_iff_count, ← length_positions,
    two_le_length_iff (nodup_positions ts _) hi]
  simp only [mem_positions]

/-- The paths that are used once, with one target each, are those that are not found. -/
theorem length_flagged_add : (flagged ts).length +
    {p ∈ (ts.map (·.path)).toFinset | (ts.map (·.path)).count p = 1}.card = ts.length := by
  set paths := ts.map (·.path) with hpaths
  have hreused : (reused paths).toFinset = {p ∈ paths.toFinset | 2 ≤ paths.count p} := by
    ext p
    rw [List.mem_toFinset, mem_reused, Finset.mem_filter, List.mem_toFinset, iff_and_self]
    exact fun h => List.count_pos_iff.mp (by omega)
  have honce : {p ∈ paths.toFinset | ¬ 2 ≤ paths.count p} =
      {p ∈ paths.toFinset | paths.count p = 1} := by
    refine Finset.filter_congr fun p hp => ?_
    have hpos := List.count_pos_iff.mpr (List.mem_toFinset.mp hp)
    omega
  have hflagged : (flagged ts).length = ∑ p ∈ paths.toFinset with 2 ≤ paths.count p,
      paths.count p := by
    rw [← hreused, List.sum_toFinset _ (nodup_reused paths), flagged, List.length_flatMap]
    simp only [length_positions, ← hpaths]
  calc (flagged ts).length + {p ∈ paths.toFinset | paths.count p = 1}.card
      = (∑ p ∈ paths.toFinset with 2 ≤ paths.count p, paths.count p) +
          ∑ p ∈ paths.toFinset with ¬ 2 ≤ paths.count p, paths.count p := by
        rw [hflagged, honce, Finset.card_eq_sum_ones]
        congr 1
        exact Finset.sum_congr rfl fun p hp => (Finset.mem_filter.mp hp).2.symm
    _ = ∑ p ∈ paths.toFinset, paths.count p := Finset.sum_filter_add_sum_filter_not _ _ _
    _ = paths.length := List.sum_toFinset_count_eq_length paths
    _ = ts.length := List.length_map _

end Duplicate

namespace Model

open Duplicate

theorem length_targets (m : Model) : m.targets.length = m.deployments.length := List.length_map _

theorem duplicatePaths_eq_map_flagged (m : Model) : m.duplicatePaths =
    (flagged m.targets).map fun i => report (m.paths.count m.targets[i].path) m.targets[i] := by
  unfold flagged
  rw [duplicatePaths_eq, List.map_flatMap, map_path_targets]
  refine List.flatMap_congr fun p _ => ?_
  rw [← map_positions, List.map_map]
  refine List.map_congr_left fun i hi => ?_
  rw [(mem_positions m.targets).mp hi]
  rfl

/-- **The findings about target paths.** Path by path: there is a warning for each deployment with a
path that is used at least twice, the paths in the order of their first uses and the deployments of
each in document order, and there is no other finding. Deployment by deployment: each one that
shares its path with another is found once, and no other is. Nothing but the targets matters, and
the findings and the paths that are used once are together as many as the deployments. -/
theorem findings_about_paths (m : Model) :
    (∃ paths : List String,
      paths.Pairwise (fun p q => m.paths.idxOf p < m.paths.idxOf q) ∧
      (∀ p, p ∈ paths ↔ 2 ≤ m.paths.count p) ∧
      m.duplicatePaths = paths.flatMap fun p =>
        (m.targets.filter (·.path = p)).map (report (m.paths.count p))) ∧
    (∃ found : List (Fin m.targets.length),
      found.Nodup ∧
      (∀ i, i ∈ found ↔ ∃ j, j ≠ i ∧ m.targets[j].path = m.targets[i].path) ∧
      m.duplicatePaths =
        found.map fun i => report (m.paths.count m.targets[i].path) m.targets[i]) ∧
    (∀ m' : Model, m'.targets = m.targets → m'.duplicatePaths = m.duplicatePaths) ∧
    m.duplicatePaths.length + {p ∈ m.paths.toFinset | m.paths.count p = 1}.card =
      m.deployments.length := by
  refine ⟨⟨reused m.paths, pairwise_idxOf_reused m.paths, fun p => mem_reused,
    m.duplicatePaths_eq⟩, ⟨flagged m.targets, nodup_flagged m.targets, fun i => mem_flagged m.targets,
    m.duplicatePaths_eq_map_flagged⟩, ?_, ?_⟩
  · intro m' h
    rw [duplicatePaths_eq, duplicatePaths_eq, ← map_path_targets, ← map_path_targets, h]
  · rw [duplicatePaths_eq_map_flagged, List.length_map, ← length_targets, ← map_path_targets]
    exact length_flagged_add m.targets

/-! ## Two models with the same targets -/

/-- A path that is deployed, and again after another one. -/
def deployedTwice : Model := ⟨[
  .deployment ⟨"/a", false, none, none, some ⟨1, 1⟩⟩,
  .deployment ⟨"/b", false, none, none, none⟩,
  .deployment ⟨"/a", false, none, none, some ⟨3, 1⟩⟩]⟩

/-- The same targets with attributes and contents. -/
def deployedTwiceDressed : Model := ⟨[
  .attribute ⟨some ⟨[.boolean ⟨"raw", true, none⟩], none⟩, none⟩,
  .deployment ⟨"/a", true, none, some (.path ⟨"a", none⟩), some ⟨1, 1⟩⟩,
  .deployment ⟨"/b", false, some ⟨[.valued ⟨"uid", "0", none⟩], none⟩, none, none⟩,
  .deployment ⟨"/a", true, none, some (.block ⟨"a", none⟩), some ⟨3, 1⟩⟩]⟩

theorem findings_about_paths_dressed :
    deployedTwiceDressed.targets = deployedTwice.targets ∧
      deployedTwiceDressed.duplicatePaths = deployedTwice.duplicatePaths ∧
      deployedTwice.duplicatePaths.map (·.line) = [some 1, some 3] :=
  ⟨rfl, (findings_about_paths deployedTwice).2.2.1 deployedTwiceDressed rfl, by decide⟩

end Model

end ImageLint
