import ImageLint.Duplicate
import ImageLint.Proofs.Model.Walk
import Mathlib.Data.List.Induction
import Mathlib.Data.List.Nodup

/-!
# Groups of deployments

The deployments of a model are put into groups one after another. Here the groups are told at once:
there is one for each target path, in the order of the first deployments, and it holds the
deployments of that path in document order.

* `groups_eq`: all groups.
* `Model.duplicatePaths_eq_nil_iff`: nothing is found exactly if no path is used twice.
-/

namespace ImageLint.Duplicate

/-- The deployments of a list that have a path. -/
def groupAt (ds : List DeploymentStatement) (path : String) : Group :=
  ⟨path, ds.filter (·.path = path)⟩

theorem groupAt_concat_same (ds : List DeploymentStatement) (s : DeploymentStatement) :
    groupAt (ds ++ [s]) s.path = { groupAt ds s.path with
      members := (groupAt ds s.path).members ++ [s] } := by
  simp [groupAt]

theorem groupAt_concat_other (ds : List DeploymentStatement) {s : DeploymentStatement}
    {path : String} (h : s.path ≠ path) : groupAt (ds ++ [s]) path = groupAt ds path := by
  simp [groupAt, h]

/-- A deployment with a new path begins a group at the end. -/
theorem addTo_of_not_mem {ds : List DeploymentStatement} {s : DeploymentStatement}
    {paths : List String} (h : s.path ∉ paths) :
    addTo s (paths.map (groupAt ds)) = paths.map (groupAt (ds ++ [s])) ++ [⟨s.path, [s]⟩] := by
  induction paths with
  | nil => rfl
  | cons p paths ih =>
    rw [List.mem_cons, not_or] at h
    have hne : ¬ (groupAt ds p).path = s.path := Ne.symm h.1
    rw [List.map_cons, List.map_cons, addTo, if_neg hne, ih h.2, groupAt_concat_other ds h.1]
    rfl

/-- A deployment with a known path joins its group. -/
theorem addTo_of_mem {ds : List DeploymentStatement} {s : DeploymentStatement}
    {paths : List String} (hpaths : paths.Nodup) (h : s.path ∈ paths) :
    addTo s (paths.map (groupAt ds)) = paths.map (groupAt (ds ++ [s])) := by
  induction paths with
  | nil => cases h
  | cons p paths ih =>
    obtain ⟨hp, hpaths⟩ := List.nodup_cons.mp hpaths
    rw [List.map_cons, List.map_cons, addTo]
    by_cases hs : p = s.path
    · have hsame : (groupAt ds p).path = s.path := hs
      subst hs
      have hrest : ∀ q ∈ paths, groupAt (ds ++ [s]) q = groupAt ds q := by
        intro q hq
        exact groupAt_concat_other ds fun e => hp (e ▸ hq)
      rw [if_pos hsame, groupAt_concat_same, List.map_congr_left hrest]
    · have hother : ¬ (groupAt ds p).path = s.path := hs
      have hmem : s.path ∈ paths := List.mem_of_ne_of_mem (Ne.symm hs) h
      rw [if_neg hother, ih hpaths hmem, groupAt_concat_other ds (Ne.symm hs)]

/-! ## Paths without repetitions -/

theorem eraseDups_concat (paths : List String) (p : String) :
    (paths ++ [p]).eraseDups =
      if p ∈ paths then paths.eraseDups else paths.eraseDups ++ [p] := by
  rw [List.eraseDups_append]
  unfold List.removeAll
  by_cases h : p ∈ paths <;> simp [h, List.eraseDups_cons]

theorem nodup_eraseDups (paths : List String) : paths.eraseDups.Nodup := by
  induction paths using List.reverseRecOn with
  | nil => exact List.nodup_nil
  | append_singleton paths p ih =>
    rw [eraseDups_concat]
    split
    · exact ih
    · next h =>
      refine List.nodup_append.mpr ⟨ih, List.nodup_singleton p, ?_⟩
      intro q hq r hr
      rw [List.mem_singleton.mp hr]
      exact fun e => h (List.mem_eraseDups.mp (e ▸ hq))

/-! ## All groups -/

theorem foldl_addTo (ds : List DeploymentStatement) :
    ds.foldl (fun gs s => addTo s gs) [] = (ds.map (·.path)).eraseDups.map (groupAt ds) := by
  induction ds using List.reverseRecOn with
  | nil => rfl
  | append_singleton ds s ih =>
    rw [List.foldl_append, ih, List.map_append]
    simp only [List.foldl_cons, List.foldl_nil, List.map_cons, List.map_nil]
    rw [eraseDups_concat]
    split
    · next h => exact addTo_of_mem (nodup_eraseDups _) (List.mem_eraseDups.mpr h)
    · next h =>
      have hnone : ds.filter (·.path = s.path) = [] := by
        rw [List.filter_eq_nil_iff]
        intro d hd hpath
        exact h (List.mem_map.mpr ⟨d, hd, of_decide_eq_true hpath⟩)
      have hnew : groupAt (ds ++ [s]) s.path = ⟨s.path, [s]⟩ := by
        unfold groupAt
        rw [List.filter_append, hnone]
        simp
      rw [addTo_of_not_mem (mt List.mem_eraseDups.mp h), List.map_append, ← hnew]
      rfl

/-- A walk puts the deployments into their groups one after another. -/
theorem visitAll_visitor (ns : List Node) (gs : List Group) :
    visitor.visitAll ns gs =
      (ns.filterMap Node.deployment?).foldl (fun gs s => addTo s gs) gs := by
  induction ns generalizing gs with
  | nil => rfl
  | cons n ns ih =>
    rw [Visitor.visitAll_cons, ih]
    cases n <;> rfl

/-- There is a group for each path, in the order of the first deployments. -/
theorem groups_eq (m : Model) :
    groups m = (m.deployments.map (·.path)).eraseDups.map (groupAt m.deployments) := by
  unfold groups
  rw [Model.walk_eq, visitAll_visitor, Model.filterMap_deployment?_nodes, foldl_addTo]

/-- The group of a path is as large as the path is often used. -/
theorem length_members_groupAt (ds : List DeploymentStatement) (path : String) :
    (groupAt ds path).members.length = (ds.map (·.path)).count path := by
  unfold groupAt List.count
  rw [List.countP_map, List.countP_eq_length_filter]
  rfl

theorem findings_eq_nil_iff (g : Group) : g.findings = [] ↔ g.members.length ≤ 1 := by
  unfold Group.findings
  split
  · next h =>
    rw [List.map_eq_nil_iff, ← List.length_eq_zero_iff]
    omega
  · next h => simpa using h

end ImageLint.Duplicate

namespace ImageLint

open Duplicate

/-- Nothing is found exactly if no two deployments have the same path. -/
theorem Model.duplicatePaths_eq_nil_iff (m : Model) :
    m.duplicatePaths = [] ↔ (m.deployments.map (·.path)).Nodup := by
  unfold duplicatePaths
  rw [groups_eq, List.flatMap_map, List.flatMap_eq_nil_iff, List.nodup_iff_count_le_one]
  constructor
  · intro h path
    by_cases hpath : path ∈ m.deployments.map (·.path)
    · rw [← length_members_groupAt]
      exact (findings_eq_nil_iff _).mp (h path (List.mem_eraseDups.mpr hpath))
    · rw [List.count_eq_zero_of_not_mem hpath]
      exact Nat.zero_le 1
  · intro h path _
    rw [findings_eq_nil_iff, length_members_groupAt]
    exact h path

end ImageLint
