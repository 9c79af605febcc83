import ImageLint.Proofs.Model.Replacement
import ImageLint.Variable.Unresolved

/-!
# Substitution and the search for what is left of it

Substitution and the search for unresolved variables go through a model separately. They look at the
same strings: the walk over a model after substitution meets the nodes of the model with exactly
their replaceable strings substituted, and every reference that is left in one of these strings is
reported once.

* `references_eq_nil_iff`: the texts without a reference.
* `Model.unresolved_eq_walk`: the search as a walk of its own.
* `Model.unresolved_eq_map_occurrences`: the findings, one for each reference.
* `Model.substitution_covers_search`: both together.
-/

namespace ImageLint

/-! ## Texts without a reference -/

namespace Variable

/-- Whether a reference stands somewhere in a text. -/
def HoldsReference (s : String) : Prop :=
  ∃ name, name ≠ [] ∧ '\x7d' ∉ name ∧ referenceText name <:+: s.toList

theorem referencesList_eq_nil_iff {cs : List Char} :
    referencesList cs = [] ↔
      ∀ name, name ≠ [] → '\x7d' ∉ name → ¬ referenceText name <:+: cs := by
  unfold referencesList
  fun_induction segments cs with
  | case1 =>
    refine iff_of_true rfl ?_
    intro name _ _ h
    exact absurd (List.infix_nil.mp h) (by simp [referenceText])
  | case2 c cs name rest h ih =>
    obtain ⟨htext, hne, hbrace⟩ := takeReference_eq_some_iff.mp h
    refine iff_of_false (by simp [Segment.name?]) ?_
    intro hnone
    exact hnone name hne hbrace ⟨[], rest, by simpa using htext.symm⟩
  | case3 c cs h ih =>
    have hhead : ∀ name, name ≠ [] → '\x7d' ∉ name → ¬ referenceText name <+: c :: cs := by
      rintro name hne hbrace ⟨rest, hrest⟩
      have hsome := takeReference_eq_some_iff.mpr ⟨hrest.symm, hne, hbrace⟩
      rw [h] at hsome
      cases hsome
    rw [List.filterMap_cons_none rfl, ih]
    refine forall_congr' fun name => forall_congr' fun hne => forall_congr' fun hbrace => ?_
    rw [List.infix_cons_iff, not_or]
    exact (and_iff_right (hhead name hne hbrace)).symm

/-- A text has no references exactly if nowhere in it stands one. -/
theorem references_eq_nil_iff {s : String} : references s = [] ↔ ¬ HoldsReference s := by
  unfold references HoldsReference
  rw [List.map_eq_nil_iff, referencesList_eq_nil_iff]
  simp only [not_exists, not_and]

/-- Without any variable a text is left as it is. -/
theorem substitute_empty (s : String) : substitute Bindings.empty.value s = s := by
  have hexpand : Segment.expand Bindings.empty.value = Segment.text := by
    funext g
    cases g <;> rfl
  unfold substitute substituteList
  rw [hexpand, flatMap_text_segments, String.ofList_toList]

/-! ## The search as a walk -/

/-- Adds the findings for the references in a node that may hold one. -/
def scanner (level : Severity) (file : Option String) : Visitor (List Diagnostic) where
  deploymentStatement s ds := ds ++ findings level file (.deploymentStatement s)
  valuedAttribute a ds := ds ++ findings level file (.valuedAttribute a)
  path p ds := ds ++ findings level file (.path p)

theorem visit_scanner (level : Severity) (file : Option String) (n : Node)
    (ds : List Diagnostic) :
    (scanner level file).visit n ds = ds ++ findings level file n := by
  cases n <;> simp [scanner, Visitor.visit, findings, Node.replaceable]

/-- The finding for a reference that is left in a node. -/
def unresolvedAt (strict : Bool) (file : Option String) (o : Node × String) : Diagnostic where
  level := if strict then .error else .warning
  message := "Unresolved variable " ++ String.ofList (referenceText o.2.toList) ++ " in " ++
    whereabouts o.1
  code := some "unresolvedVariable"
  file
  line := o.1.location.map (·.line)
  column := o.1.location.map (·.column)

theorem finding_eq (strict : Bool) (file : Option String) (n : Node) (name : String) :
    finding (severity strict) file n name = unresolvedAt strict file (n, name) := by
  unfold finding unresolvedAt
  cases n.location <;> cases file <;> rfl

end Variable

open Variable

namespace Model

variable (m : Model)

/-- The references in a model in the order of the walk, and from left to right in a string, each
with its node. -/
def occurrences : List (Node × String) :=
  (m.walk .collector []).flatMap fun n =>
    (n.replaceable.elim [] references).map fun name => (n, name)

theorem unresolved_eq_walk (strict : Bool) (file : Option String) :
    m.unresolved strict file = m.walk (scanner (severity strict) file) [] := by
  rw [walk_eq, Visitor.visitAll_of_append (visit_scanner (severity strict) file)]
  rfl

theorem unresolved_eq_map_occurrences (strict : Bool) (file : Option String) :
    m.unresolved strict file = m.occurrences.map (unresolvedAt strict file) := by
  unfold unresolved occurrences
  rw [← nodes_eq_walk, List.map_flatMap]
  congr 1
  funext n
  unfold findings
  rw [List.map_map]
  cases n.replaceable with
  | none => rfl
  | some s => exact List.map_congr_left fun name _ => finding_eq strict file n name

theorem occurrences_eq_nil_iff :
    m.occurrences = [] ↔
      ∀ n ∈ m.walk .collector [], ∀ s, n.replaceable = some s → ¬ HoldsReference s := by
  unfold occurrences
  rw [List.flatMap_eq_nil_iff]
  refine forall₂_congr fun n _ => ?_
  rw [List.map_eq_nil_iff]
  cases n.replaceable with
  | none => simp
  | some s => simp [references_eq_nil_iff]

theorem substitute_empty : m.substitute .empty = m := rfl

/-- A substitution replaces the strings of a model, also when there is nothing to replace. -/
theorem substitute_eq_mapStrings (b : Bindings) :
    m.substitute b = m.mapStrings (Variable.substitute b.value) := by
  unfold substitute
  split
  · next h =>
    obtain ⟨pairs⟩ := b
    obtain rfl : pairs = [] := List.isEmpty_iff.mp h
    exact (mapStrings_id Variable.substitute_empty m).symm
  · rfl

/-- **Substitution and search cover the same strings.** After a substitution the walk meets the same
nodes, with their replaceable strings substituted and nothing else changed, and the search reports
each reference that is left in one of these strings once, in the order of the walk. It finds nothing
exactly if none of these strings holds a reference. -/
theorem substitution_covers_search (b : Bindings) (strict : Bool) (file : Option String) :
    let m' := m.substitute b
    let nodes := m.walk .collector []
    let nodes' := m'.walk .collector []
    List.Forall₂ (Node.Rewritten (Variable.substitute b.value)) nodes nodes' ∧
      nodes'.map Node.replaceable =
        nodes.map (fun n => n.replaceable.map (Variable.substitute b.value)) ∧
      m.substitute .empty = m ∧
      m'.walk (scanner (severity strict) file) [] = m'.unresolved strict file ∧
      m'.unresolved strict file = m'.occurrences.map (unresolvedAt strict file) ∧
      (m'.unresolved strict file = [] ↔
        ∀ n ∈ nodes', ∀ s, n.replaceable = some s → ¬ HoldsReference s) := by
  intro m' nodes nodes'
  have hnodes : List.Forall₂ (Node.Rewritten (Variable.substitute b.value)) nodes nodes' := by
    have h := m.rewritten_mapStrings (Variable.substitute b.value)
    rwa [← substitute_eq_mapStrings] at h
  refine ⟨hnodes, map_replaceable_of_rewritten hnodes, m.substitute_empty,
    (m'.unresolved_eq_walk strict file).symm, m'.unresolved_eq_map_occurrences strict file, ?_⟩
  rw [unresolved_eq_map_occurrences, List.map_eq_nil_iff, occurrences_eq_nil_iff]

end Model

end ImageLint
