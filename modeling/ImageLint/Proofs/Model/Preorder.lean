import ImageLint.Proofs.Model.Walk
import Mathlib.Tactic.Choose

/-!
# Positions in a model

A model is a tree, and equal nodes may stand at several places in it. A place is told by the numbers
of the parts on the way down to it: the statements of a model, the section and the content of a
statement, the attributes of a section. The ways down in lexicographic order are the places in
preorder: a node comes before its parts, and all that is below one part before the next part.

* `Node.at?`: the node at the end of a way down.
* `InPreorder`: a list that has one node for each place, in preorder.
* `Model.inPreorder_nodes`: the list of the nodes of a model is such a list.
-/

namespace ImageLint

def Statement.node : Statement → Node
  | .attribute s => .attributeStatement s
  | .deployment s => .deploymentStatement s

namespace Node

/-- The part of a node with a number. In a statement the section has number 0 and the content
number 1, whether or not the other is there. -/
def child? (n : Node) (i : Nat) : Option Node :=
  match n, i with
  | .model m, i => m.statements[i]?.map Statement.node
  | .attributeStatement s, 0 => s.attributeSection.map .attributeSection
  | .deploymentStatement s, 0 => s.attributeSection.map .attributeSection
  | .deploymentStatement s, 1 => s.content.map Content.node
  | .attributeSection s, i => s.attributes[i]?.map Attribute.node
  | _, _ => none

/-- The node at the end of a way down from a node. -/
def at? (n : Node) : List Nat → Option Node
  | [] => some n
  | i :: way => (n.child? i).bind fun c => c.at? way

end Node

/-- The list has the nodes at the ends of all ways down that lead to a node, one for each way, and
the ways in lexicographic order. -/
def InPreorder (found : List Nat → Option Node) (ns : List Node) : Prop :=
  ∃ ways : List (List Nat),
    ways.Pairwise (· < ·) ∧ (∀ way, way ∈ ways ↔ (found way).isSome = true) ∧
      ways.map found = ns.map some

namespace InPreorder

theorem of_nothing : InPreorder (fun _ => none) [] :=
  ⟨[], .nil, fun _ => by simp, rfl⟩

/-- What is found below the part with a number, if the parts are those of a list. -/
theorem below_getElem? {α : Type} {f : α → Node} {g : α → List Node} {as : List α}
    (h : ∀ a, InPreorder (f a).at? (g a)) (i : Nat) :
    InPreorder (fun way => (as[i]?.map f).bind fun c => c.at? way) ((as.map g)[i]?.getD []) := by
  rw [List.getElem?_map]
  cases as[i]? with
  | none => exact of_nothing
  | some a => exact h a

theorem flatMap_range_getElem? {α : Type} (groups : List (List α)) :
    (List.range groups.length).flatMap (fun i => groups[i]?.getD []) = groups.flatten := by
  rw [List.flatMap_def]
  congr 1
  refine List.ext_getElem (by simp) fun i _ hi => ?_
  simp [hi]

/-- A node comes before its parts, and the parts come one after another. -/
theorem of_parts {n : Node} (groups : List (List Node))
    (hparts : ∀ i, InPreorder (fun way => n.at? (i :: way)) (groups[i]?.getD [])) :
    InPreorder n.at? (n :: groups.flatten) := by
  choose ways hascending hmem hnodes using hparts
  refine ⟨[] :: (List.range groups.length).flatMap fun i => (ways i).map (i :: ·), ?_, ?_, ?_⟩
  · refine List.pairwise_cons.mpr ⟨?_, List.pairwise_flatMap.mpr ⟨?_, ?_⟩⟩
    · intro way hway
      obtain ⟨i, -, hway⟩ := List.mem_flatMap.mp hway
      obtain ⟨rest, -, rfl⟩ := List.mem_map.mp hway
      exact List.nil_lt_cons i rest
    · intro i _
      refine List.pairwise_map.mpr ((hascending i).imp ?_)
      intro way way' hlt
      exact List.cons_lt_cons_iff.mpr (Or.inr ⟨rfl, hlt⟩)
    · refine List.pairwise_lt_range.imp ?_
      intro i j hij way hway way' hway'
      obtain ⟨rest, -, rfl⟩ := List.mem_map.mp hway
      obtain ⟨rest', -, rfl⟩ := List.mem_map.mp hway'
      exact List.cons_lt_cons_iff.mpr (Or.inl hij)
  · intro way
    cases way with
    | nil => exact iff_of_true List.mem_cons_self rfl
    | cons i rest =>
      rw [List.mem_cons, or_iff_right (List.cons_ne_nil i rest), ← hmem i rest, List.mem_flatMap]
      constructor
      · rintro ⟨j, -, hway⟩
        obtain ⟨rest', hrest, heq⟩ := List.mem_map.mp hway
        cases heq
        exact hrest
      · intro hrest
        have hi : i < groups.length := by
          by_contra hbeyond
          have hnone := hnodes i
          rw [List.getElem?_eq_none (Nat.le_of_not_lt hbeyond)] at hnone
          rw [List.map_eq_nil_iff.mp hnone] at hrest
          cases hrest
        exact ⟨i, List.mem_range.mpr hi, List.mem_map_of_mem hrest⟩
  · have hgroups : ∀ i, ((ways i).map (i :: ·)).map n.at? = (groups[i]?.getD []).map some := by
      intro i
      rw [List.map_map, ← hnodes i]
      rfl
    rw [List.map_cons, List.map_flatMap]
    simp only [hgroups]
    rw [← List.map_flatMap, flatMap_range_getElem?]
    rfl

end InPreorder

/-! ## The nodes below each kind of node -/

theorem inPreorder_attribute (a : Attribute) : InPreorder a.node.at? [a.node] := by
  refine .of_parts [] fun i => ?_
  cases a <;> exact .of_nothing

theorem inPreorder_content (c : Content) : InPreorder c.node.at? [c.node] := by
  refine .of_parts [] fun i => ?_
  cases c <;> exact .of_nothing

theorem inPreorder_section (s : AttributeSection) :
    InPreorder (Node.attributeSection s).at? s.nodes := by
  have hgroups : s.nodes = .attributeSection s ::
      (s.attributes.map fun a => [a.node]).flatten := by
    unfold AttributeSection.nodes
    rw [List.map_eq_flatMap, List.flatMap_def]
  rw [hgroups]
  exact .of_parts _ fun i => .below_getElem? inPreorder_attribute i

theorem inPreorder_optionalSection (s : Option AttributeSection) :
    InPreorder (fun way => (s.map .attributeSection).bind fun c => Node.at? c way)
      (AttributeSection.optionalNodes s) := by
  cases s with
  | none => exact .of_nothing
  | some s => exact inPreorder_section s

theorem inPreorder_optionalContent (c : Option Content) :
    InPreorder (fun way => (c.map Content.node).bind fun c => c.at? way)
      (c.map Content.node).toList := by
  cases c with
  | none => exact .of_nothing
  | some c => exact inPreorder_content c

theorem inPreorder_statement (s : Statement) : InPreorder s.node.at? s.nodes := by
  match s with
  | .attribute s =>
    have hparts : InPreorder (Node.attributeStatement s).at?
        (.attributeStatement s :: [AttributeSection.optionalNodes s.attributeSection].flatten) :=
      .of_parts _ fun
        | 0 => inPreorder_optionalSection s.attributeSection
        | _ + 1 => .of_nothing
    rwa [List.flatten_singleton] at hparts
  | .deployment s =>
    have hparts : InPreorder (Node.deploymentStatement s).at?
        (.deploymentStatement s :: [AttributeSection.optionalNodes s.attributeSection,
          (s.content.map Content.node).toList].flatten) :=
      .of_parts _ fun
        | 0 => inPreorder_optionalSection s.attributeSection
        | 1 => inPreorder_optionalContent s.content
        | _ + 2 => .of_nothing
    rwa [List.flatten_cons, List.flatten_singleton] at hparts

/-- The list of the nodes of a model has each place in it once, in preorder. -/
theorem Model.inPreorder_nodes (m : Model) : InPreorder (Node.model m).at? m.nodes := by
  unfold Model.nodes
  rw [List.flatMap_def]
  exact .of_parts _ fun i => .below_getElem? inPreorder_statement i

end ImageLint
