import ImageLint.Proofs.Model.Walk
import Mathlib.Data.List.Forall2

/-!
# What replacing strings does to a model

Strings are replaced while the statements are gone through one by one. Here the result is told node
by node: the walk over the new model meets the same nodes, and they differ in nothing but the
strings that may be replaced.

* `Node.Rewritten`: a node before and after its string has been replaced.
* `Model.mapStrings_eq`: the new model, part by part.
* `Model.rewritten_mapStrings`: the nodes of the new model in the order of the walk.
-/

namespace ImageLint

/-- A node before and after strings have been replaced. What hangs below the node is only counted:
its nodes come later in the walk. -/
def Node.Rewritten (f : String → String) : Node → Node → Prop
  | .model m, .model m' => m'.statements.length = m.statements.length
  | .attributeStatement s, .attributeStatement s' =>
    s'.attributeSection.isSome = s.attributeSection.isSome ∧ s'.location = s.location
  | .deploymentStatement s, .deploymentStatement s' =>
    s'.path = f s.path ∧ s'.isAssignment = s.isAssignment ∧
      s'.attributeSection.isSome = s.attributeSection.isSome ∧
      s'.content.isSome = s.content.isSome ∧ s'.location = s.location
  | .attributeSection s, .attributeSection s' =>
    s'.attributes.length = s.attributes.length ∧ s'.location = s.location
  | .booleanAttribute a, .booleanAttribute a' => a' = a
  | .valuedAttribute a, .valuedAttribute a' => a' = { a with value := f a.value }
  | .contentBlock b, .contentBlock b' => b' = b
  | .path p, .path p' => p' = { p with value := f p.value }
  | _, _ => False

theorem Node.Rewritten.replaceable {f : String → String} {n n' : Node} (h : n.Rewritten f n') :
    n'.replaceable = n.replaceable.map f := by
  cases n <;> cases n' <;> simp_all [Rewritten, Node.replaceable]

theorem map_replaceable_of_rewritten {f : String → String} {ns ns' : List Node}
    (h : List.Forall₂ (Node.Rewritten f) ns ns') :
    ns'.map Node.replaceable = ns.map fun n => n.replaceable.map f := by
  induction h with
  | nil => rfl
  | cons hn _ ih => rw [List.map_cons, List.map_cons, ih, Node.Rewritten.replaceable hn]

/-! ## The parts of the new model -/

section Parts

variable (f : String → String)

def Attribute.mapStrings : Attribute → Attribute
  | .boolean a => .boolean a
  | .valued a => .valued { a with value := f a.value }

def AttributeSection.mapStrings (s : AttributeSection) : AttributeSection :=
  { s with attributes := s.attributes.map (Attribute.mapStrings f) }

def Content.mapStrings : Content → Content
  | .path p => .path { p with value := f p.value }
  | .block b => .block b

def Statement.mapStrings : Statement → Statement
  | .attribute s =>
    .attribute { s with attributeSection := s.attributeSection.map (AttributeSection.mapStrings f) }
  | .deployment s =>
    .deployment { s with
      path := f s.path
      attributeSection := s.attributeSection.map (AttributeSection.mapStrings f)
      content := s.content.map (Content.mapStrings f) }

theorem replaceInAttributes_ofFunction (as : List Attribute) :
    (Replacer.ofFunction f).replaceInAttributes as = pure (as.map (Attribute.mapStrings f)) := by
  induction as with
  | nil => rfl
  | cons a as ih =>
    have ha : (Replacer.ofFunction f).replaceInAttribute a = pure (a.mapStrings f) := by
      cases a <;> rfl
    unfold Replacer.replaceInAttributes
    rw [ha, ih]
    rfl

theorem replaceInSection_ofFunction (s : Option AttributeSection) :
    (Replacer.ofFunction f).replaceInSection s =
      pure (s.map (AttributeSection.mapStrings f)) := by
  cases s with
  | none => rfl
  | some s =>
    unfold Replacer.replaceInSection
    dsimp only
    rw [replaceInAttributes_ofFunction]
    rfl

theorem replaceInContent_ofFunction (c : Option Content) :
    (Replacer.ofFunction f).replaceInContent c = pure (c.map (Content.mapStrings f)) := by
  rcases c with _ | c
  · rfl
  · cases c <;> rfl

theorem replaceInStatement_ofFunction (s : Statement) :
    (Replacer.ofFunction f).replaceInStatement s = pure (s.mapStrings f) := by
  match s with
  | .attribute s =>
    unfold Replacer.replaceInStatement
    dsimp only
    rw [replaceInSection_ofFunction]
    rfl
  | .deployment s =>
    unfold Replacer.replaceInStatement
    dsimp only
    rw [replaceInSection_ofFunction, replaceInContent_ofFunction]
    rfl

theorem replaceInStatements_ofFunction (ss : List Statement) :
    (Replacer.ofFunction f).replaceInStatements ss = pure (ss.map (Statement.mapStrings f)) := by
  induction ss with
  | nil => rfl
  | cons s ss ih =>
    unfold Replacer.replaceInStatements
    rw [replaceInStatement_ofFunction, ih]
    rfl

theorem Model.mapStrings_eq (m : Model) :
    m.mapStrings f = ⟨m.statements.map (Statement.mapStrings f)⟩ := by
  unfold Model.mapStrings Model.replaceStrings
  rw [replaceInStatements_ofFunction]
  rfl

/-! ## The nodes of the new model -/

theorem rewritten_node (a : Attribute) : a.node.Rewritten f (a.mapStrings f).node := by
  cases a <;> rfl

theorem rewritten_optionalNodes (s : Option AttributeSection) :
    List.Forall₂ (Node.Rewritten f) (AttributeSection.optionalNodes s)
      (AttributeSection.optionalNodes (s.map (AttributeSection.mapStrings f))) := by
  cases s with
  | none => exact .nil
  | some s =>
    refine .cons ⟨by simp [AttributeSection.mapStrings], rfl⟩ ?_
    have hattributes : (s.mapStrings f).attributes = s.attributes.map (Attribute.mapStrings f) :=
      rfl
    rw [hattributes, List.map_map, List.forall₂_map_left_iff, List.forall₂_map_right_iff]
    exact List.forall₂_same.mpr fun a _ => rewritten_node f a

theorem rewritten_content (c : Option Content) :
    List.Forall₂ (Node.Rewritten f) (c.map Content.node).toList
      ((c.map (Content.mapStrings f)).map Content.node).toList := by
  rcases c with _ | c
  · exact .nil
  · cases c <;> exact .cons rfl .nil

theorem rewritten_nodes (s : Statement) :
    List.Forall₂ (Node.Rewritten f) s.nodes (s.mapStrings f).nodes := by
  match s with
  | .attribute s =>
    exact .cons ⟨Option.isSome_map, rfl⟩ (rewritten_optionalNodes f s.attributeSection)
  | .deployment s =>
    refine .cons ⟨rfl, rfl, Option.isSome_map, Option.isSome_map, rfl⟩ ?_
    exact List.rel_append (rewritten_optionalNodes f s.attributeSection)
      (rewritten_content f s.content)

/-- The walk over the new model meets the nodes of the old one with their strings replaced. -/
theorem Model.rewritten_mapStrings (m : Model) :
    List.Forall₂ (Node.Rewritten f) (m.walk .collector [])
      ((m.mapStrings f).walk .collector []) := by
  rw [← nodes_eq_walk, ← nodes_eq_walk, mapStrings_eq]
  refine .cons (by simp [Node.Rewritten]) ?_
  dsimp only
  induction m.statements with
  | nil => exact .nil
  | cons s ss ih => exact List.rel_append (rewritten_nodes f s) ih

end Parts

/-- Nothing changes when every string is replaced by itself. -/
theorem Model.mapStrings_id {f : String → String} (hf : ∀ s, f s = s) (m : Model) :
    m.mapStrings f = m := by
  have hattribute : Attribute.mapStrings f = id := by
    funext a
    cases a <;> simp [Attribute.mapStrings, hf]
  have hsection : AttributeSection.mapStrings f = id := by
    funext s
    simp [AttributeSection.mapStrings, hattribute]
  have hcontent : Content.mapStrings f = id := by
    funext c
    cases c <;> simp [Content.mapStrings, hf]
  have hstatement : Statement.mapStrings f = id := by
    funext s
    cases s <;> simp [Statement.mapStrings, hf, hsection, hcontent]
  rw [mapStrings_eq, hstatement, List.map_id]

end ImageLint
