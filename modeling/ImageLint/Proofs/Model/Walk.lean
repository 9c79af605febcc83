import ImageLint.Model.Node

/-!
# Walking over a model

A walk goes down the statements, sections and contents of a model with a state. It is the same as
going through the list of the nodes.

* `Model.walk_eq`: a walk visits the nodes of the list in their order.
* `Model.nodes_eq_walk`: the list is what a walk that collects nodes collects.
* `Model.filterMap_deployment?_nodes`: the deployments among the nodes.
-/

namespace ImageLint

namespace Visitor

variable {σ : Type} (v : Visitor σ)

/-- Visits nodes one after another. -/
def visitAll (ns : List Node) (s : σ) : σ := ns.foldl (fun s n => v.visit n s) s

theorem visitAll_cons (n : Node) (ns : List Node) (s : σ) :
    v.visitAll (n :: ns) s = v.visitAll ns (v.visit n s) := rfl

theorem visitAll_append (ns ms : List Node) (s : σ) :
    v.visitAll (ns ++ ms) s = v.visitAll ms (v.visitAll ns s) := List.foldl_append

theorem walkAttributes_eq (as : List Attribute) (s : σ) :
    v.walkAttributes as s = v.visitAll (as.map Attribute.node) s := by
  induction as generalizing s with
  | nil => rfl
  | cons a as ih =>
    cases a with
    | boolean a => exact ih _
    | valued a => exact ih _

theorem walkSection_eq (a : Option AttributeSection) (s : σ) :
    v.walkSection a s = v.visitAll (AttributeSection.optionalNodes a) s := by
  cases a with
  | none => rfl
  | some a => exact v.walkAttributes_eq a.attributes _

theorem walkContent_eq (c : Option Content) (s : σ) :
    v.walkContent c s = v.visitAll (c.map Content.node).toList s := by
  cases c with
  | none => rfl
  | some c => cases c <;> rfl

theorem walkStatement_eq (st : Statement) (s : σ) :
    v.walkStatement st s = v.visitAll st.nodes s := by
  match st with
  | .attribute a => exact v.walkSection_eq a.attributeSection _
  | .deployment d =>
    have hwalk : v.walkStatement (.deployment d) s =
        v.walkContent d.content
          (v.walkSection d.attributeSection (v.deploymentStatement d s)) := rfl
    rw [hwalk, walkContent_eq, walkSection_eq, ← visitAll_append]
    rfl

theorem walkStatements_eq (sts : List Statement) (s : σ) :
    v.walkStatements sts s = v.visitAll (sts.flatMap Statement.nodes) s := by
  induction sts generalizing s with
  | nil => rfl
  | cons st sts ih =>
    unfold walkStatements
    rw [ih, walkStatement_eq, List.flatMap_cons, visitAll_append]

/-- A visitor that only appends to a list appends what belongs to the nodes one after another. -/
theorem visitAll_of_append {α : Type} {v : Visitor (List α)} {g : Node → List α}
    (hv : ∀ n as, v.visit n as = as ++ g n) (ns : List Node) (as : List α) :
    v.visitAll ns as = as ++ ns.flatMap g := by
  induction ns generalizing as with
  | nil => exact (List.append_nil as).symm
  | cons n ns ih => rw [visitAll_cons, hv, ih, List.append_assoc, List.flatMap_cons]

/-- Adds every node to a list. -/
def collector : Visitor (List Node) where
  model m ns := ns ++ [.model m]
  attributeStatement s ns := ns ++ [.attributeStatement s]
  deploymentStatement s ns := ns ++ [.deploymentStatement s]
  attributeSection s ns := ns ++ [.attributeSection s]
  booleanAttribute a ns := ns ++ [.booleanAttribute a]
  valuedAttribute a ns := ns ++ [.valuedAttribute a]
  contentBlock b ns := ns ++ [.contentBlock b]
  path p ns := ns ++ [.path p]

theorem visit_collector (n : Node) (ns : List Node) : collector.visit n ns = ns ++ [n] := by
  cases n <;> rfl

theorem visitAll_collector (ns ms : List Node) : collector.visitAll ms ns = ns ++ ms := by
  rw [visitAll_of_append visit_collector, List.flatMap_singleton']

end Visitor

namespace Model

/-- A walk visits the nodes of the list in their order. -/
theorem walk_eq {σ : Type} (m : Model) (v : Visitor σ) (s : σ) :
    m.walk v s = v.visitAll m.nodes s := v.walkStatements_eq m.statements _

theorem nodes_eq_walk (m : Model) : m.nodes = m.walk .collector [] := by
  rw [walk_eq, Visitor.visitAll_collector, List.nil_append]

end Model

/-! ## Deployments among the nodes -/

def Node.deployment? : Node → Option DeploymentStatement
  | .deploymentStatement s => some s
  | _ => none

theorem filterMap_deployment?_optionalNodes (s : Option AttributeSection) :
    (AttributeSection.optionalNodes s).filterMap Node.deployment? = [] := by
  cases s with
  | none => rfl
  | some s =>
    have hattributes : (s.attributes.map Attribute.node).filterMap Node.deployment? = [] := by
      rw [List.filterMap_map, List.filterMap_eq_nil_iff]
      intro a _
      cases a <;> rfl
    unfold AttributeSection.optionalNodes AttributeSection.nodes
    rw [List.filterMap_cons_none rfl, hattributes]

theorem filterMap_deployment?_statement (s : Statement) :
    s.nodes.filterMap Node.deployment? = s.deployment?.toList := by
  match s with
  | .attribute s => exact filterMap_deployment?_optionalNodes s.attributeSection
  | .deployment s =>
    have hcontent : (s.content.map Content.node).toList.filterMap Node.deployment? = [] := by
      rcases s.content with _ | c
      · rfl
      · cases c <;> rfl
    have hself : (Node.deploymentStatement s).deployment? = some s := rfl
    unfold Statement.nodes
    dsimp only
    rw [List.filterMap_cons_some hself, List.filterMap_append,
      filterMap_deployment?_optionalNodes, hcontent]
    rfl

/-- The walk meets the deployments in document order. -/
theorem Model.filterMap_deployment?_nodes (m : Model) :
    m.nodes.filterMap Node.deployment? = m.deployments := by
  unfold Model.nodes Model.deployments
  rw [List.filterMap_cons_none rfl, List.filterMap_flatMap]
  simp only [filterMap_deployment?_statement]
  induction m.statements with
  | nil => rfl
  | cons s ss ih =>
    rw [List.flatMap_cons, ih]
    cases s <;> rfl

end ImageLint
