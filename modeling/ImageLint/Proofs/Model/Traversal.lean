import ImageLint.Proofs.Model.Preorder
import ImageLint.Proofs.Model.Replacement

/-!
# Going through a model

A model is gone through in two ways: a walk visits its nodes with a state, and replacing strings
visits those nodes that hold one, also with a state, and makes a new model. Both recurse on the tree
on their own. Here each is told by the list of the nodes.

* `Replacer.answer`: what is put in the place of the string of a node, if it holds one.
* `Replacer.Rewrites`: replacing the strings of a part of a model.
* `Model.traversals_follow_nodes`: walks and replacements go through the nodes in preorder.
-/

namespace ImageLint

namespace Replacer

variable {σ : Type} (r : Replacer σ)

/-- What is put in the place of the string of a node. A node without one is passed over. -/
def answer : Node → StateM σ (Option String)
  | .deploymentStatement s => some <$> r.deploymentPath s
  | .valuedAttribute a => some <$> r.attributeValue a
  | .path p => some <$> r.contentPath p
  | _ => pure none

theorem answer_of_replaceable_eq_none {n : Node} (hn : n.replaceable = none) :
    r.answer n = pure none := by
  cases n with
  | deploymentStatement s => cases hn
  | valuedAttribute a => cases hn
  | path p => cases hn
  | _ => rfl

/-- A computation replaces the strings of a part of a model: it asks for an answer at each node of
the part, in order, the new part has the answers for strings, and it is the old one apart from
these. -/
structure Rewrites {α : Type} (nodes : α → List Node) (blank : α → α) (old : α)
    (x : StateM σ α) : Prop where
  answers : ∀ s, ((nodes old).mapM r.answer).run s =
    ((nodes (x.run s).1).map Node.replaceable, (x.run s).2)
  blank_eq : ∀ s, blank (x.run s).1 = blank old

/-- Answers for one list of nodes after another. -/
theorem run_mapM_append (f : Node → StateM σ (Option String)) (ns ms : List Node) (s : σ) :
    ((ns ++ ms).mapM f).run s =
      (((ns.mapM f).run s).1 ++ ((ms.mapM f).run ((ns.mapM f).run s).2).1,
        ((ms.mapM f).run ((ns.mapM f).run s).2).2) := by
  rw [List.mapM_append]
  rfl

theorem rewrites_nil {α : Type} (nodes : α → List Node) (blank : α → α) :
    r.Rewrites (fun as : List α => as.flatMap nodes) (List.map blank) [] (pure []) :=
  ⟨fun _ => rfl, fun _ => rfl⟩

variable {r} in
theorem Rewrites.cons {α : Type} {nodes : α → List Node} {blank : α → α} {a : α} {as : List α}
    {x : StateM σ α} {xs : StateM σ (List α)} (hx : r.Rewrites nodes blank a x)
    (hxs : r.Rewrites (fun as => as.flatMap nodes) (List.map blank) as xs) :
    r.Rewrites (fun as => as.flatMap nodes) (List.map blank) (a :: as)
      (do
        let a ← x
        let as ← xs
        pure (a :: as)) := by
  refine ⟨fun s => ?_, fun s => ?_⟩
  · rw [List.flatMap_cons, run_mapM_append, hx.answers, hxs.answers, ← List.map_append]
    rfl
  · exact congrArg₂ List.cons (hx.blank_eq s) (hxs.blank_eq _)

variable {r} in
/-- A part that stands under a node without a string. -/
theorem Rewrites.under {α β : Type} {nodes : α → List Node} {blank : α → α} {old : α}
    {x : StateM σ α} {nodes' : β → List Node} {blank' : β → β}
    (hx : r.Rewrites nodes blank old x) (wrap : α → β) (head : α → Node)
    (hhead : ∀ a, (head a).replaceable = none) (hnodes : ∀ a, nodes' (wrap a) = head a :: nodes a)
    (hblank : ∀ a, blank' (wrap a) = wrap (blank a)) :
    r.Rewrites nodes' blank' (wrap old) (wrap <$> x) := by
  refine ⟨fun s => ?_, fun s => ?_⟩
  · have hnew : nodes' ((wrap <$> x).run s).1 = head (x.run s).1 :: nodes (x.run s).1 := hnodes _
    rw [hnodes, hnew, List.map_cons, hhead, List.mapM_cons,
      r.answer_of_replaceable_eq_none (hhead _)]
    exact congrArg (fun p => (none :: p.1, p.2)) (hx.answers s)
  · have hnew : blank' ((wrap <$> x).run s).1 = wrap (blank (x.run s).1) := hblank _
    rw [hnew, hx.blank_eq, hblank]

theorem rewrites_attribute (a : Attribute) :
    r.Rewrites (fun a => [Attribute.node a]) (Attribute.mapStrings fun _ => "") a
      (r.replaceInAttribute a) := by
  cases a with
  | boolean a => exact ⟨fun _ => rfl, fun _ => rfl⟩
  | valued a => exact ⟨fun _ => rfl, fun _ => rfl⟩

theorem rewrites_attributes (as : List Attribute) :
    r.Rewrites (fun as => as.flatMap fun a => [Attribute.node a])
      (List.map (Attribute.mapStrings fun _ => "")) as (r.replaceInAttributes as) := by
  induction as with
  | nil => exact rewrites_nil r _ _
  | cons a as ih => exact (rewrites_attribute r a).cons ih

theorem rewrites_section (s : Option AttributeSection) :
    r.Rewrites AttributeSection.optionalNodes
      (Option.map (AttributeSection.mapStrings fun _ => "")) s (r.replaceInSection s) := by
  cases s with
  | none => exact ⟨fun _ => rfl, fun _ => rfl⟩
  | some a =>
    have hattributes := rewrites_attributes r a.attributes
    simp only [← List.map_eq_flatMap] at hattributes
    refine hattributes.under (fun as => some { a with attributes := as })
      (fun as => .attributeSection { a with attributes := as }) ?_ ?_ ?_
    all_goals exact fun _ => rfl

theorem rewrites_content (c : Option Content) :
    r.Rewrites (fun c => (c.map Content.node).toList) (Option.map (Content.mapStrings fun _ => ""))
      c (r.replaceInContent c) := by
  match c with
  | none => exact ⟨fun _ => rfl, fun _ => rfl⟩
  | some (.path p) => exact ⟨fun _ => rfl, fun _ => rfl⟩
  | some (.block b) => exact ⟨fun _ => rfl, fun _ => rfl⟩

theorem rewrites_statement (st : Statement) :
    r.Rewrites Statement.nodes (Statement.mapStrings fun _ => "") st (r.replaceInStatement st) := by
  match st with
  | .attribute a =>
    refine (rewrites_section r a.attributeSection).under
      (fun s => Statement.attribute { a with attributeSection := s })
      (fun s => .attributeStatement { a with attributeSection := s }) ?_ ?_ ?_
    all_goals exact fun _ => rfl
  | .deployment d =>
    have hsection := rewrites_section r d.attributeSection
    have hcontent := rewrites_content r d.content
    have hnodes : (Statement.deployment d).nodes =
        [.deploymentStatement d] ++ (AttributeSection.optionalNodes d.attributeSection ++
          (d.content.map Content.node).toList) := rfl
    refine ⟨fun s => ?_, fun s => ?_⟩
    · rw [hnodes, run_mapM_append, run_mapM_append, hsection.answers, hcontent.answers,
        ← List.map_append]
      rfl
    · exact congrArg₂
        (fun x c => Statement.deployment { d with path := "", attributeSection := x, content := c })
        (hsection.blank_eq _) (hcontent.blank_eq _)

theorem rewrites_statements (sts : List Statement) :
    r.Rewrites (fun sts => sts.flatMap Statement.nodes)
      (List.map (Statement.mapStrings fun _ => "")) sts (r.replaceInStatements sts) := by
  induction sts with
  | nil => exact rewrites_nil r _ _
  | cons st sts ih => exact (rewrites_statement r st).cons ih

end Replacer

namespace Model

/-- The model without the strings that may be replaced. -/
def blank (m : Model) : Model := ⟨m.statements.map (Statement.mapStrings fun _ => "")⟩

variable (m : Model)

theorem rewrites {σ : Type} (r : Replacer σ) :
    r.Rewrites Model.nodes Model.blank m (m.replaceStrings r) :=
  (Replacer.rewrites_statements r m.statements).under Model.mk (fun sts => .model ⟨sts⟩)
    (fun _ => rfl) (fun _ => rfl) fun _ => rfl

/-- **Going through a model.** The nodes that a walk collects are the nodes of the tree, each place
once and in preorder. Any walk visits them one after another, and any replacement asks for new
strings at those that hold one, in the same order, and changes nothing else. -/
theorem traversals_follow_nodes :
    m.nodes = m.walk .collector [] ∧
      InPreorder (Node.model m).at? (m.walk .collector []) ∧
      (∀ (σ : Type) (v : Visitor σ) (s : σ),
        m.walk v s = (m.walk .collector []).foldl (fun s n => v.visit n s) s) ∧
      ∀ (σ : Type) (r : Replacer σ) (s : σ),
        ((m.walk .collector []).mapM r.answer).run s =
            ((((m.replaceStrings r).run s).1.walk .collector []).map Node.replaceable,
              ((m.replaceStrings r).run s).2) ∧
          ((m.replaceStrings r).run s).1.blank = m.blank := by
  refine ⟨m.nodes_eq_walk, ?_, fun σ v s => ?_, fun σ r s => ?_⟩
  · rw [← nodes_eq_walk]
    exact m.inPreorder_nodes
  · rw [← nodes_eq_walk]
    exact m.walk_eq v s
  · rw [← nodes_eq_walk, ← nodes_eq_walk]
    exact ⟨(m.rewrites r).answers s, (m.rewrites r).blank_eq s⟩

end Model

end ImageLint
