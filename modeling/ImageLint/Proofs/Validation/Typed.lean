import ImageLint.Proofs.Model.Walk
import ImageLint.Validator.Dispatch
import Mathlib.Data.List.Basic

/-!
# Checks that are declared over one kind of node

A validator shows a node to a check only if the check accepts the kind of the node. A typed check
decides once more by itself, from what the node holds. The two decisions rest on three tables: the
kind that a check accepts, the kind of a node, and the part that a node has of a kind. Here the
tables are compared, and it follows that the first decision can be left out.

* `NodeKind.kind_node`, `NodeKind.part?_node`, `Node.part?_eq_none_iff`: the tables agree.
* `Check.typed_at_node`, `Check.typed_elsewhere`: a typed check at a node of its kind and at any
  other node.
* `Check.runEverywhere`, `Check.runWhereApplicable`: a run without and with the first decision.
* `Check.filter_redundant_of_typed`: they have the same outcome.
-/

namespace ImageLint

namespace NodeKind

/-- The node of a kind that holds the part. -/
def node : (k : NodeKind) → k.Part → Node
  | .model, m => .model m
  | .attributeStatement, s => .attributeStatement s
  | .deploymentStatement, s => .deploymentStatement s
  | .attributeSection, s => .attributeSection s
  | .booleanAttribute, a => .booleanAttribute a
  | .valuedAttribute, a => .valuedAttribute a
  | .contentBlock, b => .contentBlock b
  | .path, p => .path p

theorem kind_node (k : NodeKind) (part : k.Part) : (k.node part).kind = k := by
  cases k <;> rfl

theorem part?_node (k : NodeKind) (part : k.Part) : (k.node part).part? k = some part := by
  cases k <;> rfl

end NodeKind

/-- A node has no part of any other kind than its own. -/
theorem Node.part?_eq_none_iff {n : Node} {k : NodeKind} : n.part? k = none ↔ k ≠ n.kind := by
  cases k <;> cases n <;> simp [part?, kind]

namespace Check

/-- The check was declared over what nodes of one kind hold. -/
def IsTyped (c : Check) : Prop :=
  ∃ (name : String) (k : NodeKind) (inspect : k.Part → Inspection), c = typed name k inspect

theorem appliesTo_iff {c : Check} {n : Node} : c.appliesTo n = true ↔ c.accepts = n.kind :=
  decide_eq_true_iff

section Typed

variable (name : String) (k : NodeKind) (inspect : k.Part → Inspection) (s : Sink)

/-- A typed check is for every node of its kind, and inspects what the node holds. -/
theorem typed_at_node (part : k.Part) :
    (typed name k inspect).appliesTo (k.node part) = true ∧
      (typed name k inspect).run (k.node part) s =
        (s.reportAll (inspect part).reported, (inspect part).ending.error?) := by
  refine ⟨appliesTo_iff.mpr (k.kind_node part).symm, ?_⟩
  simp only [run, typed, k.part?_node part]

/-- A typed check is for no node of another kind. There it succeeds and leaves the sink as it
is. -/
theorem typed_elsewhere {n : Node} (hn : k ≠ n.kind) :
    (typed name k inspect).appliesTo n = false ∧
      (typed name k inspect).run n s = (s, none) := by
  refine ⟨Bool.eq_false_iff.mpr (mt appliesTo_iff.mp hn), ?_⟩
  simp only [run, typed, Node.part?_eq_none_iff.mpr hn]
  rfl

end Typed

theorem IsTyped.run_of_not_appliesTo {c : Check} (hc : c.IsTyped) {n : Node}
    (hn : c.appliesTo n = false) (s : Sink) : c.run n s = (s, none) := by
  obtain ⟨name, k, inspect, rfl⟩ := hc
  have hkind : k ≠ n.kind := of_decide_eq_false hn
  exact (typed_elsewhere name k inspect s hkind).2

/-! ## Runs of many checks

What a check reports may depend on what was found before it, so a check is given here for each
sink. -/

/-- The findings of a run so far, and the error of each check that did not succeed, with the node
and the name of the check. -/
structure Outcome where
  sink : Sink
  errors : List (Node × String × CheckError)
  deriving DecidableEq, Repr

/-- Runs one more check at a node. -/
def Outcome.runAt (n : Node) (o : Outcome) (c : Sink → Check) : Outcome :=
  let (sink, error) := (c o.sink).run n o.sink
  { sink, errors := o.errors ++ (error.map fun e => (n, (c o.sink).name, e)).toList }

variable (cs : List (Sink → Check)) (m : Model) (file : Option String)

/-- Runs every check at every node. -/
def runEverywhere : Outcome :=
  m.nodes.foldl (fun o n => cs.foldl (Outcome.runAt n) o) { sink := .empty file, errors := [] }

/-- Runs every check at the nodes that it is for. -/
def runWhereApplicable : Outcome :=
  m.nodes.foldl
    (fun o n => cs.foldl (fun o c => if (c o.sink).appliesTo n then o.runAt n c else o) o)
    { sink := .empty file, errors := [] }

variable {cs}

theorem Outcome.runAt_of_not_appliesTo {n : Node} {o : Outcome} {c : Sink → Check}
    (hc : (c o.sink).IsTyped) (hn : (c o.sink).appliesTo n = false) : o.runAt n c = o := by
  unfold runAt
  rw [hc.run_of_not_appliesTo hn]
  exact congrArg (Outcome.mk o.sink) (List.append_nil o.errors)

theorem runEverywhere_eq (hcs : ∀ c ∈ cs, ∀ s, (c s).IsTyped) :
    runEverywhere cs m file = runWhereApplicable cs m file := by
  refine List.foldl_ext _ _ _ fun o n _ => List.foldl_ext _ _ _ fun o c hc => ?_
  split
  · rfl
  · next hn => exact Outcome.runAt_of_not_appliesTo (hcs c hc _) (Bool.eq_false_iff.mpr hn)

end Check

namespace CustomValidator

variable (v : CustomValidator) (m : Model) (file : Option String)

/-- Runs every check of the validator at every node of a model. -/
def runEverywhere : Progress :=
  m.nodes.foldl (fun p n => v.checks.foldl (v.runCheck n) p) { sink := .empty file, log := [] }

variable {v}

/-- A typed check finds no place to fill and nothing to log at a node that it is not for. -/
theorem runCheck_of_not_appliesTo {c : Check} (hc : c.IsTyped) {n : Node}
    (hn : c.appliesTo n = false) (p : Progress) : v.runCheck n p c = p := by
  have hsink : p.sink.fillLocations p.sink.length n.location = p.sink := by
    simp [Sink.fillLocations, Sink.length]
  unfold runCheck
  rw [hc.run_of_not_appliesTo hn]
  exact congrArg₂ Progress.mk hsink (List.append_nil p.log)

theorem runEverywhere_eq_run (hv : ∀ c ∈ v.checks, c.IsTyped) :
    v.runEverywhere m file = v.run m file := by
  refine List.foldl_ext _ _ _ fun p n _ => ?_
  unfold runNode
  rw [List.foldl_filter]
  refine List.foldl_ext _ _ _ fun p c hc => ?_
  split
  · rfl
  · next hn => exact runCheck_of_not_appliesTo (hv c hc) (Bool.eq_false_iff.mpr hn) p

end CustomValidator

namespace Check

/-- **Typed checks need no filter.** A typed check inspects every node of its kind, and at any other
node it succeeds and leaves the sink as it is. So typed checks that go through the nodes of a model
find the same, in the same order, and have the same errors, whether or not they are kept away from
nodes of other kinds, and so does a validator with such checks. -/
theorem filter_redundant_of_typed {cs : List (Sink → Check)} (hcs : ∀ c ∈ cs, ∀ s, (c s).IsTyped)
    (m : Model) (file : Option String) :
    m.nodes = m.walk .collector [] ∧
      runEverywhere cs m file = runWhereApplicable cs m file ∧
      (∀ v : CustomValidator, (∀ c ∈ v.checks, c.IsTyped) →
        v.runEverywhere m file = v.run m file) ∧
      ∀ (name : String) (k : NodeKind) (inspect : k.Part → Inspection) (s : Sink),
        (∀ part, (typed name k inspect).run (k.node part) s =
          (s.reportAll (inspect part).reported, (inspect part).ending.error?)) ∧
        ∀ n : Node, k ≠ n.kind → (typed name k inspect).run n s = (s, none) := by
  refine ⟨m.nodes_eq_walk, runEverywhere_eq m file hcs,
    fun v hv => CustomValidator.runEverywhere_eq_run m file hv, fun name k inspect s => ⟨?_, ?_⟩⟩
  · exact fun part => (typed_at_node name k inspect s part).2
  · exact fun n hn => (typed_elsewhere name k inspect s hn).2

/-- Four checks: one reports the paths of contents, one fails at every deployment, one breaks off at
the model, and one reports an attribute if nothing was found before. -/
def mixture : List (Sink → Check) :=
  [ fun _ => typed "sources" .path fun p => ⟨[.warning p.value], .succeeded⟩,
    fun _ => typed "targets" .deploymentStatement fun d => ⟨[], .failed (.message d.path)⟩,
    fun _ => typed "whole" .model fun _ => ⟨[.error "odd"], .brokeOff (.text "overflow")⟩,
    fun s => typed "first" .booleanAttribute fun a =>
      ⟨if s.diagnostics = [] then [.warning a.name] else [], .succeeded⟩ ]

/-- One deployment with an attribute and the path of a file. -/
def deployedShell : Model where
  statements := [.deployment
    { path := "/bin/sh"
      isAssignment := true
      attributeSection := some ⟨[.boolean ⟨"optional", true, none⟩], none⟩
      content := some (.path ⟨"ksh", none⟩)
      location := none }]

theorem filter_redundant_of_typed_mixture :
    (runWhereApplicable mixture deployedShell none).sink.diagnostics =
        [.error "odd", .warning "ksh"] ∧
      (runWhereApplicable mixture deployedShell none).errors.map (·.2) =
        [("whole", .panicked "overflow"), ("targets", .message "/bin/sh")] := by
  have hmixture : ∀ c ∈ mixture, ∀ s, (c s).IsTyped := by
    intro c hc s
    simp only [mixture, List.mem_cons, List.not_mem_nil, or_false] at hc
    rcases hc with rfl | rfl | rfl | rfl <;> exact ⟨_, _, _, rfl⟩
  obtain ⟨-, hruns, -, -⟩ := filter_redundant_of_typed hmixture deployedShell none
  rw [← hruns]
  decide

end Check

end ImageLint
