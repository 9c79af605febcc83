import ImageLint.Model.Draft
import ImageLint.Model.Node
import Mathlib.Data.List.Basic

/-!
# Documents that are written step by step

A draft is written as if each statement stood on a line of its own. Here the document is told by the
steps alone. Which statement a step belongs to is read off the steps before it, and so are the line
of the statement, the order of its attributes and the line of an error that is added meanwhile.

* `Draft.statements_step`, `Draft.syntaxDiagnostics_step`: what one step does.
* `Draft.Written`: what a document holds after some steps.
* `Draft.Advances`: what a step may change.
* `Draft.run_eq_error_iff`: when the steps cannot be taken.
* `Draft.document_follows_steps`: all of it, for every sequence of steps.
-/

namespace ImageLint

/-- The attributes in the section of a statement. -/
def Statement.attributes (s : Statement) : List Attribute :=
  match s.attributeSection with
  | some a => a.attributes
  | none => []

namespace Draft

/-! ## Steps -/

namespace Step

/-- Whether a step begins a statement. -/
def begins : Step → Bool
  | .attributeStatement => true
  | .deploy _ => true
  | .assign .. => true
  | .inline .. => true
  | _ => false

/-- Whether a step adds an attribute. -/
def addsAttribute : Step → Bool
  | .boolean .. => true
  | .valued .. => true
  | _ => false

/-- Whether a step adds an error of the parser. -/
def isSyntaxError : Step → Bool
  | .syntaxError _ => true
  | _ => false

/-- The attribute that a step adds to a statement at a place. -/
def attribute? (place : Option Location) : Step → Option Attribute
  | .boolean name enabled => some (.boolean ⟨name, enabled, place⟩)
  | .valued name value => some (.valued ⟨name, value, place⟩)
  | _ => none

/-- The statement that a step begins at a place. -/
def statement? (place : Option Location) : Step → Option Statement
  | .attributeStatement => some (.attribute ⟨some ⟨[], place⟩, place⟩)
  | .deploy target => some (.deployment (bareDeployment target place))
  | .assign target path =>
    some (.deployment (withContent (fun l => .path ⟨path, l⟩) (bareDeployment target place)))
  | .inline target text =>
    some (.deployment (withContent (fun l => .block ⟨text, l⟩) (bareDeployment target place)))
  | _ => none

/-- What a step does to the last statement. -/
def edit : Step → Statement → Statement
  | .source path => setContent fun l => .path ⟨path, l⟩
  | .boolean name enabled => addAttribute fun l => .boolean ⟨name, enabled, l⟩
  | .valued name value => addAttribute fun l => .valued ⟨name, value, l⟩
  | _ => id

/-- The error that a step adds when there are so many statements. -/
def remark? (statements : Nat) : Step → Option Diagnostic
  | .syntaxError message =>
    some { Diagnostic.error message with
      line := some (max 1 statements).toUInt64, column := some 1 }
  | _ => none

theorem isSome_statement? (place : Option Location) (t : Step) :
    (t.statement? place).isSome = t.begins := by cases t <;> rfl

theorem isSome_remark? (statements : Nat) (t : Step) :
    (t.remark? statements).isSome = t.isSyntaxError := by cases t <;> rfl

end Step

/-! ## One step -/

section LastItem

variable {α : Type} (f : α → α)

theorem mapLast_concat (as : List α) (a : α) : mapLast f (as ++ [a]) = as ++ [f a] := by
  induction as with
  | nil => rfl
  | cons b as ih =>
    have hcons : mapLast f (b :: (as ++ [a])) = b :: mapLast f (as ++ [a]) := by
      cases as <;> rfl
    rw [List.cons_append, hcons, ih, List.cons_append]

/-- Only the last item changes. -/
theorem mapLast_cases (as : List α) :
    as = [] ∧ mapLast f as = [] ∨
      ∃ before a, as = before ++ [a] ∧ mapLast f as = before ++ [f a] := by
  rcases List.eq_nil_or_concat' as with rfl | ⟨before, a, rfl⟩
  · exact Or.inl ⟨rfl, rfl⟩
  · exact Or.inr ⟨before, a, rfl, mapLast_concat f before a⟩

theorem mapLast_id (as : List α) : mapLast id as = as := by
  rcases mapLast_cases id as with ⟨rfl, h⟩ | ⟨before, a, rfl, h⟩
  · exact h
  · exact h

theorem length_mapLast (as : List α) : (mapLast f as).length = as.length := by
  rcases mapLast_cases f as with ⟨rfl, h⟩ | ⟨before, a, rfl, h⟩ <;> simp [h]

theorem dropLast_mapLast (as : List α) : (mapLast f as).dropLast = as.dropLast := by
  rcases mapLast_cases f as with ⟨rfl, h⟩ | ⟨before, a, rfl, h⟩ <;> simp [h]

end LastItem

variable {d d' : Draft} {t : Step} {steps : List Step}

theorem attach_eq_ok {make : Option Location → Attribute} (h : d.attach make = .ok d') :
    d' = { d with statements := mapLast (addAttribute make) d.statements } := by
  unfold attach at h
  split at h
  · cases h
  · exact (Except.ok.inj h).symm

theorem step_eq_error_iff {e : Error} :
    d.step t = .error e ↔ t.addsAttribute = true ∧ d.statements = [] := by
  cases e
  cases t <;> simp [step, attach, Step.addsAttribute]

/-- A step begins a statement after the others, or edits the last one. -/
theorem statements_step (h : d.step t = .ok d') :
    d'.statements =
      match t.statement? d.nextPlace with
      | some s => d.statements ++ [s]
      | none => mapLast t.edit d.statements := by
  cases t with
  | attributeStatement => cases h; rfl
  | deploy target => cases h; rfl
  | assign target path => cases h; rfl
  | inline target text => cases h; rfl
  | source path => cases h; rfl
  | boolean name enabled => rw [attach_eq_ok h]; rfl
  | valued name value => rw [attach_eq_ok h]; rfl
  | syntaxError message => cases h; exact (mapLast_id _).symm

/-- A step adds its error after the others. -/
theorem syntaxDiagnostics_step (h : d.step t = .ok d') :
    d'.syntaxDiagnostics =
      d.syntaxDiagnostics ++ (t.remark? d.statements.length).toList := by
  cases t with
  | attributeStatement => cases h; exact (List.append_nil _).symm
  | deploy target => cases h; exact (List.append_nil _).symm
  | assign target path => cases h; exact (List.append_nil _).symm
  | inline target text => cases h; exact (List.append_nil _).symm
  | source path => cases h; exact (List.append_nil _).symm
  | boolean name enabled => rw [attach_eq_ok h]; exact (List.append_nil _).symm
  | valued name value => rw [attach_eq_ok h]; exact (List.append_nil _).symm
  | syntaxError message => cases h; rfl

theorem statements_of_begins (hb : t.begins = true) (h : d.step t = .ok d') :
    ∃ s, t.statement? d.nextPlace = some s ∧ d'.statements = d.statements ++ [s] := by
  rw [← t.isSome_statement? d.nextPlace, Option.isSome_iff_exists] at hb
  obtain ⟨s, hs⟩ := hb
  have hstep := statements_step h
  rw [hs] at hstep
  exact ⟨s, hs, hstep⟩

theorem statements_of_not_begins (hb : t.begins = false) (h : d.step t = .ok d') :
    d'.statements = mapLast t.edit d.statements := by
  rw [← t.isSome_statement? d.nextPlace, Option.isSome_eq_false_iff,
    Option.isNone_iff_eq_none] at hb
  have hstep := statements_step h
  rw [hb] at hstep
  exact hstep

/-! ## The places in a statement -/

/-- Every node of a statement is at the place. -/
def PlacedAt (place : Option Location) (s : Statement) : Prop := ∀ n ∈ s.nodes, n.location = place

variable {place : Option Location}

theorem placedAt_attribute_iff {s : AttributeStatement} :
    PlacedAt place (.attribute s) ↔
      s.location = place ∧
        ∀ n ∈ AttributeSection.optionalNodes s.attributeSection, n.location = place :=
  List.forall_mem_cons

theorem placedAt_deployment_iff {s : DeploymentStatement} :
    PlacedAt place (.deployment s) ↔
      s.location = place ∧
        (∀ n ∈ AttributeSection.optionalNodes s.attributeSection, n.location = place) ∧
        ∀ n ∈ (s.content.map Content.node).toList, n.location = place :=
  List.forall_mem_cons.trans (and_congr_right fun _ => List.forall_mem_append)

theorem PlacedAt.location {s : Statement} (h : PlacedAt place s) : s.location = place := by
  match s with
  | .attribute s => exact (placedAt_attribute_iff.mp h).1
  | .deployment s => exact (placedAt_deployment_iff.mp h).1

theorem location_addToSection {a : Attribute} (ha : a.node.location = place)
    {attributes : Option AttributeSection}
    (h : ∀ n ∈ AttributeSection.optionalNodes attributes, n.location = place) :
    ∀ n ∈ AttributeSection.optionalNodes (some (addToSection place a attributes)),
      n.location = place := by
  cases attributes with
  | none => exact List.forall_mem_cons.mpr ⟨rfl, List.forall_mem_singleton.mpr ha⟩
  | some s =>
    obtain ⟨hs, hattributes⟩ := List.forall_mem_cons.mp h
    refine List.forall_mem_cons.mpr ⟨hs, ?_⟩
    have hnodes : (s.attributes ++ [a]).map Attribute.node =
        s.attributes.map Attribute.node ++ [a.node] := List.map_append
    rw [addToSection, hnodes]
    exact List.forall_mem_append.mpr ⟨hattributes, List.forall_mem_singleton.mpr ha⟩

theorem PlacedAt.addAttribute {s : Statement} (h : PlacedAt place s)
    (make : Option Location → Attribute) (hmake : ∀ l, (make l).node.location = l) :
    PlacedAt place (addAttribute make s) := by
  match s with
  | .attribute s =>
    obtain ⟨rfl, hsection⟩ := placedAt_attribute_iff.mp h
    exact placedAt_attribute_iff.mpr ⟨rfl, location_addToSection (hmake _) hsection⟩
  | .deployment s =>
    obtain ⟨rfl, hsection, hcontent⟩ := placedAt_deployment_iff.mp h
    exact placedAt_deployment_iff.mpr
      ⟨rfl, location_addToSection (hmake _) hsection, hcontent⟩

theorem PlacedAt.setContent {s : Statement} (h : PlacedAt place s)
    (make : Option Location → Content) (hmake : ∀ l, (make l).node.location = l) :
    PlacedAt place (setContent make s) := by
  match s with
  | .attribute s => exact h
  | .deployment s =>
    obtain ⟨rfl, hsection, -⟩ := placedAt_deployment_iff.mp h
    exact placedAt_deployment_iff.mpr
      ⟨rfl, hsection, List.forall_mem_singleton.mpr (hmake _)⟩

theorem PlacedAt.edit {s : Statement} (h : PlacedAt place s) (t : Step) :
    PlacedAt place (t.edit s) := by
  cases t with
  | source path => exact h.setContent (fun l => .path ⟨path, l⟩) fun _ => rfl
  | boolean name enabled => exact h.addAttribute (fun l => .boolean ⟨name, enabled, l⟩) fun _ => rfl
  | valued name value => exact h.addAttribute (fun l => .valued ⟨name, value, l⟩) fun _ => rfl
  | _ => exact h

theorem placedAt_bareDeployment (target : String) (place : Option Location) :
    PlacedAt place (.deployment (bareDeployment target place)) :=
  placedAt_deployment_iff.mpr ⟨rfl, List.forall_mem_nil _, List.forall_mem_nil _⟩

theorem PlacedAt.of_begun {s : Statement} (h : t.statement? place = some s) : PlacedAt place s := by
  cases t with
  | attributeStatement =>
    cases h
    exact placedAt_attribute_iff.mpr ⟨rfl, List.forall_mem_singleton.mpr rfl⟩
  | deploy target => cases h; exact placedAt_bareDeployment target place
  | assign target path =>
    cases h
    exact (placedAt_bareDeployment target place).setContent (fun l => .path ⟨path, l⟩) fun _ => rfl
  | inline target text =>
    cases h
    exact (placedAt_bareDeployment target place).setContent (fun l => .block ⟨text, l⟩) fun _ => rfl
  | _ => cases h

theorem location_edit (t : Step) (s : Statement) : (t.edit s).location = s.location := by
  cases t <;> cases s <;> rfl

/-! ## The attributes of a statement -/

theorem attributes_of_begun {s : Statement} (h : t.statement? place = some s) :
    s.attributes = [] := by
  cases t <;> cases h <;> rfl

theorem attributes_addAttribute (make : Option Location → Attribute) (s : Statement) :
    (addAttribute make s).attributes = s.attributes ++ [make s.location] := by
  match s with
  | .attribute ⟨none, l⟩ => rfl
  | .attribute ⟨some a, l⟩ => rfl
  | .deployment ⟨path, isAssignment, none, content, l⟩ => rfl
  | .deployment ⟨path, isAssignment, some a, content, l⟩ => rfl

theorem attributes_setContent (make : Option Location → Content) (s : Statement) :
    (setContent make s).attributes = s.attributes := by
  cases s <;> rfl

/-- A step adds its attribute after the others. -/
theorem attributes_edit (t : Step) (s : Statement) :
    (t.edit s).attributes = s.attributes ++ (t.attribute? s.location).toList := by
  cases t with
  | source path => exact (attributes_setContent _ s).trans (List.append_nil _).symm
  | boolean name enabled => exact attributes_addAttribute (fun l => .boolean ⟨name, enabled, l⟩) s
  | valued name value => exact attributes_addAttribute (fun l => .valued ⟨name, value, l⟩) s
  | _ => exact (List.append_nil _).symm

/-! ## Runs -/

theorem run_cons (d : Draft) (t : Step) (steps : List Step) :
    d.run (t :: steps) = (d.step t).bind fun m => m.run steps := List.foldlM_cons

theorem run_append_eq_ok_iff {before after : List Step} :
    d.run (before ++ after) = .ok d' ↔ ∃ m, d.run before = .ok m ∧ m.run after = .ok d' := by
  unfold run
  rw [List.foldlM_append]
  cases before.foldlM step d with
  | error e => simp [bind, Except.bind]
  | ok m => simp [bind, Except.bind]

theorem run_cons_eq_ok_iff :
    d.run (t :: steps) = .ok d' ↔ ∃ m, d.step t = .ok m ∧ m.run steps = .ok d' := by
  rw [run_cons]
  cases d.step t with
  | error e => simp [Except.bind]
  | ok m => simp [Except.bind]

theorem run_nil_eq_ok_iff : d.run [] = .ok d' ↔ d' = d := by
  refine ⟨fun h => (Except.ok.inj h).symm, ?_⟩
  rintro rfl
  rfl

/-- What every step preserves a run preserves. -/
theorem run_preserves (P : Draft → Prop)
    (hstep : ∀ d t d', d.step t = .ok d' → P d → P d') (h : d.run steps = .ok d') (hd : P d) :
    P d' := by
  induction steps generalizing d with
  | nil => rwa [run_nil_eq_ok_iff.mp h]
  | cons t steps ih =>
    obtain ⟨m, hm, hrest⟩ := run_cons_eq_ok_iff.mp h
    exact ih hrest (hstep d t m hm hd)

/-- A run adds a statement for each step that begins one, and an error for each step that adds
one. -/
theorem length_run (h : d.run steps = .ok d') :
    d'.statements.length = d.statements.length + steps.countP Step.begins ∧
      d'.syntaxDiagnostics.length =
        d.syntaxDiagnostics.length + steps.countP Step.isSyntaxError := by
  induction steps generalizing d with
  | nil =>
    obtain rfl := run_nil_eq_ok_iff.mp h
    exact ⟨rfl, rfl⟩
  | cons t steps ih =>
    obtain ⟨m, hm, hrest⟩ := run_cons_eq_ok_iff.mp h
    obtain ⟨hstatements, hdiagnostics⟩ := ih hrest
    have hstatement : m.statements.length = d.statements.length + if t.begins then 1 else 0 := by
      cases hb : t.begins with
      | true =>
        obtain ⟨s, -, hs⟩ := statements_of_begins hb hm
        rw [hs, List.length_append]
        rfl
      | false => exact statements_of_not_begins hb hm ▸ length_mapLast t.edit d.statements
    have hremark : (t.remark? d.statements.length).toList.length =
        if t.isSyntaxError then 1 else 0 := by
      rw [← t.isSome_remark? d.statements.length]
      cases t.remark? d.statements.length <;> rfl
    rw [hstatements, hstatement, hdiagnostics, syntaxDiagnostics_step hm, List.length_append,
      hremark, List.countP_cons, List.countP_cons]
    omega

theorem length_run_empty (h : run {} steps = .ok d) :
    d.statements.length = steps.countP Step.begins ∧
      d.syntaxDiagnostics.length = steps.countP Step.isSyntaxError :=
  ⟨(length_run h).1.trans (Nat.zero_add _), (length_run h).2.trans (Nat.zero_add _)⟩

/-- All statements but the last one stay as they are. -/
theorem dropLast_prefix_step (h : d.step t = .ok d') :
    d.statements.dropLast <+: d'.statements.dropLast := by
  cases hb : t.begins with
  | true =>
    obtain ⟨s, -, hs⟩ := statements_of_begins hb h
    rw [hs, List.dropLast_concat]
    exact List.dropLast_prefix d.statements
  | false =>
    have hsame : d'.statements.dropLast = d.statements.dropLast := by
      rw [statements_of_not_begins hb h, dropLast_mapLast]
    exact hsame ▸ List.prefix_rfl

theorem dropLast_prefix_run (h : d.run steps = .ok d') :
    d.statements.dropLast <+: d'.statements.dropLast :=
  run_preserves (fun m => d.statements.dropLast <+: m.statements.dropLast)
    (fun _ _ _ hstep hd => hd.trans (dropLast_prefix_step hstep)) h List.prefix_rfl

/-- Errors stay as they are. -/
theorem syntaxDiagnostics_prefix_run (h : d.run steps = .ok d') :
    d.syntaxDiagnostics <+: d'.syntaxDiagnostics := by
  refine run_preserves (fun m => d.syntaxDiagnostics <+: m.syntaxDiagnostics) ?_ h List.prefix_rfl
  intro m t m' hstep hm
  rw [syntaxDiagnostics_step hstep]
  exact hm.trans (List.prefix_append _ _)

/-- A statement is left alone as soon as another one is begun. -/
theorem statements_prefix_run (hsteps : ∀ t ∈ steps.head?, t.begins = true)
    (h : d.run steps = .ok d') : d.statements <+: d'.statements := by
  cases steps with
  | nil => exact run_nil_eq_ok_iff.mp h ▸ List.prefix_rfl
  | cons t steps =>
    obtain ⟨m, hm, hrest⟩ := run_cons_eq_ok_iff.mp h
    obtain ⟨s, -, hs⟩ := statements_of_begins (hsteps t rfl) hm
    have hprefix := dropLast_prefix_run hrest
    rw [hs, List.dropLast_concat] at hprefix
    exact hprefix.trans (List.dropLast_prefix _)

/-! ## What holds of a draft after a run -/

theorem getElem?_concat_cases {α : Type} {as : List α} {a b : α} {i : Nat}
    (h : (as ++ [a])[i]? = some b) : as[i]? = some b ∨ i = as.length ∧ a = b := by
  rcases Nat.lt_or_ge i as.length with hi | hi
  · rw [List.getElem?_append_left hi] at h
    exact Or.inl h
  · rw [List.getElem?_append_right hi, List.getElem?_singleton] at h
    split at h
    · exact Or.inr ⟨by omega, Option.some.inj h⟩
    · cases h

/-- Every statement is on a line of its own, with all that belongs to it. -/
def Placed (d : Draft) : Prop :=
  ∀ i s, d.statements[i]? = some s → PlacedAt (some (placeOf i)) s

theorem Placed.step (hd : d.Placed) (h : d.step t = .ok d') : d'.Placed := by
  intro i s hi
  cases hb : t.begins with
  | true =>
    obtain ⟨begun, hbegun, hstatements⟩ := statements_of_begins hb h
    rw [hstatements] at hi
    rcases getElem?_concat_cases hi with hold | ⟨rfl, rfl⟩
    · exact hd i s hold
    · exact .of_begun hbegun
  | false =>
    rw [statements_of_not_begins hb h] at hi
    rcases mapLast_cases t.edit d.statements with ⟨-, hnone⟩ | ⟨earlier, last, hlast, hedited⟩
    · rw [hnone] at hi
      cases hi
    · rw [hedited] at hi
      rcases getElem?_concat_cases hi with hold | ⟨rfl, rfl⟩
      · have hi' : i < earlier.length := (List.getElem?_eq_some_iff.mp hold).1
        exact hd i s (by rw [hlast, List.getElem?_append_left hi', hold])
      · exact (hd _ last (by rw [hlast, List.getElem?_concat_length])).edit t

/-- As long as no other statement is begun the attributes go to the last one. -/
theorem run_within_statement {earlier : List Statement} {s : Statement}
    (hsteps : ∀ t ∈ steps, t.begins = false) (hd : d.statements = earlier ++ [s])
    (h : d.run steps = .ok d') :
    ∃ s', d'.statements = earlier ++ [s'] ∧
      s'.attributes = s.attributes ++ steps.filterMap (Step.attribute? s.location) := by
  induction steps generalizing d s with
  | nil =>
    rw [run_nil_eq_ok_iff.mp h]
    exact ⟨s, hd, (List.append_nil _).symm⟩
  | cons t steps ih =>
    obtain ⟨m, hm, hrest⟩ := run_cons_eq_ok_iff.mp h
    obtain ⟨ht, hlater⟩ := List.forall_mem_cons.mp hsteps
    have hedited : m.statements = earlier ++ [t.edit s] := by
      rw [statements_of_not_begins ht hm, hd, mapLast_concat]
    obtain ⟨s', hs', hattributes⟩ := ih hlater hedited hrest
    refine ⟨s', hs', ?_⟩
    rw [hattributes, attributes_edit, location_edit, List.append_assoc, List.filterMap_cons]
    cases t.attribute? s.location <;> rfl

/-! ## What stands in a document -/

/-- What a document holds after the given steps. The steps that belong to a statement are those
between the step that begins it and the next one that begins another. -/
structure Written (steps : List Step) (d : Document) : Prop where
  /-- There is a statement for each step that begins one. -/
  count : d.model.statements.length = steps.countP Step.begins
  /-- A statement has a line of its own, which all that belongs to it shares. -/
  places : ∀ (i : Nat) (s : Statement), d.model.statements[i]? = some s →
    ∀ n ∈ s.nodes, n.location = some ⟨(i + 1).toUInt64, 1⟩
  /-- A statement has the attributes of its steps, in their order. -/
  attributes : ∀ (before : List Step) (b : Step) (own after : List Step),
    steps = before ++ b :: (own ++ after) → b.begins = true →
    (∀ t ∈ own, t.begins = false) → (∀ t ∈ after.head?, t.begins = true) →
    ∃ s, d.model.statements[before.countP Step.begins]? = some s ∧
      s.attributes = own.filterMap
        (Step.attribute? (some ⟨(before.countP Step.begins + 1).toUInt64, 1⟩))
  /-- There is an error for each step that adds one. -/
  countErrors : d.syntaxDiagnostics.length = steps.countP Step.isSyntaxError
  /-- An error is on the line of the statement that was the last one when it was added. -/
  errors : ∀ (before : List Step) (message : String) (after : List Step),
    steps = before ++ .syntaxError message :: after →
    d.syntaxDiagnostics[before.countP Step.isSyntaxError]? =
      some { Diagnostic.error message with
        line := some (max 1 (before.countP Step.begins)).toUInt64, column := some 1 }

/-- What a step may change. -/
structure Advances (t : Step) (d d' : Draft) : Prop where
  /-- A step that begins a statement adds exactly one, and leaves the others. -/
  appended : t.begins = true → ∃ s, d'.statements = d.statements ++ [s]
  /-- Any other step leaves all statements but the last one. -/
  kept : t.begins = false →
    d'.statements.length = d.statements.length ∧
      d'.statements.dropLast = d.statements.dropLast
  /-- A path on the host is passed over unless the last statement is a deployment. -/
  passedOver : ∀ path, t = .source path →
    (∀ s, d.statements.getLast? ≠ some (.deployment s)) → d' = d

theorem advances_step (h : d.step t = .ok d') : Advances t d d' := by
  refine ⟨?_, ?_, ?_⟩
  · intro hb
    obtain ⟨s, -, hs⟩ := statements_of_begins hb h
    exact ⟨s, hs⟩
  · intro hb
    rw [statements_of_not_begins hb h]
    exact ⟨length_mapLast t.edit _, dropLast_mapLast t.edit _⟩
  · rintro path rfl hlast
    cases h
    have hsame : mapLast (setContent fun l => .path ⟨path, l⟩) d.statements = d.statements := by
      rcases mapLast_cases (setContent fun l => .path ⟨path, l⟩) d.statements with
        ⟨hnil, hnone⟩ | ⟨earlier, last, heq, hedited⟩
      · rw [hnone, hnil]
      · rw [heq, List.getLast?_concat] at hlast
        rw [hedited, heq]
        match last with
        | .attribute s => rfl
        | .deployment s => exact absurd rfl (hlast s)
    rw [hsame]

theorem placed_empty : ({} : Draft).Placed := by
  intro i s hi
  cases hi

theorem written_of_run (h : run {} steps = .ok d) (file : String) :
    Written steps (d.document file) := by
  refine ⟨?_, ?_, ?_, ?_, ?_⟩
  · exact (length_run_empty h).1
  · exact run_preserves Placed (fun _ _ _ hstep hd => hd.step hstep) h placed_empty
  · rintro before b own after rfl hb hown hafter
    obtain ⟨d₀, hbefore, hrest⟩ := run_append_eq_ok_iff.mp h
    obtain ⟨d₁, hstep, hrest⟩ := run_cons_eq_ok_iff.mp hrest
    obtain ⟨d₂, hwithin, hlater⟩ := run_append_eq_ok_iff.mp hrest
    obtain ⟨s, hbegun, hs⟩ := statements_of_begins hb hstep
    obtain ⟨s', hs', hattributes⟩ := run_within_statement hown hs hwithin
    obtain ⟨hcount, -⟩ := length_run_empty hbefore
    obtain ⟨later, hall⟩ := statements_prefix_run hafter hlater
    refine ⟨s', ?_, ?_⟩
    · have hmodel : (d.document file).model.statements = d.statements := rfl
      rw [hmodel, ← hall, hs', ← hcount, List.append_assoc,
        List.getElem?_append_right (Nat.le_refl _), Nat.sub_self]
      rfl
    · rw [hattributes, attributes_of_begun hbegun, (PlacedAt.of_begun hbegun).location, nextPlace,
        hcount]
      rfl
  · exact (length_run_empty h).2
  · rintro before message after rfl
    obtain ⟨d₀, hbefore, hrest⟩ := run_append_eq_ok_iff.mp h
    obtain ⟨d₁, hstep, hlater⟩ := run_cons_eq_ok_iff.mp hrest
    obtain ⟨hcount, hcountErrors⟩ := length_run_empty hbefore
    obtain ⟨later, hall⟩ := syntaxDiagnostics_prefix_run hlater
    have hdocument : (d.document file).syntaxDiagnostics = d.syntaxDiagnostics := rfl
    rw [hdocument, ← hall, syntaxDiagnostics_step hstep, ← hcount, ← hcountErrors,
      List.append_assoc, List.getElem?_append_right (Nat.le_refl _), Nat.sub_self]
    rfl

/-! ## When the steps cannot be taken -/

/-- An attribute is added before any statement is begun. -/
def AttributeFirst (steps : List Step) : Prop :=
  ∃ before t after, steps = before ++ t :: after ∧ t.addsAttribute = true ∧
    ∀ u ∈ before, u.begins = false

theorem not_attributeFirst_nil : ¬ AttributeFirst [] := by
  rintro ⟨before, t, after, h, -, -⟩
  cases before <;> cases h

theorem attributeFirst_cons_iff :
    AttributeFirst (t :: steps) ↔
      t.addsAttribute = true ∨ t.begins = false ∧ AttributeFirst steps := by
  constructor
  · rintro ⟨before, u, after, h, hu, hbefore⟩
    cases before with
    | nil =>
      cases h
      exact Or.inl hu
    | cons b before =>
      cases h
      obtain ⟨hb, hbefore⟩ := List.forall_mem_cons.mp hbefore
      exact Or.inr ⟨hb, before, u, after, rfl, hu, hbefore⟩
  · rintro (ht | ⟨ht, before, u, after, rfl, hu, hbefore⟩)
    · exact ⟨[], t, steps, rfl, ht, List.forall_mem_nil _⟩
    · exact ⟨t :: before, u, after, rfl, hu, List.forall_mem_cons.mpr ⟨ht, hbefore⟩⟩

/-- After a step there is no statement exactly if there was none and the step begins none. -/
theorem statements_step_eq_nil_iff (h : d.step t = .ok d') :
    d'.statements = [] ↔ d.statements = [] ∧ t.begins = false := by
  cases hb : t.begins with
  | true =>
    obtain ⟨s, -, hs⟩ := statements_of_begins hb h
    simp [hs]
  | false =>
    rw [statements_of_not_begins hb h, ← List.length_eq_zero_iff, length_mapLast,
      List.length_eq_zero_iff]
    exact (and_iff_left rfl).symm

theorem run_eq_error_iff {e : Error} :
    d.run steps = .error e ↔ d.statements = [] ∧ AttributeFirst steps := by
  induction steps generalizing d with
  | nil => exact iff_of_false nofun fun h => not_attributeFirst_nil h.2
  | cons t steps ih =>
    rw [attributeFirst_cons_iff]
    cases hstep : d.step t with
    | error e' =>
      obtain ⟨ht, hnil⟩ := step_eq_error_iff.mp hstep
      cases e
      cases e'
      refine iff_of_true ?_ ⟨hnil, Or.inl ht⟩
      rw [run_cons, hstep]
      rfl
    | ok m =>
      have hrun : d.run (t :: steps) = m.run steps := by
        rw [run_cons, hstep]
        rfl
      have hguard : ¬ (t.addsAttribute = true ∧ d.statements = []) := by
        intro h
        have herror : d.step t = .error .noStatement := step_eq_error_iff.mpr h
        rw [hstep] at herror
        cases herror
      rw [hrun, ih, statements_step_eq_nil_iff hstep]
      tauto

/-! ## The drafts on the way -/

theorem states_cons (d : Draft) (t : Step) (steps : List Step) :
    d.states (t :: steps) =
      (d.step t).bind fun m => (m.states steps).map fun later => d :: later := rfl

theorem states_eq_error_iff {e : Error} : d.states steps = .error e ↔ d.run steps = .error e := by
  induction steps generalizing d with
  | nil => exact iff_of_false nofun nofun
  | cons t steps ih =>
    rw [states_cons, run_cons]
    cases d.step t with
    | error e' => simp [Except.bind]
    | ok m =>
      have hm := ih (d := m)
      cases hlater : m.states steps with
      | error e' => simpa [Except.bind, Except.map, hlater] using hm
      | ok later => simpa [Except.bind, Except.map, hlater] using hm

/-- The drafts on the way are what the steps so far lead to. -/
theorem states_eq_ok {ds : List Draft} (h : d.states steps = .ok ds) :
    ds.length = steps.length + 1 ∧
      ∀ k m, ds[k]? = some m → d.run (steps.take k) = .ok m := by
  induction steps generalizing d ds with
  | nil =>
    cases h
    refine ⟨rfl, fun k m hk => ?_⟩
    cases k with
    | zero => cases hk; rfl
    | succ k => cases hk
  | cons t steps ih =>
    rw [states_cons] at h
    cases hstep : d.step t with
    | error e => rw [hstep] at h; cases h
    | ok next =>
      rw [hstep] at h
      cases hlater : next.states steps with
      | error e => simp [Except.bind, Except.map, hlater] at h
      | ok later =>
        obtain rfl : d :: later = ds := by simpa [Except.bind, Except.map, hlater] using h
        obtain ⟨hlength, hruns⟩ := ih hlater
        refine ⟨by rw [List.length_cons, hlength, List.length_cons], ?_⟩
        intro k m hk
        cases k with
        | zero => cases hk; rfl
        | succ k =>
          rw [List.take_succ_cons]
          exact run_cons_eq_ok_iff.mpr ⟨next, hstep, hruns k m hk⟩

/-- **Drafts.** The steps cannot be taken exactly if an attribute comes before any statement. If
they can, then after any number of them the document is what these steps say, and each step adds
one statement or changes at most the last one. -/
theorem document_follows_steps (steps : List Step) (file : String) :
    (states {} steps = .error .noStatement ↔ AttributeFirst steps) ∧
      (¬ AttributeFirst steps →
        ∃ ds, states {} steps = .ok ds ∧ ds.length = steps.length + 1 ∧
          (∀ k d, ds[k]? = some d →
            run {} (steps.take k) = .ok d ∧ Written (steps.take k) (d.document file)) ∧
          ∀ k d t d', ds[k]? = some d → steps[k]? = some t → ds[k + 1]? = some d' →
            Advances t d d') := by
  have herror : ∀ e, states {} steps = .error e ↔ AttributeFirst steps := fun e =>
    states_eq_error_iff.trans (run_eq_error_iff.trans (and_iff_right rfl))
  refine ⟨herror .noStatement, fun hsteps => ?_⟩
  cases hstates : states {} steps with
  | error e => exact absurd ((herror e).mp hstates) hsteps
  | ok ds =>
    obtain ⟨hlength, hruns⟩ := states_eq_ok hstates
    refine ⟨ds, rfl, hlength, ?_, ?_⟩
    · intro k d hk
      exact ⟨hruns k d hk, written_of_run (hruns k d hk) file⟩
    · intro k d t d' hk ht hk'
      have hnext := hruns (k + 1) d' hk'
      rw [List.take_add_one, ht, Option.toList_some, run_append_eq_ok_iff] at hnext
      obtain ⟨m, hm, hlast⟩ := hnext
      obtain rfl : m = d := Except.ok.inj (hm.symm.trans (hruns k d hk))
      obtain ⟨m', hstep, hnil⟩ := run_cons_eq_ok_iff.mp hlast
      rw [run_nil_eq_ok_iff.mp hnil]
      exact advances_step hstep

/-- Attributes of three statements, a path that is passed over, and an error in between. -/
def interrupted : List Step :=
  [.attributeStatement, .source "ksh", .valued "uid" "0", .assign "/bin/sh" "ksh",
    .valued "perms" "0755", .syntaxError "unexpected", .boolean "optional" false,
    .inline "/etc/motd" "hello"]

theorem document_follows_steps_interrupted :
    ¬ AttributeFirst interrupted ∧
      ∃ d, run {} interrupted = .ok d ∧
        (∃ s, d.model.statements[1]? = some s ∧
          s.attributes =
            [.valued ⟨"perms", "0755", some ⟨2, 1⟩⟩, .boolean ⟨"optional", false, some ⟨2, 1⟩⟩]) ∧
        d.syntaxDiagnostics[0]?.bind (·.line) = some 2 := by
  obtain ⟨herror, hwritten⟩ := document_follows_steps interrupted "motd.build"
  have hsteps : ¬ AttributeFirst interrupted := fun h => nomatch herror.mpr h
  obtain ⟨ds, -, hlength, hdocuments, -⟩ := hwritten hsteps
  obtain ⟨hrun, hdocument⟩ := hdocuments interrupted.length _
    (List.getElem?_eq_getElem (hlength ▸ Nat.lt_succ_self _))
  refine ⟨hsteps, _, hrun, ?_, ?_⟩
  · exact hdocument.attributes [.attributeStatement, .source "ksh", .valued "uid" "0"] _
      [.valued "perms" "0755", .syntaxError "unexpected", .boolean "optional" false] _ rfl rfl
      (by decide) (by decide)
  · have herrors := hdocument.errors
      [.attributeStatement, .source "ksh", .valued "uid" "0", .assign "/bin/sh" "ksh",
        .valued "perms" "0755"] "unexpected"
      [.boolean "optional" false, .inline "/etc/motd" "hello"] rfl
    exact congrArg (fun e => e.bind (·.line)) herrors

end Draft

end ImageLint
