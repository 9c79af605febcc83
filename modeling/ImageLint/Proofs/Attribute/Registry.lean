import ImageLint.Attribute.Rules
import ImageLint.Proofs.Model.Walk
import ImageLint.Proofs.Suggestion.Ranking
import Mathlib.Data.List.Basic
import Mathlib.Data.List.Induction

/-!
# Attributes against a registry

A model is checked against the built-in formats and any that were inserted after them. Here the
findings are told attribute by attribute: which ones are to be reported, by the tables of names and by
the format that counts, and what is said about each.

* `get?_extended`: the format that counts for a name.
* `checkAttribute_eq_some_iff`: what is said about an attribute.
* `findings_of_registry`: the findings of a model, for every registry.
-/

namespace ImageLint

/-! ## Attributes in the order of a walk -/

def Node.attribute? : Node → Option Attribute
  | .booleanAttribute a => some (.boolean a)
  | .valuedAttribute a => some (.valued a)
  | _ => none

/-- The attributes of a model, in the order in which a walk visits them. -/
def Model.attributes (m : Model) : List Attribute := m.nodes.filterMap Node.attribute?

/-! ## Names -/

namespace Keyword

/-- Both lists together have the names of each. -/
theorem mem_union {as bs : List String} {name : String} : name ∈ union as bs ↔ name ∈ as ++ bs := by
  unfold union
  rw [Suggestion.mem_eraseReps, List.mem_mergeSort]

end Keyword

namespace Attribute

def location : Attribute → Option Location
  | .boolean a => a.location
  | .valued a => a.location

/-- What an attribute of its kind is called. -/
def kindName : Attribute → String
  | .boolean _ => "BooleanAttribute"
  | .valued _ => "ValuedAttribute"

/-- The names for attributes of its kind, as the two builders list them. -/
def tables : Attribute → List String
  | .boolean _ => Keyword.mkifsBoolean ++ Keyword.mkqnx6fsBoolean
  | .valued _ => Keyword.mkifsValued ++ Keyword.mkqnx6fsValued

/-- The names from which suggestions for attributes of its kind are taken. -/
def vocabulary : Attribute → List String
  | .boolean _ => Keyword.boolean
  | .valued _ => Keyword.valued

/-- Neither builder knows the name for an attribute of this kind. -/
def IsUnknown (a : Attribute) : Prop := a.name ∉ a.tables

instance (a : Attribute) : Decidable a.IsUnknown := inferInstanceAs (Decidable (_ ∉ _))

/-- Suggestions are taken from the very names that are known. -/
theorem mem_vocabulary {a : Attribute} {name : String} : name ∈ a.vocabulary ↔ name ∈ a.tables := by
  cases a <;> exact Keyword.mem_union

/-- Something may have been meant by a name exactly if a known name of its kind is near enough. -/
theorem nearest_vocabulary_ne_nil_iff {a : Attribute} :
    Suggestion.nearest a.name a.vocabulary ≠ [] ↔
      ∃ name ∈ a.tables, Suggestion.distance a.name name ≤ Suggestion.maxDistance := by
  rw [Ne, Suggestion.nearest_eq_nil_iff]
  simp only [mem_vocabulary, not_forall, Nat.not_lt, exists_prop]

theorem isUnknown_boolean_iff {a : BooleanAttribute} :
    (boolean a).IsUnknown ↔ Keyword.isBoolean a.name = false := by
  unfold IsUnknown Keyword.isBoolean
  rw [Bool.or_eq_false_iff]
  simp [tables, name]

theorem isUnknown_valued_iff {a : ValuedAttribute} :
    (valued a).IsUnknown ↔ Keyword.isValued a.name = false := by
  unfold IsUnknown Keyword.isValued
  rw [Bool.or_eq_false_iff]
  simp [tables, name]

end Attribute

namespace AttributeRules

/-! ## The registry -/

/-- The built-in formats with others inserted one after another. -/
def extended (inserted : List (String × ValueRule)) : AttributeRules :=
  inserted.foldl (fun rules p => rules.insert p.1 p.2) builtIn

/-- The format that counts for a name: the one inserted last for it, or else the built-in one. -/
def ruleFor (inserted : List (String × ValueRule)) (name : String) : Option ValueRule :=
  match (inserted.filter (·.1 = name)).getLast? with
  | some p => some p.2
  | none => builtIn.get? name

variable {inserted : List (String × ValueRule)}

theorem extended_concat (inserted : List (String × ValueRule)) (name : String) (rule : ValueRule) :
    extended (inserted ++ [(name, rule)]) = (extended inserted).insert name rule :=
  List.foldl_append

theorem get?_insert (rules : AttributeRules) (name : String) (rule : ValueRule) (other : String) :
    (rules.insert name rule).get? other = if other = name then some rule else rules.get? other := by
  unfold get? insert
  rw [List.lookup_cons]
  by_cases h : other = name
  · simp [h]
  · simp [h, beq_false_of_ne h]

theorem get?_extended (inserted : List (String × ValueRule)) (name : String) :
    (extended inserted).get? name = ruleFor inserted name := by
  induction inserted using List.reverseRecOn with
  | nil => rfl
  | append_singleton inserted p ih =>
    obtain ⟨own, rule⟩ := p
    rw [extended_concat, get?_insert, ih]
    unfold ruleFor
    rw [List.filter_append]
    by_cases h : name = own
    · subst h
      simp
    · simp [h, Ne.symm h]

/-! ## Findings -/

/-- An attribute that is to be reported. -/
def Offends (inserted : List (String × ValueRule)) : Attribute → Prop
  | .boolean a => a.name ∉ Keyword.mkifsBoolean ++ Keyword.mkqnx6fsBoolean
  | .valued a => a.name ∉ Keyword.mkifsValued ++ Keyword.mkqnx6fsValued ∨
      ∃ rule ∈ ruleFor inserted a.name, rule.isValid a.value = false

/-- What is said about an unknown name, whatever was inserted for it. -/
def unknownFinding (a : Attribute) : Diagnostic where
  level := .error
  message := "Unknown " ++ a.kindName ++ " \"" ++ a.name ++ "\""
  code := some "invalidName"
  line := a.location.map (·.line)
  column := a.location.map (·.column)
  suggestion :=
    let names := Suggestion.nearest a.name a.vocabulary
    if names = [] then none else some ("did you mean " ++ Text.join ", " names ++ "?")

/-- What is said about a value that the format of its attribute rejects. -/
def formatFinding (rule : ValueRule) (a : ValuedAttribute) : Diagnostic where
  level := rule.rule.level
  message := "Wrong format \"" ++ a.value ++ "\" for " ++ a.name ++ " (" ++ rule.expected ++ ")"
  code := some rule.rule.code
  line := a.location.map (·.line)
  column := a.location.map (·.column)
  context := some (a.name ++ "=" ++ a.value)

/-- The finding is what there is to say about the attribute. -/
inductive Reports (inserted : List (String × ValueRule)) : Attribute → Diagnostic → Prop where
  | unknown {a : Attribute} (h : a.IsUnknown) : Reports inserted a (unknownFinding a)
  | format {a : ValuedAttribute} {rule : ValueRule} (known : ¬ (Attribute.valued a).IsUnknown)
      (counts : rule ∈ ruleFor inserted a.name) (rejected : rule.isValid a.value = false) :
      Reports inserted (.valued a) (formatFinding rule a)

theorem unknownName_eq (a : Attribute) :
    unknownName a.kindName a.name a.location a.vocabulary = unknownFinding a := by
  unfold unknownName withSuggestion unknownFinding
  split
  · next h =>
    rw [h]
    cases a.location <;> rfl
  · next hne =>
    rw [if_neg hne]
    cases a.location <;> rfl

theorem wrongFormat_eq (rule : ValueRule) (a : ValuedAttribute) :
    wrongFormat rule a = formatFinding rule a := by
  unfold wrongFormat formatFinding
  cases a.location <;> rfl

theorem checkAttribute_of_isUnknown {a : Attribute} (h : a.IsUnknown) (rules : AttributeRules) :
    rules.checkAttribute a = some (unknownFinding a) := by
  rw [← unknownName_eq]
  cases a with
  | boolean a =>
    have hname : ¬ Keyword.isBoolean a.name = true := by
      simp [Attribute.isUnknown_boolean_iff.mp h]
    exact if_neg hname
  | valued a =>
    have hname : ¬ Keyword.isValued a.name = true := by
      simp [Attribute.isUnknown_valued_iff.mp h]
    exact if_neg hname

theorem checkAttribute_boolean {a : BooleanAttribute} (h : ¬ (Attribute.boolean a).IsUnknown)
    (rules : AttributeRules) : rules.checkAttribute (.boolean a) = none := by
  rw [Attribute.isUnknown_boolean_iff, Bool.not_eq_false] at h
  exact if_pos h

theorem checkAttribute_valued {a : ValuedAttribute} (h : ¬ (Attribute.valued a).IsUnknown)
    (rules : AttributeRules) : rules.checkAttribute (.valued a) =
      (rules.get? a.name).bind fun rule =>
        if rule.isValid a.value then none else some (formatFinding rule a) := by
  rw [Attribute.isUnknown_valued_iff, Bool.not_eq_false] at h
  unfold checkAttribute checkValued
  dsimp only
  rw [if_pos h]
  cases rules.get? a.name with
  | none => rfl
  | some rule => simp only [wrongFormat_eq, Option.bind_some]

theorem checkAttribute_eq_some_iff {a : Attribute} {d : Diagnostic} :
    (extended inserted).checkAttribute a = some d ↔ Reports inserted a d := by
  by_cases hname : a.IsUnknown
  · rw [checkAttribute_of_isUnknown hname]
    constructor
    · rintro ⟨⟩
      exact .unknown hname
    · rintro (_ | ⟨known, -, -⟩)
      · rfl
      · exact absurd hname known
  · cases a with
    | boolean a =>
      rw [checkAttribute_boolean hname]
      constructor
      · nofun
      · rintro (h | _)
        exact absurd h hname
    | valued a =>
      rw [checkAttribute_valued hname, get?_extended, Option.bind_eq_some_iff]
      constructor
      · rintro ⟨rule, hrule, h⟩
        split at h
        · cases h
        · next hvalue =>
          cases h
          exact .format hname hrule (Bool.not_eq_true _ ▸ hvalue)
      · rintro (h | ⟨known, counts, rejected⟩)
        · exact absurd h hname
        · exact ⟨_, counts, by rw [rejected]; rfl⟩

/-- Something is said about exactly the attributes that are to be reported. -/
theorem offends_iff {a : Attribute} : Offends inserted a ↔ ∃ d, Reports inserted a d := by
  constructor
  · intro h
    by_cases hname : a.IsUnknown
    · exact ⟨_, .unknown hname⟩
    · cases a with
      | boolean a => exact absurd h hname
      | valued a =>
        obtain ⟨rule, hrule, hvalue⟩ := h.resolve_left hname
        exact ⟨_, .format hname hrule hvalue⟩
  · rintro ⟨d, hname | ⟨-, counts, rejected⟩⟩
    · cases a with
      | boolean a => exact hname
      | valued a => exact Or.inl hname
    · exact Or.inr ⟨_, counts, rejected⟩

instance : DecidablePred (Offends inserted) := fun a =>
  decidable_of_iff (((extended inserted).checkAttribute a).isSome = true) (by
    rw [offends_iff, Option.isSome_iff_exists]
    simp only [checkAttribute_eq_some_iff])

/-! ## The findings of a model -/

/-- The findings of a model, each with the attribute that it is about. -/
def findings (rules : AttributeRules) (m : Model) : List (Attribute × Diagnostic) :=
  m.attributes.filterMap fun a => (rules.checkAttribute a).map (a, ·)

/-- A walk adds the findings of the attributes one after another. -/
theorem checkModel_eq (rules : AttributeRules) (m : Model) :
    rules.checkModel m = m.attributes.filterMap rules.checkAttribute := by
  have hvisit (n : Node) (found : List Diagnostic) : rules.visitor.visit n found =
      found ++ (n.attribute?.bind rules.checkAttribute).toList := by
    cases n <;> simp [visitor, Visitor.visit, Node.attribute?, checkAttribute]
  unfold checkModel Model.attributes
  rw [Model.walk_eq, Visitor.visitAll_of_append hvisit, List.filterMap_filterMap,
    List.filterMap_eq_flatMap_toList]
  rfl

theorem checkModel_eq_map_findings (rules : AttributeRules) (m : Model) :
    rules.checkModel m = (rules.findings m).map (·.2) := by
  unfold findings
  rw [checkModel_eq, List.map_filterMap]
  refine List.filterMap_congr fun a _ => ?_
  cases rules.checkAttribute a <;> rfl

theorem map_fst_findings (m : Model) :
    ((extended inserted).findings m).map (·.1) = m.attributes.filter (Offends inserted) := by
  unfold findings
  rw [List.map_filterMap, ← List.filterMap_eq_filter]
  refine List.filterMap_congr fun a _ => ?_
  have hoffends : Offends inserted a ↔ ∃ d, (extended inserted).checkAttribute a = some d := by
    rw [offends_iff]
    simp only [checkAttribute_eq_some_iff]
  cases hcheck : (extended inserted).checkAttribute a <;> simp [Option.guard, hoffends, hcheck]

theorem reports_of_mem_findings {m : Model} {p : Attribute × Diagnostic}
    (hp : p ∈ (extended inserted).findings m) : Reports inserted p.1 p.2 := by
  obtain ⟨a, -, h⟩ := List.mem_filterMap.mp hp
  obtain ⟨d, hd, rfl⟩ := Option.map_eq_some_iff.mp h
  exact checkAttribute_eq_some_iff.mp hd

/-- An inserted format is not asked about attributes with other names. -/
theorem checkAttribute_insert {a : Attribute} {name : String} (h : a.name ≠ name)
    (rules : AttributeRules) (rule : ValueRule) :
    (rules.insert name rule).checkAttribute a = rules.checkAttribute a := by
  by_cases hname : a.IsUnknown
  · rw [checkAttribute_of_isUnknown hname, checkAttribute_of_isUnknown hname]
  · cases a with
    | boolean a => rw [checkAttribute_boolean hname, checkAttribute_boolean hname]
    | valued a =>
      have hother : a.name ≠ name := h
      rw [checkAttribute_valued hname, checkAttribute_valued hname, get?_insert, if_neg hother]

theorem filter_findings_insert (rules : AttributeRules) (m : Model) (name : String)
    (rule : ValueRule) : ((rules.insert name rule).findings m).filter (·.1.name ≠ name) =
      (rules.findings m).filter (·.1.name ≠ name) := by
  unfold findings
  rw [List.filter_filterMap, List.filter_filterMap]
  refine List.filterMap_congr fun a _ => ?_
  by_cases ha : a.name = name
  · have hnone (d : Option Diagnostic) :
        (d.map (a, ·)).filter (fun p => decide (p.1.name ≠ name)) = none := by
      cases d with
      | none => rfl
      | some d => exact if_neg (by simp [ha])
    rw [hnone, hnone]
  · rw [checkAttribute_insert ha]

theorem level_of_builtIn {name : String} {rule : ValueRule} (h : builtIn.get? name = some rule) :
    rule.rule.level = .error := by
  have hall : ∀ p ∈ builtIn.entries, p.2.rule.level = .error := by decide
  obtain ⟨before, after, hentries, -⟩ := List.lookup_eq_some_iff.mp h
  exact hall (name, rule) (by rw [hentries]; simp)

theorem ruleFor_cases {name : String} {rule : ValueRule} (h : rule ∈ ruleFor inserted name) :
    (name, rule) ∈ inserted ∨ builtIn.get? name = some rule := by
  unfold ruleFor at h
  split at h
  · next p hlast =>
    obtain ⟨own, r⟩ := p
    obtain rfl := Option.some.inj h
    obtain ⟨hmem, hname⟩ := List.mem_filter.mp (List.mem_of_getLast? hlast)
    obtain rfl : own = name := of_decide_eq_true hname
    exact Or.inl hmem
  · exact Or.inr h

/-- A finding is at the place of its attribute. -/
theorem place_of_reports {a : Attribute} {d : Diagnostic} (h : Reports inserted a d) :
    d.line = a.location.map (·.line) ∧ d.column = a.location.map (·.column) := by
  cases h <;> exact ⟨rfl, rfl⟩

theorem suggestion_of_reports {a : Attribute} {d : Diagnostic} (h : Reports inserted a d)
    (hname : a.IsUnknown) :
    d.suggestion ≠ none ↔ Suggestion.nearest a.name a.vocabulary ≠ [] := by
  cases h with
  | unknown =>
    show ite _ none (some _) ≠ none ↔ _
    split <;> simp_all
  | format known => exact absurd hname known

/-- Only a format that was inserted with a rule of another severity makes no error. -/
theorem level_of_reports {a : Attribute} {d : Diagnostic} (h : Reports inserted a d)
    (herror : ∀ rule, (a.name, rule) ∈ inserted → rule.rule.level = .error) : d.level = .error := by
  cases h with
  | unknown => rfl
  | format known counts rejected =>
    rcases ruleFor_cases counts with hmem | hbuilt
    · exact herror _ hmem
    · exact level_of_builtIn hbuilt

/-- **The findings of attributes for every registry.** Take the built-in formats and any others that
are inserted after them. A walk finds exactly one thing about each attribute that is to be reported,
in its order and at its place, and nothing about any other one. An unknown name is an error whatever
was inserted for it, and it comes with a suggestion exactly if there is a known name of its kind that
is near enough. A rejected value is reported under the rule of the format that counts and at the
severity of that rule, which is an error unless another rule was inserted. An insertion changes no
finding about another name. -/
theorem findings_of_registry (inserted : List (String × ValueRule)) (m : Model) :
    let found := (extended inserted).findings m
    (extended inserted).checkModel m = found.map (·.2) ∧
      found.map (·.1) = m.attributes.filter (Offends inserted) ∧
      (∀ p ∈ found, Reports inserted p.1 p.2 ∧
        (p.2.line = p.1.location.map (·.line) ∧ p.2.column = p.1.location.map (·.column)) ∧
        (p.1.IsUnknown → (p.2.suggestion ≠ none ↔
          Suggestion.nearest p.1.name p.1.vocabulary ≠ [])) ∧
        ((∀ rule, (p.1.name, rule) ∈ inserted → rule.rule.level = .error) →
          p.2.level = .error)) ∧
      ∀ name rule, ((extended (inserted ++ [(name, rule)])).findings m).filter (·.1.name ≠ name) =
        found.filter (·.1.name ≠ name) := by
  intro found
  refine ⟨checkModel_eq_map_findings _ m, map_fst_findings m, ?_, ?_⟩
  · intro p hp
    have hreports : Reports inserted p.1 p.2 := reports_of_mem_findings hp
    exact ⟨hreports, place_of_reports hreports, suggestion_of_reports hreports,
      level_of_reports hreports⟩
  · intro name rule
    rw [extended_concat]
    exact filter_findings_insert _ m name rule

/-! ## Formats with rules of other kinds -/

/-- Two formats that reject every value. The rule of the first one only warns, and the rule of the
second one is that of unknown names. -/
def laxRules : List (String × ValueRule) := [
  ("cd", ⟨.duplicatePath, "nothing", fun _ => false⟩),
  ("ram", ⟨.invalidName, "nothing", fun _ => false⟩)]

def cdAttribute : ValuedAttribute := ⟨"cd", "/x", some ⟨1, 2⟩⟩

def ramAttribute : ValuedAttribute := ⟨"ram", "1", none⟩

/-- An attribute whose name is not known. -/
def ramnAttribute : ValuedAttribute := ⟨"ramn", "1", some ⟨1, 20⟩⟩

def laxModel : Model := ⟨[.attribute
  ⟨some ⟨[.valued cdAttribute, .valued ramAttribute, .valued ramnAttribute], none⟩, none⟩]⟩

/-- Not every finding is an error, and not every finding under the rule of unknown names has a
suggestion where there is a name that may have been meant. -/
theorem laxRules_warn :
    ¬ (∀ d ∈ (extended laxRules).checkModel laxModel, d.level = .error) ∧
      ¬ (∀ p ∈ (extended laxRules).findings laxModel, p.2.code = some "invalidName" →
        (p.2.suggestion ≠ none ↔ Suggestion.nearest p.1.name p.1.vocabulary ≠ [])) := by
  constructor
  · intro h
    have hwarned : (extended laxRules).checkAttribute (.valued cdAttribute) =
        some (formatFinding ⟨.duplicatePath, "nothing", fun _ => false⟩ cdAttribute) := rfl
    have hlevel := h _ (by
      rw [checkModel_eq]
      exact List.mem_filterMap.mpr ⟨_, by decide, hwarned⟩)
    cases hlevel
  · intro h
    have hrejected : (extended laxRules).checkAttribute (.valued ramAttribute) =
        some (formatFinding ⟨.invalidName, "nothing", fun _ => false⟩ ramAttribute) := rfl
    have hsuggested := h (.valued ramAttribute, _)
      (List.mem_filterMap.mpr ⟨.valued ramAttribute, by decide, by rw [hrejected]; rfl⟩) rfl
    refine hsuggested.mpr ?_ rfl
    rw [Attribute.nearest_vocabulary_ne_nil_iff]
    exact ⟨"ram", by decide, by decide⟩

theorem findings_of_registry_unknown :
    ∃ p ∈ (extended laxRules).findings laxModel, p.1 = .valued ramnAttribute ∧
      p.2.level = .error ∧ p.2.suggestion ≠ none := by
  have hname : (Attribute.valued ramnAttribute).IsUnknown := by decide
  have hfound : (.valued ramnAttribute, unknownFinding (.valued ramnAttribute)) ∈
      (extended laxRules).findings laxModel :=
    List.mem_filterMap.mpr
      ⟨.valued ramnAttribute, by decide, by rw [checkAttribute_of_isUnknown hname]; rfl⟩
  have hnear : Suggestion.nearest (Attribute.valued ramnAttribute).name
      (Attribute.valued ramnAttribute).vocabulary ≠ [] := by
    rw [Attribute.nearest_vocabulary_ne_nil_iff]
    exact ⟨"ram", by decide, by decide⟩
  have hnone : ∀ rule, ("ramn", rule) ∈ laxRules → rule.rule.level = .error := by
    simp [laxRules]
  obtain ⟨-, -, hall, -⟩ := findings_of_registry laxRules laxModel
  obtain ⟨-, -, hsuggestion, hlevel⟩ := hall _ hfound
  exact ⟨_, hfound, rfl, hlevel hnone, (hsuggestion hname).mpr hnear⟩

end AttributeRules

end ImageLint
