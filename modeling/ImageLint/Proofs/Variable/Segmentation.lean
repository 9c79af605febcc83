import ImageLint.Variable.Reference
import Mathlib.Logic.ExistsUnique

/-!
# The one way to cut a text at its references

A text is `l₀ ${n₁} l₁ … ${nₖ} lₖ`, where each name is one that a reference may have and no place
of a literal text `lᵢ` begins a reference in what follows. There is exactly one way to write it so,
and the search for references and the substitution both go by it.

* `opens_cons_iff`: where a reference begins.
* `segments_text`: the segments of a text are those of any cut of it.
* `substitution_follows_cut`: the one cut of a text, its references and its substitution.
-/

namespace ImageLint.Variable

/-! ## Where a reference begins -/

/-- Whether a reference stands at the front of a text. -/
def Opens (cs : List Char) : Prop :=
  ∃ name rest, cs = referenceText name ++ rest ∧ name ≠ [] ∧ '\x7d' ∉ name

theorem takeReference_eq_none_iff {cs : List Char} : takeReference cs = none ↔ ¬ Opens cs := by
  rw [Option.eq_none_iff_forall_ne_some]
  constructor
  · rintro h ⟨name, rest, hcs⟩
    exact h (name, rest) (takeReference_eq_some_iff.mpr hcs)
  · rintro h ⟨name, rest⟩ hsome
    exact h ⟨name, rest, takeReference_eq_some_iff.mp hsome⟩

instance : DecidablePred Opens := fun cs =>
  decidable_of_iff (takeReference cs ≠ none) (by
    rw [ne_eq, takeReference_eq_none_iff, Classical.not_not])

/-- A reference begins with a dollar sign and an opening brace. A closing brace stands further on,
and not at once. -/
theorem opens_cons_iff {c : Char} {cs : List Char} :
    Opens (c :: cs) ↔
      c = '$' ∧ ∃ ds, cs = '\x7b' :: ds ∧ ds.head? ≠ some '\x7d' ∧ '\x7d' ∈ ds := by
  constructor
  · rintro ⟨name, rest, hcs, hne, hname⟩
    obtain ⟨d, name, rfl⟩ := List.exists_cons_of_ne_nil hne
    obtain ⟨rfl, rfl⟩ := List.cons.inj hcs
    refine ⟨rfl, d :: (name ++ '\x7d' :: rest), by simp, ?_, by simp⟩
    intro hhead
    obtain rfl := Option.some.inj hhead
    exact hname List.mem_cons_self
  · rintro ⟨rfl, ds, rfl, hhead, hds⟩
    obtain ⟨name, rest, rfl, hname⟩ := List.eq_append_cons_of_mem hds
    refine ⟨name, rest, by simp [referenceText], ?_, hname⟩
    rintro rfl
    exact hhead rfl

theorem segments_nil : segments [] = [] := by rw [segments]

theorem segments_literal {c : Char} {cs : List Char} (h : ¬ Opens (c :: cs)) :
    segments (c :: cs) = .literal c :: segments cs := by
  have hnone := takeReference_eq_none_iff.mpr h
  rw [segments]
  split
  · next hsome => rw [hnone] at hsome; cases hsome
  · rfl

theorem segments_reference {name : List Char} (hne : name ≠ []) (hname : '\x7d' ∉ name)
    (rest : List Char) :
    segments (referenceText name ++ rest) = .reference name :: segments rest := by
  have hsome : takeReference (referenceText name ++ rest) = some (name, rest) :=
    takeReference_eq_some_iff.mpr ⟨rfl, hne, hname⟩
  have hcons : referenceText name ++ rest = '$' :: '\x7b' :: (name ++ ['\x7d'] ++ rest) := rfl
  rw [hcons] at hsome ⊢
  rw [segments]
  split
  · next hsome' => rw [hsome] at hsome'; cases hsome'; rfl
  · next hnone => rw [hsome] at hnone; cases hnone

@[elab_as_elim]
theorem segments_induction {motive : List Char → Prop} (nil : motive [])
    (literal : ∀ c cs, ¬ Opens (c :: cs) → motive cs → motive (c :: cs))
    (reference : ∀ name rest, name ≠ [] → '\x7d' ∉ name → motive rest →
      motive (referenceText name ++ rest)) (cs : List Char) : motive cs := by
  fun_induction segments cs with
  | case1 => exact nil
  | case2 c cs name rest h ih =>
    obtain ⟨hcs, hne, hname⟩ := takeReference_eq_some_iff.mp h
    rw [hcs]
    exact reference name rest hne hname ih
  | case3 c cs h ih => exact literal c cs (takeReference_eq_none_iff.mp h) ih

theorem resolve_eq_elim (values : Values) (name : List Char) :
    resolve values name =
      (values (String.ofList name)).elim (referenceText name) String.toList := by
  unfold resolve
  cases values (String.ofList name) <;> rfl

/-! ## Cuts -/

/-- A text as `l₀ ${n₁} l₁ … ${nₖ} lₖ`. -/
inductive Cut where
  | last (l : List Char)
  | next (l name : List Char) (c : Cut)

namespace Cut

def text : Cut → List Char
  | last l => l
  | next l name c => l ++ (referenceText name ++ c.text)

def names : Cut → List (List Char)
  | last _ => []
  | next _ name c => name :: c.names

/-- The text with the values of the variables in the places of their references. -/
def filled (values : Values) : Cut → List Char
  | last l => l
  | next l name c =>
    l ++ ((values (String.ofList name)).elim (referenceText name) String.toList ++ c.filled values)

def segments : Cut → List Segment
  | last l => l.map .literal
  | next l name c => l.map .literal ++ .reference name :: c.segments

end Cut

/-- Whether no place of a literal text begins a reference when something follows the text. -/
def Quiet (l following : List Char) : Prop :=
  ∀ before after, l = before ++ after → after ≠ [] → ¬ Opens (after ++ following)

theorem quiet_nil (following : List Char) : Quiet [] following := by
  intro before after h hne
  exact absurd (List.append_eq_nil_iff.mp h.symm).2 hne

theorem quiet_cons {c : Char} {l following : List Char} :
    Quiet (c :: l) following ↔ ¬ Opens (c :: (l ++ following)) ∧ Quiet l following := by
  constructor
  · intro h
    refine ⟨h [] (c :: l) rfl (by simp), ?_⟩
    rintro before after rfl hne
    exact h (c :: before) after rfl hne
  · rintro ⟨hc, hl⟩ before after h hne
    cases before with
    | nil =>
      obtain rfl : c :: l = after := h
      exact hc
    | cons d before => exact hl before after (List.cons.inj h).2 hne

def decideQuiet (following : List Char) : (l : List Char) → Decidable (Quiet l following)
  | [] => .isTrue (quiet_nil following)
  | c :: l =>
    have := decideQuiet following l
    decidable_of_iff (¬ Opens (c :: (l ++ following)) ∧ Quiet l following) quiet_cons.symm

instance (l following : List Char) : Decidable (Quiet l following) := decideQuiet following l

/-- Whether the references of a cut are the leftmost ones of its text. -/
def Cut.IsLeftmost : Cut → Prop
  | last l => Quiet l []
  | next l name c =>
    Quiet l (referenceText name ++ c.text) ∧ name ≠ [] ∧ '\x7d' ∉ name ∧ c.IsLeftmost

def Cut.decideIsLeftmost : (c : Cut) → Decidable c.IsLeftmost
  | last l => inferInstanceAs (Decidable (Quiet l []))
  | next l name c =>
    have := c.decideIsLeftmost
    inferInstanceAs (Decidable
      (Quiet l (referenceText name ++ c.text) ∧ name ≠ [] ∧ '\x7d' ∉ name ∧ c.IsLeftmost))

instance (c : Cut) : Decidable c.IsLeftmost := c.decideIsLeftmost

/-! ## Cuts and segments -/

theorem segments_append_of_quiet {l following : List Char} (h : Quiet l following) :
    segments (l ++ following) = l.map .literal ++ segments following := by
  induction l with
  | nil => rfl
  | cons c l ih =>
    obtain ⟨hc, hl⟩ := quiet_cons.mp h
    rw [List.cons_append, segments_literal hc, ih hl]
    rfl

theorem segments_text {c : Cut} (h : c.IsLeftmost) : segments c.text = c.segments := by
  induction c with
  | last l =>
    have hl := segments_append_of_quiet (show Quiet l [] from h)
    rwa [segments_nil, List.append_nil, List.append_nil] at hl
  | next l name c ih =>
    obtain ⟨hl, hne, hname, hc⟩ := h
    show segments (l ++ (referenceText name ++ c.text)) = _
    rw [segments_append_of_quiet hl, segments_reference hne hname, ih hc]
    rfl

namespace Cut

def prepend (l : List Char) : Cut → Cut
  | last l' => last (l ++ l')
  | next l' name c => next (l ++ l') name c

def ofSegments : List Segment → Cut
  | [] => last []
  | .literal x :: gs => (ofSegments gs).prepend [x]
  | .reference name :: gs => next [] name (ofSegments gs)

theorem prepend_nil (c : Cut) : c.prepend [] = c := by cases c <;> rfl

theorem prepend_cons (x : Char) (l : List Char) (c : Cut) :
    c.prepend (x :: l) = (c.prepend l).prepend [x] := by
  cases c <;> rfl

theorem text_prepend (l : List Char) (c : Cut) : (c.prepend l).text = l ++ c.text := by
  cases c with
  | last l' => rfl
  | next l' name c => exact List.append_assoc l l' _

theorem isLeftmost_prepend {x : Char} {c : Cut} (hx : ¬ Opens (x :: c.text))
    (hc : c.IsLeftmost) : (c.prepend [x]).IsLeftmost := by
  cases c with
  | last l =>
    refine quiet_cons.mpr ⟨?_, hc⟩
    rwa [List.append_nil]
  | next l name c => exact ⟨quiet_cons.mpr ⟨hx, hc.1⟩, hc.2⟩

theorem ofSegments_literals (l : List Char) (gs : List Segment) :
    ofSegments (l.map .literal ++ gs) = (ofSegments gs).prepend l := by
  induction l with
  | nil => exact (prepend_nil _).symm
  | cons x l ih => exact (congrArg (prepend [x]) ih).trans (prepend_cons x l _).symm

theorem ofSegments_segments (c : Cut) : ofSegments c.segments = c := by
  induction c with
  | last l =>
    have h := ofSegments_literals l []
    rw [List.append_nil] at h
    exact h.trans (congrArg last l.append_nil)
  | next l name c ih =>
    have hliterals := ofSegments_literals l (.reference name :: c.segments)
    rw [ofSegments, ih] at hliterals
    exact hliterals.trans (congrArg (next · name c) l.append_nil)

theorem text_ofSegments (gs : List Segment) : (ofSegments gs).text = gs.flatMap Segment.text := by
  induction gs with
  | nil => rfl
  | cons g gs ih =>
    cases g with
    | literal x => exact (text_prepend [x] _).trans (congrArg (x :: ·) ih)
    | reference name => exact congrArg (referenceText name ++ ·) ih

theorem isLeftmost_ofSegments (cs : List Char) : (ofSegments (Variable.segments cs)).IsLeftmost := by
  induction cs using segments_induction with
  | nil =>
    rw [segments_nil]
    exact quiet_nil []
  | literal x cs h ih =>
    rw [segments_literal h]
    apply isLeftmost_prepend ?_ ih
    rwa [text_ofSegments, flatMap_text_segments]
  | reference name rest hne hname ih =>
    rw [segments_reference hne hname]
    exact ⟨quiet_nil _, hne, hname, ih⟩

/-! ## What is read off a cut -/

theorem filterMap_name?_segments (c : Cut) : c.segments.filterMap Segment.name? = c.names := by
  have hliterals (l : List Char) : (l.map Segment.literal).filterMap Segment.name? = [] := by
    rw [List.filterMap_map, List.filterMap_eq_nil_iff]
    intro x _
    rfl
  induction c with
  | last l => exact hliterals l
  | next l name c ih =>
    show (l.map Segment.literal ++ .reference name :: c.segments).filterMap Segment.name? = _
    have hname : (Segment.reference name).name? = some name := rfl
    rw [List.filterMap_append, hliterals, List.filterMap_cons_some hname, ih]
    rfl

theorem flatMap_expand_segments (values : Values) (c : Cut) :
    c.segments.flatMap (Segment.expand values) = c.filled values := by
  have hliterals (l : List Char) :
      (l.map Segment.literal).flatMap (Segment.expand values) = l := by
    rw [List.flatMap_map]
    exact List.flatMap_singleton' l
  induction c with
  | last l => exact hliterals l
  | next l name c ih =>
    show (l.map Segment.literal ++ .reference name :: c.segments).flatMap _ = _
    have hexpand : Segment.expand values (.reference name) = resolve values name := rfl
    rw [List.flatMap_append, hliterals, List.flatMap_cons, ih, hexpand, resolve_eq_elim]
    rfl

theorem filled_of_unknown {values : Values} {c : Cut}
    (h : ∀ name ∈ c.names, values (String.ofList name) = none) : c.filled values = c.text := by
  induction c with
  | last l => rfl
  | next l name c ih =>
    obtain ⟨hname, hc⟩ := List.forall_mem_cons.mp h
    unfold filled text
    rw [hname, ih hc]
    rfl

/-- Whether a cut is one of a text, at its leftmost references. -/
structure IsCutOf (c : Cut) (s : String) : Prop where
  text : c.text = s.toList
  leftmost : c.IsLeftmost

variable {c : Cut} {s : String}

theorem isCutOf_ofSegments (s : String) : (ofSegments (Variable.segments s.toList)).IsCutOf s where
  text := by rw [text_ofSegments, flatMap_text_segments]
  leftmost := isLeftmost_ofSegments s.toList

theorem IsCutOf.segments_eq (h : c.IsCutOf s) : Variable.segments s.toList = c.segments := by
  rw [← h.text, segments_text h.leftmost]

theorem IsCutOf.eq_ofSegments (h : c.IsCutOf s) :
    c = ofSegments (Variable.segments s.toList) := by
  rw [h.segments_eq, ofSegments_segments]

theorem IsCutOf.references_eq (h : c.IsCutOf s) : references s = c.names.map String.ofList := by
  unfold references referencesList
  rw [h.segments_eq, filterMap_name?_segments]

theorem IsCutOf.substitute_eq (h : c.IsCutOf s) (values : Values) :
    substitute values s = String.ofList (c.filled values) := by
  unfold substitute substituteList
  rw [h.segments_eq, flatMap_expand_segments]

theorem IsCutOf.substitute_of_unknown (h : c.IsCutOf s) {values : Values}
    (hunknown : ∀ name ∈ c.names, values (String.ofList name) = none) :
    substitute values s = s := by
  rw [h.substitute_eq, filled_of_unknown hunknown, h.text, String.ofList_toList]

end Cut

/-- **Substitution goes by the one cut of a text.** A text can be cut at its leftmost references in
exactly one way. Its references are the names of this cut, and a substitution writes the values of
the variables, as they are, in the places of their references, and nothing else. -/
theorem substitution_follows_cut (s : String) :
    (∃! c : Cut, c.IsCutOf s) ∧ ∀ c : Cut, c.IsCutOf s →
      references s = c.names.map String.ofList ∧
      ∀ values : Values,
        substitute values s = String.ofList (c.filled values) ∧
        ((∀ name ∈ c.names, values (String.ofList name) = none) → substitute values s = s) := by
  refine ⟨⟨_, Cut.isCutOf_ofSegments s, fun c hc => hc.eq_ofSegments⟩, ?_⟩
  intro c hc
  exact ⟨hc.references_eq, fun values => ⟨hc.substitute_eq values, hc.substitute_of_unknown⟩⟩

/-! ## A text with stray signs -/

/-- A text with empty braces, a dollar sign before a reference, a reference with an opening in its
name, and an opening that nothing closes. -/
def strayText : String := "$\x7b\x7d$$\x7ba\x7d-$\x7bb$\x7bc\x7d$\x7b"

def strayCut : Cut :=
  .next ['$', '\x7b', '\x7d', '$'] ['a'] (.next ['-'] ['b', '$', '\x7b', 'c'] (.last ['$', '\x7b']))

/-- Two variables, one of them with a value that looks like a reference to the other. -/
def strayValues : Values := fun name => [("a", "$\x7bc\x7d"), ("c", "x")].lookup name

theorem isCutOf_strayCut : strayCut.IsCutOf strayText where
  text := by decide
  leftmost := by decide

theorem substitution_follows_cut_stray :
    strayCut.IsCutOf strayText ∧ references strayText = ["a", "b$\x7bc"] ∧
      substitute strayValues strayText = "$\x7b\x7d$$\x7bc\x7d-$\x7bb$\x7bc\x7d$\x7b" ∧
      (∀ name ∈ strayCut.names, (fun _ => none : Values) (String.ofList name) = none) ∧
      substitute (fun _ => none) strayText = strayText := by
  obtain ⟨hnames, hvalues⟩ := (substitution_follows_cut strayText).2 strayCut isCutOf_strayCut
  refine ⟨isCutOf_strayCut, ?_, ?_, fun _ _ => rfl, (hvalues fun _ => none).2 fun _ _ => rfl⟩
  · rw [hnames]
    decide
  · rw [(hvalues strayValues).1]
    decide

end ImageLint.Variable
