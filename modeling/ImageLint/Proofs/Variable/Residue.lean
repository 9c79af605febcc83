import ImageLint.Proofs.Variable.Segmentation

/-!
# What a substitution leaves behind

A value that is not empty and holds none of the signs of a reference cannot join the text around it
to a new reference. Then the references that are left are those without a value. A reference to a
variable with a value may all the same be left in the text: the search takes an opening up to the
next closing brace, so that a reference behind an opening that nothing closes is taken for a part of
a name.

* `segments_substituteList`: the segments of a text after a substitution.
* `exact_residue`: the references that a substitution leaves.
* `segments_append`: where a text can be cut in two.
* `known_reference_survives_iff`: which references to variables with a value are replaced.
-/

namespace ImageLint.Variable

/-! ## Seams -/

/-- A text that cannot be part of a reference together with what stands around it. -/
structure Inert (s : String) : Prop where
  ne_nil : s.toList ≠ []
  no_dollar : '$' ∉ s.toList
  no_opening : '\x7b' ∉ s.toList
  no_closing : '\x7d' ∉ s.toList

variable {values : Values}

theorem substituteList_nil : substituteList values [] = [] := by
  unfold substituteList
  rw [segments_nil]
  rfl

theorem substituteList_literal {c : Char} {cs : List Char} (h : ¬ Opens (c :: cs)) :
    substituteList values (c :: cs) = c :: substituteList values cs := by
  unfold substituteList
  rw [segments_literal h]
  rfl

theorem substituteList_reference {name : List Char} (hne : name ≠ []) (hname : '\x7d' ∉ name)
    (rest : List Char) :
    substituteList values (referenceText name ++ rest) =
      resolve values name ++ substituteList values rest := by
  unfold substituteList
  rw [segments_reference hne hname]
  rfl

theorem referencesList_literal {c : Char} {cs : List Char} (h : ¬ Opens (c :: cs)) :
    referencesList (c :: cs) = referencesList cs := by
  unfold referencesList
  rw [segments_literal h]
  rfl

theorem referencesList_reference {name : List Char} (hne : name ≠ []) (hname : '\x7d' ∉ name)
    (rest : List Char) :
    referencesList (referenceText name ++ rest) = name :: referencesList rest := by
  unfold referencesList
  rw [segments_reference hne hname]
  rfl

theorem substituteList_of_not_mem {cs : List Char} (h : '\x7d' ∉ cs) :
    substituteList values cs = cs := by
  induction cs using segments_induction with
  | nil => exact substituteList_nil
  | literal c cs hc ih =>
    rw [substituteList_literal hc, ih (fun hmem => h (List.mem_cons_of_mem c hmem))]
  | reference name rest hne hname ih =>
    exact absurd (by simp [referenceText]) h

/-- Whether the values for the references of a text are inert. -/
def InertFor (values : Values) (cs : List Char) : Prop :=
  ∀ name ∈ referencesList cs, ∀ v, values (String.ofList name) = some v → Inert v

/-- An opening brace at the front has not come from a value. -/
theorem exists_of_substituteList_eq_cons {cs out : List Char} (hv : InertFor values cs)
    (h : substituteList values cs = '\x7b' :: out) :
    ∃ cs', cs = '\x7b' :: cs' ∧ substituteList values cs' = out := by
  cases cs using segments_induction with
  | nil =>
    rw [substituteList_nil] at h
    cases h
  | literal c cs hc _ =>
    rw [substituteList_literal hc] at h
    obtain ⟨rfl, hout⟩ := List.cons.inj h
    exact ⟨cs, rfl, hout⟩
  | reference name rest hne hname _ =>
    exfalso
    rw [substituteList_reference hne hname] at h
    unfold resolve at h
    split at h
    · next v hvalue =>
      have hinert := hv name (by rw [referencesList_reference hne hname]; exact List.mem_cons_self)
        v hvalue
      obtain ⟨d, ds, hd⟩ := List.exists_cons_of_ne_nil hinert.ne_nil
      have hopening := hinert.no_opening
      rw [hd] at h hopening
      obtain ⟨rfl, -⟩ := List.cons.inj h
      exact hopening List.mem_cons_self
    · cases h

/-- A place that begins no reference begins none when what follows has been substituted. -/
theorem not_opens_substituteList {c : Char} {cs : List Char} (hv : InertFor values cs)
    (h : ¬ Opens (c :: cs)) : ¬ Opens (c :: substituteList values cs) := by
  intro hopens
  apply h
  obtain ⟨rfl, ds, hcs, hhead, hds⟩ := opens_cons_iff.mp hopens
  -- the brace behind the dollar sign stood there before, and so did one that closes it
  obtain ⟨cs', rfl, rfl⟩ := exists_of_substituteList_eq_cons hv hcs
  refine opens_cons_iff.mpr ⟨rfl, cs', rfl, ?_, ?_⟩
  · intro hclosing
    obtain ⟨es, rfl⟩ := List.head?_eq_some_iff.mp hclosing
    apply hhead
    rw [substituteList_literal (fun ho => absurd (opens_cons_iff.mp ho).1 (by decide))]
    rfl
  · by_cases hmem : '\x7d' ∈ cs'
    · exact hmem
    · rwa [substituteList_of_not_mem hmem] at hds

/-- What becomes of a segment when the text is cut again after a substitution. -/
def Segment.settle (values : Values) : Segment → List Segment
  | .literal c => [.literal c]
  | .reference name =>
    (values (String.ofList name)).elim [.reference name] fun v => v.toList.map .literal

theorem Segment.settle_reference (name : List Char) :
    Segment.settle values (.reference name) =
      (values (String.ofList name)).elim [.reference name] fun v => v.toList.map .literal := rfl

theorem quiet_of_not_mem {l following : List Char} (h : '$' ∉ l) : Quiet l following := by
  rintro before after rfl hne hopens
  obtain ⟨c, after, rfl⟩ := List.exists_cons_of_ne_nil hne
  obtain ⟨rfl, -⟩ := opens_cons_iff.mp hopens
  exact h (by simp)

/-- Substituting inert values commutes with cutting: values become literal text, and the references
without a value stay. -/
theorem segments_substituteList {cs : List Char} (hv : InertFor values cs) :
    segments (substituteList values cs) = (segments cs).flatMap (Segment.settle values) := by
  induction cs using segments_induction with
  | nil => rw [substituteList_nil, segments_nil]; rfl
  | literal c cs hc ih =>
    unfold InertFor at hv
    rw [referencesList_literal hc] at hv
    rw [substituteList_literal hc, segments_literal (not_opens_substituteList hv hc), ih hv,
      segments_literal hc]
    rfl
  | reference name rest hne hname ih =>
    unfold InertFor at hv
    rw [referencesList_reference hne hname] at hv
    obtain ⟨hvname, hvrest⟩ := List.forall_mem_cons.mp hv
    have hrest := ih hvrest
    rw [substituteList_reference hne hname, segments_reference hne hname, List.flatMap_cons,
      ← hrest, resolve_eq_elim, Segment.settle_reference]
    cases hvalue : values (String.ofList name) with
    | none => exact segments_reference hne hname _
    -- the value has no dollar sign, so nothing in it begins a reference
    | some v => exact segments_append_of_quiet (quiet_of_not_mem (hvname v hvalue).no_dollar)

theorem filterMap_name?_settle (gs : List Segment) :
    (gs.flatMap (Segment.settle values)).filterMap Segment.name? =
      (gs.filterMap Segment.name?).filter fun name => (values (String.ofList name)).isNone := by
  induction gs with
  | nil => rfl
  | cons g gs ih =>
    rw [List.flatMap_cons, List.filterMap_append, ih]
    cases g with
    | literal c => rfl
    | reference name =>
      have hname : (Segment.reference name).name? = some name := rfl
      rw [List.filterMap_cons_some hname, List.filter_cons, Segment.settle_reference]
      cases values (String.ofList name) with
      | none => rfl
      | some v => simp [Segment.name?]

theorem referencesList_substituteList {cs : List Char} (hv : InertFor values cs) :
    referencesList (substituteList values cs) =
      (referencesList cs).filter fun name => (values (String.ofList name)).isNone := by
  unfold referencesList
  rw [segments_substituteList hv, filterMap_name?_settle]

theorem references_substitute {s : String}
    (h : ∀ name ∈ references s, ∀ v, values name = some v → Inert v) :
    references (substitute values s) = (references s).filter fun name => (values name).isNone := by
  have hv : InertFor values s.toList := fun name hname =>
    h (String.ofList name) (List.mem_map_of_mem hname)
  unfold references substitute
  rw [String.toList_ofList, referencesList_substituteList hv, List.filter_map]
  rfl

/-- **What is left are the references without a value.** If the values for the references of a text
are inert, a substitution leaves the references to variables without a value, in their order and as
often as they stand there, and no other; and doing it again changes nothing. -/
theorem exact_residue (values : Values) (s : String)
    (h : ∀ name ∈ references s, ∀ v, values name = some v → Inert v) :
    references (substitute values s) = (references s).filter (fun name => (values name).isNone) ∧
      substitute values (substitute values s) = substitute values s := by
  have hleft := references_substitute h
  have hcut := Cut.isCutOf_ofSegments (substitute values s)
  refine ⟨hleft, hcut.substitute_of_unknown ?_⟩
  intro name hname
  have hmem : String.ofList name ∈ references (substitute values s) := by
    rw [hcut.references_eq]
    exact List.mem_map_of_mem hname
  rw [hleft, List.mem_filter] at hmem
  exact Option.isNone_iff_eq_none.mp hmem.2

theorem exact_residue_stray :
    let values : Values := fun name => [("a", "q"), ("c", "$")].lookup name
    (∀ name ∈ references strayText, ∀ v, values name = some v → Inert v) ∧
      references (substitute values strayText) = ["b$\x7bc"] ∧
      substitute values (substitute values strayText) = substitute values strayText := by
  intro values
  have hnames : references strayText = ["a", "b$\x7bc"] := by
    rw [isCutOf_strayCut.references_eq]
    decide
  have hinert : ∀ name ∈ references strayText, ∀ v, values name = some v → Inert v := by
    rw [hnames]
    intro name hname v hv
    rcases List.mem_cons.mp hname with rfl | hname
    · obtain rfl : "q" = v := Option.some.inj hv
      exact ⟨by decide, by decide, by decide, by decide⟩
    · rw [List.mem_singleton.mp hname] at hv
      cases hv
  obtain ⟨hleft, hagain⟩ := exact_residue values strayText hinert
  rw [hnames] at hleft
  exact ⟨hinert, hleft, hagain⟩

/-! ## References behind an opening -/

/-- Whether an opening stands in a text that nothing closes. -/
def LeftOpen (cs : List Char) : Prop :=
  ∃ before after, cs = before ++ '$' :: '\x7b' :: after ∧ '\x7d' ∉ after

theorem not_leftOpen_nil : ¬ LeftOpen [] := by
  rintro ⟨before, after, h, -⟩
  simp at h

theorem leftOpen_of_append (before : List Char) {cs : List Char} (h : LeftOpen cs) :
    LeftOpen (before ++ cs) := by
  obtain ⟨b, a, rfl, ha⟩ := h
  exact ⟨before ++ b, a, by rw [List.append_assoc], ha⟩

/-- A text that is not left open is cut on its own, unless its end and what follows make an
opening. -/
theorem segments_append {cs following : List Char} (hcs : ¬ LeftOpen cs)
    (hf : following.head? ≠ some '\x7b') :
    segments (cs ++ following) = segments cs ++ segments following := by
  induction cs using segments_induction with
  | nil => rw [segments_nil]; rfl
  | literal c cs hc ih =>
    -- what begins a reference here needs a closing brace, which only `cs` can have
    have hopens : ¬ Opens (c :: (cs ++ following)) := by
      intro ho
      apply hc
      obtain ⟨rfl, ds, heq, hhead, -⟩ := opens_cons_iff.mp ho
      cases cs with
      | nil => exact absurd (congrArg List.head? heq) hf
      | cons e es =>
        obtain ⟨rfl, rfl⟩ := List.cons.inj heq
        have hclosing : '\x7d' ∈ es := by
          by_cases hmem : '\x7d' ∈ es
          · exact hmem
          · exact absurd ⟨[], es, rfl, hmem⟩ hcs
        refine opens_cons_iff.mpr ⟨rfl, es, rfl, ?_, hclosing⟩
        obtain ⟨d, ds, rfl⟩ := List.exists_cons_of_ne_nil (List.ne_nil_of_mem hclosing)
        exact hhead
    have hrest : ¬ LeftOpen cs := fun h => hcs (leftOpen_of_append [c] h)
    rw [List.cons_append, segments_literal hopens, segments_literal hc, ih hrest, List.cons_append]
  | reference name rest hne hname ih =>
    have hrest : ¬ LeftOpen rest := fun h => hcs (leftOpen_of_append _ h)
    rw [List.append_assoc, segments_reference hne hname, segments_reference hne hname, ih hrest,
      List.cons_append]

theorem exists_first_opening {cs : List Char} (h : LeftOpen cs) :
    ∃ outer inner, cs = outer ++ '$' :: '\x7b' :: inner ∧ '\x7d' ∉ inner ∧ ¬ LeftOpen outer := by
  -- induction on the length of `before`, which gets shorter with each opening found in it
  obtain ⟨before, after, rfl, hafter⟩ := h
  induction hn : before.length using Nat.strongRecOn generalizing before after with
  | _ n ih =>
    by_cases hopen : LeftOpen before
    · obtain ⟨b, a, rfl, ha⟩ := hopen
      have hlt : b.length < n := by
        rw [← hn, List.length_append, List.length_cons]
        omega
      obtain ⟨outer, inner, heq, hrest⟩ := ih b.length hlt b (a ++ '$' :: '\x7b' :: after)
        (by simp [ha, hafter]) rfl
      refine ⟨outer, inner, ?_, hrest⟩
      rw [← heq]
      simp
    · exact ⟨before, after, rfl, hafter, hopen⟩

theorem segments_of_not_leftOpen {before name : List Char} (hbefore : ¬ LeftOpen before)
    (hne : name ≠ []) (hname : '\x7d' ∉ name) (after : List Char) :
    segments (before ++ (referenceText name ++ after)) =
      segments before ++ .reference name :: segments after := by
  rw [segments_append hbefore (by simp [referenceText]), segments_reference hne hname]

/-- A reference behind an opening that nothing closes is part of a name. -/
theorem segments_of_leftOpen {outer inner name : List Char} (houter : ¬ LeftOpen outer)
    (hinner : '\x7d' ∉ inner) (hname : '\x7d' ∉ name) (after : List Char) :
    segments (outer ++ '$' :: '\x7b' :: inner ++ (referenceText name ++ after)) =
      segments outer ++ .reference (inner ++ '$' :: '\x7b' :: name) :: segments after := by
  have hjoined : outer ++ '$' :: '\x7b' :: inner ++ (referenceText name ++ after) =
      outer ++ (referenceText (inner ++ '$' :: '\x7b' :: name) ++ after) := by
    simp [referenceText]
  rw [hjoined]
  exact segments_of_not_leftOpen houter (by simp) (by simp [hinner, hname]) after

theorem mem_referencesList_of_segments {cs name : List Char} {gs hs : List Segment}
    (h : segments cs = gs ++ .reference name :: hs) : name ∈ referencesList cs := by
  unfold referencesList
  rw [h, List.mem_filterMap]
  exact ⟨.reference name, by simp, rfl⟩

theorem exists_of_mem_referencesList {cs name : List Char} (h : name ∈ referencesList cs) :
    ∃ before after, cs = before ++ (referenceText name ++ after) := by
  induction cs using segments_induction with
  | nil =>
    unfold referencesList at h
    rw [segments_nil] at h
    cases h
  | literal c cs hc ih =>
    rw [referencesList_literal hc] at h
    obtain ⟨before, after, rfl⟩ := ih h
    exact ⟨c :: before, after, rfl⟩
  | reference name' rest hne hname ih =>
    rw [referencesList_reference hne hname] at h
    rcases List.mem_cons.mp h with rfl | hmem
    · exact ⟨[], rest, rfl⟩
    · obtain ⟨before, after, rfl⟩ := ih hmem
      exact ⟨referenceText name' ++ before, after, by rw [List.append_assoc]⟩

/-- Whether the names of the variables with a value are inert, and their values. -/
def InertBindings (values : Values) : Prop :=
  ∀ name v, values name = some v → Inert name ∧ Inert v

namespace InertBindings

theorem name_of {name : List Char} {v : String} (h : InertBindings values)
    (hv : values (String.ofList name) = some v) :
    name ≠ [] ∧ '$' ∉ name ∧ '\x7d' ∉ name := by
  have hname := (h _ v hv).1
  have hne := hname.ne_nil
  have hdollar := hname.no_dollar
  have hclosing := hname.no_closing
  rw [String.toList_ofList] at hne hdollar hclosing
  exact ⟨hne, hdollar, hclosing⟩

theorem eq_none (h : InertBindings values) (inner name : List Char) :
    values (String.ofList (inner ++ '$' :: '\x7b' :: name)) = none := by
  cases hv : values (String.ofList (inner ++ '$' :: '\x7b' :: name)) with
  | none => rfl
  | some v => exact absurd (by simp) (h.name_of hv).2.1

end InertBindings

/-- Every reference to a variable with a value is replaced where no opening before it is left
open. -/
theorem substituteList_of_not_leftOpen (h : InertBindings values) {before name : List Char}
    {v : String} (hv : values (String.ofList name) = some v) (hbefore : ¬ LeftOpen before)
    (after : List Char) :
    substituteList values (before ++ (referenceText name ++ after)) =
      substituteList values before ++ (v.toList ++ substituteList values after) := by
  obtain ⟨hne, -, hname⟩ := h.name_of hv
  have hresolve : resolve values name = v.toList := by rw [resolve_eq_elim, hv]; rfl
  rw [← hresolve]
  unfold substituteList
  rw [segments_of_not_leftOpen hbefore hne hname, List.flatMap_append]
  rfl

theorem substituteList_of_leftOpen (h : InertBindings values) {before name : List Char}
    {v : String} (hv : values (String.ofList name) = some v) (hbefore : LeftOpen before)
    (after : List Char) :
    ∃ outer inner, before = outer ++ '$' :: '\x7b' :: inner ∧ '\x7d' ∉ inner ∧
      substituteList values (before ++ (referenceText name ++ after)) =
        substituteList values outer ++
          ('$' :: '\x7b' :: inner ++ (referenceText name ++ substituteList values after)) := by
  obtain ⟨outer, inner, rfl, hinner, houter⟩ := exists_first_opening hbefore
  obtain ⟨-, -, hname⟩ := h.name_of hv
  refine ⟨outer, inner, rfl, hinner, ?_⟩
  have hstays : '$' :: '\x7b' :: inner ++ (referenceText name ++ substituteList values after) =
      resolve values (inner ++ '$' :: '\x7b' :: name) ++ substituteList values after := by
    rw [resolve_eq_elim, h.eq_none inner name]
    simp [referenceText]
  rw [hstays]
  unfold substituteList
  rw [segments_of_leftOpen houter hinner hname, List.flatMap_append]
  rfl

/-- A reference to a variable with a value that stands in a text after a substitution stood before
it behind an opening that nothing closes. -/
theorem exists_of_infix_substituteList (h : InertBindings values) {cs name : List Char} {v : String}
    (hv : values (String.ofList name) = some v)
    (hin : referenceText name <:+: substituteList values cs) :
    ∃ before after, cs = before ++ (referenceText name ++ after) ∧ LeftOpen before := by
  obtain ⟨hne, -, hname⟩ := h.name_of hv
  have hleft : referencesList (substituteList values cs) =
      (referencesList cs).filter fun name => (values (String.ofList name)).isNone :=
    referencesList_substituteList fun name' _ v' hv' => (h _ v' hv').2
  obtain ⟨pre, post, heq⟩ := hin
  rw [List.append_assoc] at heq
  rw [← heq] at hleft
  -- the reference is one of the output as it stands, or a part of the name of one
  by_cases hopen : LeftOpen pre
  · obtain ⟨outer, inner, rfl, hinner, houter⟩ := exists_first_opening hopen
    have hmem := mem_referencesList_of_segments
      (segments_of_leftOpen houter hinner hname post)
    rw [hleft] at hmem
    obtain ⟨before, after, rfl⟩ := exists_of_mem_referencesList (List.mem_filter.mp hmem).1
    refine ⟨before ++ '$' :: '\x7b' :: inner, after, by simp [referenceText], ?_⟩
    exact ⟨before, inner, rfl, hinner⟩
  · have hmem := mem_referencesList_of_segments
      (segments_of_not_leftOpen hopen hne hname post)
    rw [hleft] at hmem
    have hnone := (List.mem_filter.mp hmem).2
    rw [hv] at hnone
    cases hnone

/-- **Which references to variables with a value survive.** Let the names of the variables and their
values be inert. Such a reference is replaced if no opening is left open before it. Otherwise the
text from the first of these openings to the end of the reference stays as it is. So a substitution
leaves a reference to a variable with a value exactly if the text holds one behind an opening that
nothing closes. -/
theorem known_reference_survives_iff (values : Values) (h : InertBindings values) (s : String) :
    (∀ before name v after, s.toList = before ++ (referenceText name ++ after) →
        values (String.ofList name) = some v →
        (¬ LeftOpen before → (substitute values s).toList =
          substituteList values before ++ (v.toList ++ substituteList values after)) ∧
        (LeftOpen before → ∃ outer inner, before = outer ++ '$' :: '\x7b' :: inner ∧
          '\x7d' ∉ inner ∧ (substitute values s).toList = substituteList values outer ++
            ('$' :: '\x7b' :: inner ++ (referenceText name ++ substituteList values after)))) ∧
      ((∃ name v, values (String.ofList name) = some v ∧
          referenceText name <:+: (substitute values s).toList) ↔
        ∃ before name v after, s.toList = before ++ (referenceText name ++ after) ∧
          values (String.ofList name) = some v ∧ LeftOpen before) := by
  unfold substitute
  simp only [String.toList_ofList]
  refine ⟨?_, ?_, ?_⟩
  · intro before name v after hs hv
    rw [hs]
    exact ⟨fun hb => substituteList_of_not_leftOpen h hv hb after,
      fun hb => substituteList_of_leftOpen h hv hb after⟩
  · rintro ⟨name, v, hv, hin⟩
    obtain ⟨before, after, hs, hb⟩ := exists_of_infix_substituteList h hv hin
    exact ⟨before, name, v, after, hs, hv, hb⟩
  · rintro ⟨before, name, v, after, hs, hv, hb⟩
    obtain ⟨outer, inner, -, -, hout⟩ := substituteList_of_leftOpen h hv hb after
    rw [hs, hout]
    refine ⟨name, v, hv, substituteList values outer ++ '$' :: '\x7b' :: inner,
      substituteList values after, ?_⟩
    simp

/-! ## An opening in front of a reference -/

/-- A word of letters, digits and underscores. -/
def IsWord (s : String) : Prop :=
  s.toList ≠ [] ∧ ∀ c ∈ s.toList, c.isAlphanum = true ∨ c = '_'

instance : DecidablePred IsWord := fun s =>
  have : Decidable (∀ c ∈ s.toList, c.isAlphanum = true ∨ c = '_') := List.decidableBAll _ _
  inferInstanceAs (Decidable (s.toList ≠ [] ∧ ∀ c ∈ s.toList, c.isAlphanum = true ∨ c = '_'))

theorem Inert.of_isWord {s : String} (h : IsWord s) : Inert s where
  ne_nil := h.1
  no_dollar hmem := absurd (h.2 _ hmem) (by decide)
  no_opening hmem := absurd (h.2 _ hmem) (by decide)
  no_closing hmem := absurd (h.2 _ hmem) (by decide)

def oneVariable : Values := fun name => [("N", "x")].lookup name

theorem oneVariable_eq_some {name v : String} (h : oneVariable name = some v) :
    name = "N" ∧ v = "x" := by
  unfold oneVariable at h
  rw [List.lookup_cons] at h
  split at h
  · next heq => exact ⟨eq_of_beq heq, (Option.some.inj h).symm⟩
  · cases h

theorem inertBindings_oneVariable : InertBindings oneVariable := by
  intro name v h
  obtain ⟨rfl, rfl⟩ := oneVariable_eq_some h
  exact ⟨.of_isWord (by decide), .of_isWord (by decide)⟩

theorem known_reference_survives_iff_nested :
    let text : String := "$\x7bN\x7d$\x7ba$\x7bN\x7d"
    let behind := "$\x7bN\x7d$\x7ba".toList
    InertBindings oneVariable ∧ ¬ LeftOpen [] ∧ LeftOpen behind ∧
      text.toList = [] ++ (referenceText ['N'] ++ "$\x7ba$\x7bN\x7d".toList) ∧
      (substitute oneVariable text).toList =
        'x' :: substituteList oneVariable "$\x7ba$\x7bN\x7d".toList ∧
      text.toList = behind ++ (referenceText ['N'] ++ []) ∧
      ∃ name v, oneVariable (String.ofList name) = some v ∧
        referenceText name <:+: (substitute oneVariable text).toList := by
  intro text behind
  obtain ⟨hplaces, hsurvives⟩ :=
    known_reference_survives_iff oneVariable inertBindings_oneVariable text
  have hbehind : LeftOpen behind := ⟨"$\x7bN\x7d".toList, ['a'], by decide, by decide⟩
  have hfirst : text.toList = [] ++ (referenceText ['N'] ++ "$\x7ba$\x7bN\x7d".toList) := by decide
  have hsecond : text.toList = behind ++ (referenceText ['N'] ++ []) := by decide
  refine ⟨inertBindings_oneVariable, not_leftOpen_nil, hbehind, hfirst, ?_, hsecond, ?_⟩
  · have hreplaced := (hplaces [] ['N'] "x" _ hfirst (by decide)).1 not_leftOpen_nil
    rw [hreplaced, substituteList_nil]
    rfl
  · exact hsurvives.mpr ⟨behind, ['N'], "x", [], hsecond, by decide, hbehind⟩

/-- A reference to a variable with a value is left where it stands inside another reference. -/
theorem nested_reference_survives :
    (∀ name v, oneVariable name = some v → IsWord name ∧ Inert v) ∧
      oneVariable "N" = some "x" ∧
      substitute oneVariable "$\x7ba$\x7bN\x7d" = "$\x7ba$\x7bN\x7d" ∧
      referenceText "N".toList <:+: (substitute oneVariable "$\x7ba$\x7bN\x7d").toList := by
  have hcut : (Cut.next [] ['a', '$', '\x7b', 'N'] (.last [])).IsCutOf "$\x7ba$\x7bN\x7d" :=
    ⟨by decide, by decide⟩
  have hsame : substitute oneVariable "$\x7ba$\x7bN\x7d" = "$\x7ba$\x7bN\x7d" := by
    rw [hcut.substitute_eq]
    decide
  refine ⟨?_, by decide, hsame, ?_⟩
  · intro name v h
    obtain ⟨rfl, rfl⟩ := oneVariable_eq_some h
    exact ⟨by decide, .of_isWord (by decide)⟩
  · rw [hsame]
    exact ⟨['$', '\x7b', 'a'], [], by decide⟩

end ImageLint.Variable
