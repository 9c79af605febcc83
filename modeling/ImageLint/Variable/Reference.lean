/-!
# References to variables

A reference is written as a dollar sign and a name in braces. The name is not empty and holds no
closing brace; anything else may stand in it, an opening brace too. References are found from left
to right, and text that has been matched is not looked at again: a text is cut into literal
characters and references by `segments`, in exactly one way.
-/

namespace ImageLint.Variable

/-- A piece of a text: a literal character or a reference with its name. -/
inductive Segment where
  | literal (c : Char)
  | reference (name : List Char)
  deriving DecidableEq, Repr

/-- The values of variables, by name. -/
abbrev Values : Type := String → Option String

/-- The text of a reference. -/
def referenceText (name : List Char) : List Char := '$' :: '\x7b' :: (name ++ ['\x7d'])

/-- The text of a segment. -/
def Segment.text : Segment → List Char
  | .literal c => [c]
  | .reference name => referenceText name

/-- The name at the front of `cs`, up to a closing brace, and what comes after the brace. -/
def takeName : List Char → Option (List Char × List Char)
  | [] => none
  | c :: cs =>
    if c = '\x7d' then some ([], cs)
    else (takeName cs).map fun (name, rest) => (c :: name, rest)

/-- The reference at the front of `cs`, and what comes after it. -/
def takeReference : List Char → Option (List Char × List Char)
  | '$' :: '\x7b' :: cs =>
    match takeName cs with
    | some (c :: name, rest) => some (c :: name, rest)
    | _ => none
  | _ => none

theorem takeName_eq_some {cs name rest : List Char} (h : takeName cs = some (name, rest)) :
    cs = name ++ '\x7d' :: rest ∧ '\x7d' ∉ name := by
  induction cs generalizing name rest with
  | nil => simp [takeName] at h
  | cons c cs ih =>
    simp only [takeName] at h
    split at h
    · next hc => cases h; simp [hc]
    · next hc =>
      obtain ⟨⟨name', rest'⟩, h', heq⟩ := Option.map_eq_some_iff.1 h
      cases heq
      obtain ⟨h1, h2⟩ := ih h'
      refine ⟨by rw [h1]; rfl, ?_⟩
      simp only [List.mem_cons, not_or]
      exact ⟨fun e => hc e.symm, h2⟩

/-- A name without a closing brace is taken up to the brace after it. -/
theorem takeName_append {name : List Char} (h : '\x7d' ∉ name) (rest : List Char) :
    takeName (name ++ '\x7d' :: rest) = some (name, rest) := by
  induction name with
  | nil => simp [takeName]
  | cons c name ih =>
    simp only [List.mem_cons, not_or] at h
    have hc : ¬ c = '\x7d' := fun e => h.1 e.symm
    simp [takeName, hc, ih h.2]

/-- A reference at the front is a dollar sign and a name in braces, not empty and without a closing
brace. -/
theorem takeReference_eq_some_iff {cs name rest : List Char} :
    takeReference cs = some (name, rest) ↔
      cs = referenceText name ++ rest ∧ name ≠ [] ∧ '\x7d' ∉ name := by
  constructor
  · intro h
    unfold takeReference at h
    split at h
    · next cs' =>
      split at h
      · next c name' rest' hn =>
        cases h
        obtain ⟨h1, h2⟩ := takeName_eq_some hn
        exact ⟨by simp [referenceText, h1], by simp, h2⟩
      · simp at h
    · simp at h
  · rintro ⟨rfl, hne, hn⟩
    have ht : referenceText name ++ rest = '$' :: '\x7b' :: (name ++ '\x7d' :: rest) := by
      simp [referenceText]
    rw [ht]
    simp only [takeReference, takeName_append hn]
    cases name with
    | nil => exact absurd rfl hne
    | cons c name => rfl

theorem length_takeReference {cs name rest : List Char}
    (h : takeReference cs = some (name, rest)) : rest.length < cs.length := by
  obtain ⟨rfl, -, -⟩ := takeReference_eq_some_iff.1 h
  simp [referenceText]
  omega

/-- The segments of a text: the leftmost references, and the characters between them. -/
def segments : List Char → List Segment
  | [] => []
  | c :: cs =>
    match _h : takeReference (c :: cs) with
    | some (name, rest) => .reference name :: segments rest
    | none => .literal c :: segments cs
termination_by cs => cs.length
decreasing_by
  · exact length_takeReference _h
  · simp

/-- What a reference becomes: the value of the variable, or the reference itself. -/
def resolve (values : Values) (name : List Char) : List Char :=
  match values (String.ofList name) with
  | some value => value.toList
  | none => referenceText name

/-- What a segment becomes. -/
def Segment.expand (values : Values) : Segment → List Char
  | .literal c => [c]
  | .reference name => resolve values name

/-- The name of a reference. -/
def Segment.name? : Segment → Option (List Char)
  | .literal _ => none
  | .reference name => some name

/-- Replaces every reference to a variable with a value. Values are not looked into again. -/
def substituteList (values : Values) (cs : List Char) : List Char :=
  (segments cs).flatMap (Segment.expand values)

/-- The names of the references of a text, in order. -/
def referencesList (cs : List Char) : List (List Char) := (segments cs).filterMap Segment.name?

/-- Replaces every reference to a variable with a value in a text. -/
def substitute (values : Values) (s : String) : String :=
  String.ofList (substituteList values s.toList)

/-- The names of the references of a text, in order. -/
def references (s : String) : List String := (referencesList s.toList).map String.ofList

/-- Cutting a text into segments loses nothing. -/
theorem flatMap_text_segments (cs : List Char) : (segments cs).flatMap Segment.text = cs := by
  fun_induction segments cs with
  | case1 => rfl
  | case2 c cs name rest h ih =>
    obtain ⟨h1, -, -⟩ := takeReference_eq_some_iff.1 h
    rw [List.flatMap_cons, ih, h1]
    rfl
  | case3 c cs h ih => rw [List.flatMap_cons, ih]; rfl

end ImageLint.Variable
