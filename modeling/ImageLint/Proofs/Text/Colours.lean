import ImageLint.Text.Digit
import ImageLint.Text.Styled

/-!
# Taking the colours out of a text

`uncoloured` takes every colour sequence out of a text: an escape character, an opening bracket,
codes and the letter `m`. It does not know where the sequences come from, so a text that is written
in colour must not hold an escape character of its own. Then what is written with colours becomes
what is written without them: `uncoloured_renderSpans`.
-/

namespace ImageLint.Text

/-! ## Colour sequences -/

/-- A character that may stand among the codes of a colour sequence. -/
def isCode (c : Char) : Bool := isDigit c || c = ';'

/-- What stands behind the colour sequence at the front of a text, if there is one. -/
def afterSequence? : List Char → Option (List Char)
  | '\x1b' :: '[' :: cs =>
    match cs.dropWhile isCode with
    | 'm' :: rest => some rest
    | _ => none
  | _ => none

theorem length_of_afterSequence? {cs rest : List Char} (h : afterSequence? cs = some rest) :
    rest.length < cs.length := by
  unfold afterSequence? at h
  split at h
  next cs =>
    have hsuffix := (List.dropWhile_sublist isCode (l := cs)).length_le
    split at h
    next heq =>
      cases h
      rw [heq, List.length_cons] at hsuffix
      simp only [List.length_cons]
      omega
    next => cases h
  next => cases h

/-- A text without its colour sequences. -/
def uncoloured : List Char → List Char
  | [] => []
  | c :: cs =>
    match _h : afterSequence? (c :: cs) with
    | some rest => uncoloured rest
    | none => c :: uncoloured cs
termination_by cs => cs.length
decreasing_by
  · exact length_of_afterSequence? _h
  · simp

/-- A text without its colour sequences. -/
def withoutColours (s : String) : String := String.ofList (uncoloured s.toList)

theorem afterSequence?_escapeSequence {codes : List Char} (h : codes.all isCode = true)
    (rest : List Char) : afterSequence? (escapeSequence codes ++ rest) = some rest := by
  have hdrop : (codes ++ 'm' :: rest).dropWhile isCode = 'm' :: rest := by
    rw [List.dropWhile_append_of_pos (List.all_eq_true.mp h)]
    rfl
  have htext : escapeSequence codes ++ rest = '\x1b' :: '[' :: (codes ++ 'm' :: rest) := by
    simp [escapeSequence, escapeChar]
  rw [htext]
  simp only [afterSequence?, hdrop]

theorem uncoloured_escapeSequence {codes : List Char} (h : codes.all isCode = true)
    (rest : List Char) : uncoloured (escapeSequence codes ++ rest) = uncoloured rest := by
  have hafter := afterSequence?_escapeSequence h rest
  unfold escapeSequence at hafter ⊢
  rw [List.cons_append] at hafter ⊢
  rw [uncoloured]
  split
  next heq =>
    rw [hafter] at heq
    cases heq
    rfl
  next heq =>
    rw [hafter] at heq
    cases heq

theorem uncoloured_cons {c : Char} (h : c ≠ escapeChar) (cs : List Char) :
    uncoloured (c :: cs) = c :: uncoloured cs := by
  have hnone : afterSequence? (c :: cs) = none := by
    unfold afterSequence?
    split
    next heq => exact absurd (List.cons.inj heq).1 h
    next => rfl
  rw [uncoloured]
  split
  next heq =>
    rw [hnone] at heq
    cases heq
  next => rfl

/-- A text without an escape character is left as it is. -/
theorem uncoloured_append {text : List Char} (h : escapeChar ∉ text) (rest : List Char) :
    uncoloured (text ++ rest) = text ++ uncoloured rest := by
  induction text with
  | nil => rfl
  | cons c text ih =>
    rw [List.mem_cons, not_or] at h
    rw [List.cons_append, uncoloured_cons fun heq => h.1 heq.symm, ih h.2, List.cons_append]

/-! ## Styles -/

theorem restyle_of_not_mem {opening text : List Char} (h : escapeChar ∉ text) :
    restyle opening text = text := by
  fun_induction restyle opening text with
  | case1 rest ih => exact absurd List.mem_cons_self h
  | case2 c cs hc ih => rw [ih fun hmem => h (List.mem_cons_of_mem c hmem)]
  | case3 => rfl

theorem Style.all_isCode_codes (s : Style) : s.codes.all isCode = true := by
  rcases s with (_ | _) | (_ | _ | _ | _) | ⟨_ | _, _ | _ | _ | _⟩ <;> decide

/-- Without the colours a painted text is the text itself. -/
theorem uncoloured_paint (s : Style) {text : List Char} (h : escapeChar ∉ text)
    (rest : List Char) : uncoloured (s.paint text ++ rest) = text ++ uncoloured rest := by
  have hreset : uncoloured (reset ++ rest) = uncoloured rest :=
    uncoloured_escapeSequence (by decide) rest
  unfold Style.paint
  simp only [restyle_of_not_mem h, List.append_assoc]
  rw [uncoloured_escapeSequence s.all_isCode_codes, uncoloured_append h, hreset]

/-- Without the colours coloured spans are the plain ones. -/
theorem uncoloured_renderSpans {spans : List Span} (h : ∀ s ∈ spans, escapeChar ∉ s.text) :
    uncoloured (renderSpans true spans) = renderSpans false spans := by
  induction spans with
  | nil => rw [renderSpans, List.flatMap_nil, uncoloured]; rfl
  | cons s spans ih =>
    have hs := h s List.mem_cons_self
    have hrest := ih fun t ht => h t (List.mem_cons_of_mem s ht)
    have hcons (coloured : Bool) : renderSpans coloured (s :: spans) =
        s.render coloured ++ renderSpans coloured spans := rfl
    rw [hcons, hcons, ← hrest]
    cases s with
    | plain t => exact uncoloured_append hs _
    | styled style t => exact uncoloured_paint style hs _

-- a sequence that is not finished stays
example : withoutColours "\x1b[1;31mred\x1b[0m \x1b[3" = "red \x1b[3" := by cbv

end ImageLint.Text
