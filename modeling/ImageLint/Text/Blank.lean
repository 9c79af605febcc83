/-!
# Blank characters

The white space of the Unicode standard, and the trimming of a text at both ends. A name or a
path of blanks alone counts as not given, so `isBlankText` is what the settings and the path
providers ask.
-/

namespace ImageLint.Text

/-- The characters with the Unicode property `White_Space`. -/
def isBlank (c : Char) : Bool :=
  let n := c.toNat
  (0x09 ≤ n && n ≤ 0x0D) || n == 0x20 || n == 0x85 || n == 0xA0 || n == 0x1680 ||
    (0x2000 ≤ n && n ≤ 0x200A) || n == 0x2028 || n == 0x2029 || n == 0x202F || n == 0x205F ||
    n == 0x3000

/-- Drops the blanks at both ends. -/
def trimList (cs : List Char) : List Char :=
  ((cs.dropWhile isBlank).reverse.dropWhile isBlank).reverse

/-- Drops the blanks at both ends of a text. -/
def trim (s : String) : String := String.ofList (trimList s.toList)

/-- Holds of a text without a character that is not blank. -/
def isBlankText (s : String) : Bool := s.toList.all isBlank

/-- What is left after trimming does not begin with a blank. -/
theorem not_isBlank_head_trimList {cs rest : List Char} {c : Char}
    (h : trimList cs = c :: rest) : isBlank c = false := by
  have key : ∀ l : List Char, ∀ d r, l.dropWhile isBlank = d :: r → isBlank d = false := by
    intro l
    induction l with
    | nil => intro d r h; simp at h
    | cons a as ih =>
      intro d r h
      rw [List.dropWhile_cons] at h
      split at h
      · exact ih d r h
      · next hp => cases h; simpa using hp
  unfold trimList at h
  cases hd : cs.dropWhile isBlank with
  | nil => simp [hd] at h
  | cons d ds =>
    have hd' := key _ _ _ hd
    rw [hd] at h
    have hlast : ((d :: ds).reverse.dropWhile isBlank).reverse.head? = some d := by
      rw [List.reverse_cons, List.dropWhile_append]
      split <;> simp [hd']
    rw [h] at hlast
    simp at hlast
    rw [hlast]; exact hd'

end ImageLint.Text
