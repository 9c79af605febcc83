import ImageLint.Text.Digit
import ImageLint.Text.Pieces

/-!
# Lines of a text

A text that is written line by line has the lines that were written, and no others: `HasLines` says
that a text consists of the given lines, each with its end, and `HasLines.eq` that it has only one
list of lines. Texts of this kind may be put one after another.
-/

namespace ImageLint.Text

/-- The text consists of the given lines, each of which is ended. -/
def HasLines (s : String) (ls : List String) : Prop := split '\n' s = ls ++ [""]

/-- Behind a text that ends with the separator the pieces begin anew. -/
theorem splitAt_append_of_ended {sep : Char} {a : List Char} {ps : List (List Char)}
    (h : splitAt sep a = ps ++ [[]]) (b : List Char) :
    splitAt sep (a ++ b) = ps ++ splitAt sep b := by
  induction a generalizing ps with
  | nil =>
    have hps : ps = [] := by
      cases ps with
      | nil => rfl
      | cons p ps => simp [splitAt] at h
    rw [hps]
    rfl
  | cons c a ih =>
    by_cases hc : c = sep
    · simp only [splitAt, if_pos hc] at h
      cases ps with
      | nil => exact absurd (List.cons.inj h).2 (splitAt_ne_nil sep a)
      | cons p ps =>
        obtain ⟨rfl, hrest⟩ := List.cons.inj h
        simp only [List.cons_append, splitAt, if_pos hc, ih hrest]
    · cases hs : splitAt sep a with
      | nil => exact absurd hs (splitAt_ne_nil sep a)
      | cons q qs =>
        simp only [splitAt, if_neg hc, hs] at h
        cases ps with
        | nil => simp at h
        | cons p ps =>
          obtain ⟨rfl, rfl⟩ := List.cons.inj h
          have hrest : splitAt sep (a ++ b) = (q :: ps) ++ splitAt sep b := @ih (q :: ps) hs
          simp only [List.cons_append, splitAt, if_neg hc, hrest]

/-- A text is cut at a separator in one way only, if the separator is not in the first piece. -/
theorem append_sep_inj {sep : Char} {a a' b b' : List Char} (ha : sep ∉ a) (ha' : sep ∉ a')
    (h : a ++ sep :: b = a' ++ sep :: b') : a = a' ∧ b = b' := by
  have hpieces : a :: splitAt sep b = a' :: splitAt sep b' := by
    rw [← splitAt_append ha, ← splitAt_append ha', h]
  obtain ⟨rfl, -⟩ := List.cons.inj hpieces
  exact ⟨rfl, (List.cons.inj (List.append_cancel_left h)).2⟩

theorem hasLines_ofList {cs : List Char} {ls : List String} :
    HasLines (String.ofList cs) ls ↔ splitAt '\n' cs = ls.map String.toList ++ [[]] := by
  unfold HasLines split
  rw [String.toList_ofList]
  constructor
  · intro h
    have hlists := congrArg (List.map String.toList) h
    simpa using hlists
  · intro h
    rw [h]
    simp

namespace HasLines

theorem eq {s : String} {xs ys : List String} (hx : HasLines s xs) (hy : HasLines s ys) :
    xs = ys := List.append_cancel_right (hx.symm.trans hy)

theorem nil : HasLines (String.ofList []) [] := hasLines_ofList.mpr rfl

theorem append {a b : List Char} {xs ys : List String} (ha : HasLines (String.ofList a) xs)
    (hb : HasLines (String.ofList b) ys) : HasLines (String.ofList (a ++ b)) (xs ++ ys) := by
  rw [hasLines_ofList] at ha hb ⊢
  rw [splitAt_append_of_ended ha, hb, List.map_append, List.append_assoc]

theorem line {l : List Char} (h : '\n' ∉ l) :
    HasLines (String.ofList (l ++ ['\n'])) [String.ofList l] := by
  rw [hasLines_ofList, splitAt_append h, List.map_singleton, String.toList_ofList]
  rfl

theorem flatMap {α : Type} {write : α → List Char} {ls : α → List String} {as : List α}
    (h : ∀ a ∈ as, HasLines (String.ofList (write a)) (ls a)) :
    HasLines (String.ofList (as.flatMap write)) (as.flatMap ls) := by
  induction as with
  | nil => exact nil
  | cons a as ih =>
    have hrest := ih fun b hb => h b (List.mem_cons_of_mem a hb)
    rw [List.flatMap_cons, List.flatMap_cons]
    exact (h a List.mem_cons_self).append hrest

/-- A text that ends with the end of a line consists of lines. -/
theorem exists_of_ended (cs : List Char) : ∃ ls, HasLines (String.ofList (cs ++ ['\n'])) ls := by
  have hended : splitAt '\n' (cs ++ ['\n']) = splitAt '\n' cs ++ [[]] := by
    induction cs with
    | nil => rfl
    | cons c cs ih =>
      by_cases hc : c = '\n'
      · simp only [List.cons_append, splitAt, if_pos hc, ih]
      · cases hs : splitAt '\n' cs with
        | nil => exact absurd hs (splitAt_ne_nil '\n' cs)
        | cons p ps => simp only [List.cons_append, splitAt, if_neg hc, ih, hs]
  refine ⟨(splitAt '\n' cs).map String.ofList, ?_⟩
  rw [hasLines_ofList, hended, List.map_map]
  simp

end HasLines

/-! ## Numbers in a line -/

theorem isDigit_of_mem_toString {n : Nat} {c : Char} (h : c ∈ (toString n).toList) :
    c.isDigit = true := by
  have hdigits : (toString n).toList = Nat.toDigits 10 n := String.toList_ofList
  rw [hdigits] at h
  exact Nat.isDigit_of_mem_toDigits (by omega) (by omega) h

theorem not_mem_toString {c : Char} (hc : c.isDigit = false) (n : Nat) :
    c ∉ (toString n).toList := by
  intro h
  rw [isDigit_of_mem_toString h] at hc
  cases hc

theorem eq_of_toList_toString {n m : Nat} (h : (toString n).toList = (toString m).toList) :
    n = m := by
  have hdigits : Nat.toDigits 10 n = Nat.toDigits 10 m := by
    simpa [Nat.toString_eq_ofList_toDigits] using h
  calc
    n = Nat.ofDigitChars 10 (Nat.toDigits 10 n) 0 := Nat.ofDigitChars_ten_toDigits.symm
    _ = Nat.ofDigitChars 10 (Nat.toDigits 10 m) 0 := by rw [hdigits]
    _ = m := Nat.ofDigitChars_ten_toDigits

end ImageLint.Text
