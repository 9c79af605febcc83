import ImageLint.Text.Blank
import Mathlib.Data.List.Basic
import Mathlib.Data.List.TakeWhile

/-!
# Trimming

What trimming leaves of a text that is not blank: the part between the blanks at both ends, which
itself begins and ends with something else.
-/

namespace ImageLint.Text

/-- `t` is what is left of `s` without the blanks at both ends. -/
structure Trimmed (s t : String) : Prop where
  frame : ∃ before after, s = before ++ t ++ after ∧ isBlankText before = true ∧
    isBlankText after = true
  first : ∃ c ∈ t.toList.head?, isBlank c = false
  last : ∃ c ∈ t.toList.getLast?, isBlank c = false

theorem dropWhile_of_head? {cs : List Char} (h : ∃ c ∈ cs.head?, isBlank c = false) :
    cs.dropWhile isBlank = cs := by
  obtain ⟨c, hc, hblank⟩ := h
  cases cs with
  | nil => cases hc
  | cons d ds =>
    obtain rfl := Option.some.inj hc
    exact List.dropWhile_cons_of_neg (by simp [hblank])

theorem head?_dropWhile {cs : List Char} (h : cs.all isBlank = false) :
    ∃ c ∈ (cs.dropWhile isBlank).head?, isBlank c = false := by
  cases hd : cs.dropWhile isBlank with
  | nil =>
    rw [List.dropWhile_eq_nil_iff, ← List.all_eq_true, h] at hd
    cases hd
  | cons c rest =>
    have hhead := List.head?_dropWhile_not isBlank cs
    rw [hd] at hhead
    exact ⟨c, rfl, hhead⟩

theorem trimList_append {before cs after : List Char} (hbefore : before.all isBlank = true)
    (hafter : after.all isBlank = true) (hfirst : ∃ c ∈ cs.head?, isBlank c = false)
    (hlast : ∃ c ∈ cs.getLast?, isBlank c = false) : trimList (before ++ cs ++ after) = cs := by
  have hhead : ∃ c ∈ (cs ++ after).head?, isBlank c = false := by
    obtain ⟨c, hc, hblank⟩ := hfirst
    exact ⟨c, List.mem_head?_append_of_mem_head? hc, hblank⟩
  have hreverse : ∀ c ∈ after.reverse, isBlank c = true := by
    simpa [List.all_eq_true] using hafter
  unfold trimList
  rw [List.append_assoc, List.dropWhile_append_of_pos (List.all_eq_true.mp hbefore),
    dropWhile_of_head? hhead, List.reverse_append, List.dropWhile_append_of_pos hreverse,
    dropWhile_of_head? (by rwa [List.head?_reverse]), List.reverse_reverse]

/-- Trimming takes away blanks at both ends. -/
theorem exists_frame (cs : List Char) :
    ∃ before after, cs = before ++ trimList cs ++ after ∧ before.all isBlank = true ∧
      after.all isBlank = true := by
  have hfront := List.takeWhile_append_dropWhile (p := isBlank) (l := cs)
  have hback := List.takeWhile_append_dropWhile (p := isBlank) (l := (cs.dropWhile isBlank).reverse)
  have hends (ds : List Char) : (ds.takeWhile isBlank).all isBlank = true :=
    List.all_takeWhile
  refine ⟨cs.takeWhile isBlank, ((cs.dropWhile isBlank).reverse.takeWhile isBlank).reverse, ?_,
    hends cs, by rw [List.all_reverse]; exact hends _⟩
  have hrest : trimList cs ++ ((cs.dropWhile isBlank).reverse.takeWhile isBlank).reverse =
      cs.dropWhile isBlank := by
    unfold trimList
    rw [← List.reverse_append, hback, List.reverse_reverse]
  rw [List.append_assoc, hrest, hfront]

/-- Trimming leaves what is between the blanks, unless there is nothing else. -/
theorem trimmed_iff {s t : String} : Trimmed s t ↔ isBlankText s = false ∧ t = trim s := by
  constructor
  · rintro ⟨⟨before, after, rfl, hbefore, hafter⟩, hfirst, hlast⟩
    refine ⟨?_, ?_⟩
    · obtain ⟨c, hc, hblank⟩ := hfirst
      refine List.all_eq_false.mpr ⟨c, ?_, by simp [hblank]⟩
      simp [List.mem_of_mem_head? hc]
    · unfold trim
      rw [String.toList_append, String.toList_append, trimList_append hbefore hafter hfirst hlast,
        String.ofList_toList]
  · rintro ⟨hs, rfl⟩
    have hs' : s.toList.all isBlank = false := hs
    obtain ⟨before, after, hframe, hbefore, hafter⟩ := exists_frame s.toList
    -- something that is not blank is left in front, and it is still there behind
    obtain ⟨c, hc, hblank⟩ := head?_dropWhile hs'
    have hreverse : (s.toList.dropWhile isBlank).reverse.all isBlank = false := by
      refine List.all_eq_false.mpr ⟨c, ?_, by simp [hblank]⟩
      exact List.mem_reverse.mpr (List.mem_of_mem_head? hc)
    have hlast := head?_dropWhile hreverse
    rw [← List.getLast?_reverse] at hlast
    refine ⟨⟨String.ofList before, String.ofList after, ?_, ?_, ?_⟩, ?_, ?_⟩
    · apply String.toList_injective
      simpa [trim] using hframe
    · simpa [isBlankText] using hbefore
    · simpa [isBlankText] using hafter
    · unfold trim
      rw [String.toList_ofList]
      cases htrim : trimList s.toList with
      | nil =>
        have hnil : ((s.toList.dropWhile isBlank).reverse.dropWhile isBlank).reverse = [] := htrim
        rw [hnil] at hlast
        obtain ⟨d, hd, -⟩ := hlast
        cases hd
      | cons d rest => exact ⟨d, rfl, not_isBlank_head_trimList htrim⟩
    · unfold trim
      rw [String.toList_ofList]
      exact hlast

end ImageLint.Text
