import ImageLint.Attribute.Value
import Mathlib.Algebra.Group.Nat.Defs

/-!
# The values of ids

An id is read into 64 bits, digit by digit, and then compared with the greatest id. Here its value is
the number that the digits stand for, without any bound. A digit is only taken on when there is room
for it, so nothing wraps around, and what does not fit is greater than every id anyway.

* `map_toNat_appendDigits`: reading agrees with the number, as far as 64 bits go.
* `isIdList_iff`: which texts are ids.
* `ids_judged_by_value`: the same for texts, and what it says of leading zeros, of great numbers and
  of other characters.
-/

namespace ImageLint.AttributeValue

open Text

/-- One or more of the digits 0 to 9. -/
def Numeral (cs : List Char) : Prop := cs ≠ [] ∧ ∀ c ∈ cs, '0' ≤ c ∧ c ≤ '9'

/-- The number that digits stand for, however many there are. -/
def numeralValue (cs : List Char) : Nat := Nat.ofDigitChars 10 cs 0

/-! ## Reading into 64 bits -/

theorem toNat_digitValue {c : Char} (h : isDigit c = true) :
    (digitValue c).toUInt64.toNat = digitValue c := by
  have hten : digitValue c < 10 := digitValue_lt h
  exact UInt64.toNat_ofNat_of_lt' (Nat.lt_trans hten (by decide))

/-- A digit is taken on exactly if there is room for it. -/
theorem le_div_iff_fits {n d : UInt64} (hd : d.toNat < 10) :
    n ≤ (18446744073709551615 - d) / 10 ↔ 10 * n.toNat + d.toNat < 2 ^ 64 := by
  have hmax : (18446744073709551615 : UInt64).toNat = 18446744073709551615 := rfl
  have hten : (10 : UInt64).toNat = 10 := rfl
  have hle : d ≤ 18446744073709551615 := by
    rw [UInt64.le_iff_toNat_le, hmax]
    exact Nat.le_of_lt_succ d.toNat_lt
  rw [UInt64.le_iff_toNat_le, UInt64.toNat_div, UInt64.toNat_sub_of_le _ _ hle, hmax, hten]
  omega

theorem toNat_append {n d : UInt64} (h : 10 * n.toNat + d.toNat < 2 ^ 64) :
    (n * 10 + d).toNat = 10 * n.toNat + d.toNat := by
  have hten : (10 : UInt64).toNat = 10 := rfl
  rw [UInt64.toNat_add, UInt64.toNat_mul, hten]
  omega

theorem le_ofDigitChars (n : Nat) (cs : List Char) : n ≤ Nat.ofDigitChars 10 cs n := by
  induction cs generalizing n with
  | nil => exact Nat.le_of_eq Nat.ofDigitChars_nil.symm
  | cons c cs ih =>
    have hnext := ih (10 * n + (c.toNat - '0'.toNat))
    rw [Nat.ofDigitChars_cons]
    omega

/-- Reading digits yields the number that they stand for, or nothing if 64 bits are too few. -/
theorem map_toNat_appendDigits {cs : List Char} (n : UInt64) (h : cs.all isDigit = true) :
    (appendDigits n cs).map UInt64.toNat =
      if Nat.ofDigitChars 10 cs n.toNat < 2 ^ 64 then some (Nat.ofDigitChars 10 cs n.toNat)
      else none := by
  induction cs generalizing n with
  | nil => simp [appendDigits, n.toNat_lt]
  | cons c cs ih =>
    obtain ⟨hc, hcs⟩ := Bool.and_eq_true_iff.mp h
    have hd : (digitValue c).toUInt64.toNat = c.toNat - '0'.toNat := toNat_digitValue hc
    have hten : (digitValue c).toUInt64.toNat < 10 := by
      rw [toNat_digitValue hc]
      exact digitValue_lt hc
    rw [Nat.ofDigitChars_cons, appendDigits]
    split
    · next fits =>
      have hroom := (le_div_iff_fits hten).mp fits
      rw [ih _ hcs, toNat_append hroom, hd]
    · next full =>
      -- Once a digit does not fit, the whole number does not.
      have hfull := mt (le_div_iff_fits hten).mpr full
      have hgrow := le_ofDigitChars (10 * n.toNat + (c.toNat - '0'.toNat)) cs
      rw [hd] at hfull
      rw [if_neg (by omega)]
      rfl

theorem appendDigits_le_maxId_iff {cs : List Char} (h : cs.all isDigit = true) :
    (match appendDigits 0 cs with
      | some n => decide (n ≤ maxId)
      | none => false) = true ↔ numeralValue cs ≤ 2147483647 := by
  have hread := map_toNat_appendDigits 0 h
  have hzero : (0 : UInt64).toNat = 0 := rfl
  have hmax : maxId.toNat = 2147483647 := rfl
  rw [hzero] at hread
  unfold numeralValue
  cases happend : appendDigits 0 cs with
  | none =>
    rw [happend, Option.map_none] at hread
    split at hread
    · cases hread
    · next hlarge =>
      simp only [Bool.false_eq_true, false_iff]
      omega
  | some n =>
    rw [happend, Option.map_some] at hread
    split at hread
    · have hvalue : n.toNat = Nat.ofDigitChars 10 cs 0 := Option.some.inj hread
      dsimp only
      rw [decide_eq_true_iff, UInt64.le_iff_toNat_le, hmax, hvalue]
    · cases hread

/-! ## Ids -/

theorem numeral_iff {cs : List Char} :
    Numeral cs ↔ cs.isEmpty = false ∧ cs.all isDigit = true := by
  simp [Numeral, isDigit]

theorem isIdList_iff {cs : List Char} :
    isIdList cs = true ↔ cs = ['*'] ∨ Numeral cs ∧ numeralValue cs ≤ 2147483647 := by
  unfold isIdList
  rw [Bool.or_eq_true, decide_eq_true_iff, numeral_iff, Bool.and_eq_true, Bool.and_eq_true,
    Bool.not_eq_true']
  refine or_congr_right (and_congr_right fun hnumeral => ?_)
  exact appendDigits_le_maxId_iff hnumeral.2

theorem Numeral.ne_star {cs : List Char} (h : Numeral cs) : cs ≠ ['*'] := by
  rintro rfl
  exact absurd (h.2 '*' List.mem_cons_self) (by decide)

/-- Zeros in front of a numeral make it no other number. -/
theorem numeral_zeros (zeros : Nat) {cs : List Char} (h : Numeral cs) :
    Numeral (List.replicate zeros '0' ++ cs) ∧
      numeralValue (List.replicate zeros '0' ++ cs) = numeralValue cs := by
  refine ⟨⟨by simp [h.1], ?_⟩, ?_⟩
  · intro c hc
    rcases List.mem_append.mp hc with hc | hc
    · rw [List.eq_of_mem_replicate hc]
      decide
    · exact h.2 c hc
  · unfold numeralValue
    rw [Nat.ofDigitChars_append, Nat.ofDigitChars_replicate_zero, Nat.mul_zero]

/-- **Ids are judged by their exact value.** A text is an id exactly if it is a star, or a numeral
whose value, as a number without bound, is at most 2147483647. So zeros in front of a numeral change
nothing, a value that 64 bits cannot hold is refused, and so is every text but the star with a
character that is none of the ten digits. -/
theorem ids_judged_by_value (v : String) :
    (isId v = true ↔ v = "*" ∨ Numeral v.toList ∧ numeralValue v.toList ≤ 2147483647) ∧
    (∀ zeros, Numeral v.toList →
      isId (String.ofList (List.replicate zeros '0') ++ v) = isId v) ∧
    (Numeral v.toList → 2 ^ 64 ≤ numeralValue v.toList → isId v = false) ∧
    (∀ c ∈ v.toList, ¬ ('0' ≤ c ∧ c ≤ '9') → v ≠ "*" → isId v = false) := by
  have hstar : v.toList = ['*'] ↔ v = "*" := @String.toList_inj v "*"
  have hid : isId v = true ↔
      v = "*" ∨ Numeral v.toList ∧ numeralValue v.toList ≤ 2147483647 := by
    rw [← hstar]
    exact isIdList_iff
  refine ⟨hid, fun zeros hv => ?_, fun hv hlarge => ?_, fun c hc hother hne => ?_⟩
  · obtain ⟨hnumeral, hvalue⟩ := numeral_zeros zeros hv
    unfold isId
    rw [String.toList_append, String.toList_ofList, Bool.eq_iff_iff, isIdList_iff, isIdList_iff,
      hvalue]
    simp only [hnumeral.ne_star, hv.ne_star, hnumeral, hv, false_or, true_and]
  · rw [← Bool.not_eq_true, hid]
    rintro (rfl | ⟨-, hsmall⟩)
    · exact hv.ne_star rfl
    · omega
  · rw [← Bool.not_eq_true, hid]
    rintro (hv | ⟨hv, -⟩)
    · exact hne hv
    · exact hother (hv.2 c hc)

/-- The greatest id behind thirty zeros, a number beyond 64 bits, and a sign. -/
theorem ids_judged_by_value_extremes :
    isId (String.ofList (List.replicate 30 '0') ++ "2147483647") = true ∧
      isId "18446744073709551616" = false ∧ isId "+1" = false := by
  have hgreatest : Numeral "2147483647".toList := by
    rw [numeral_iff]
    decide
  have hlarge : Numeral "18446744073709551616".toList := by
    rw [numeral_iff]
    decide
  obtain ⟨hid, hzeros, -, -⟩ := ids_judged_by_value "2147483647"
  obtain ⟨-, -, hwide, -⟩ := ids_judged_by_value "18446744073709551616"
  obtain ⟨-, -, -, hother⟩ := ids_judged_by_value "+1"
  refine ⟨?_, hwide hlarge (by decide), hother '+' (by decide) (by decide) (by decide)⟩
  rw [hzeros 30 hgreatest]
  exact hid.mpr (Or.inr ⟨hgreatest, by decide⟩)

end ImageLint.AttributeValue
