import Mathlib.Data.List.Lex
import Mathlib.Tactic.SplitIfs

/-!
# Texts in the order of their bytes

Texts are compared character by character. The host compares paths byte by byte, as they are encoded.
Both orders agree: a character that comes later has the greater byte at the first place where the two
encodings differ.

* `encode_append_lt`: two characters in front of any bytes.
* `bytes_lt_bytes_iff`: two texts.
-/

namespace ImageLint.Text

/-- The bytes of a text as it is encoded. -/
def bytes (s : String) : List UInt8 := s.toUTF8.data.toList

theorem bytes_eq_flatMap (s : String) : bytes s = s.toList.flatMap String.utf8EncodeChar := by
  have hencoded : s.toUTF8 = s.toList.utf8Encode := by
    rw [← String.toByteArray_ofList, String.ofList_toList]
    rfl
  unfold bytes
  rw [hencoded]
  simp [List.utf8Encode]

theorem byte_cons_lt {m n : Nat} {as bs : List UInt8} (hn : n < 256) (h : m ≤ n)
    (hrest : m = n → as < bs) : UInt8.ofNat m :: as < UInt8.ofNat n :: bs := by
  rw [List.cons_lt_cons_iff]
  rcases Nat.lt_or_eq_of_le h with hmn | rfl
  · exact Or.inl ((UInt8.ofNat_lt_iff_lt (Nat.lt_trans hmn hn) hn).mpr hmn)
  · exact Or.inr ⟨rfl, hrest rfl⟩

/-- The encodings of two characters differ, and the earlier one has the smaller byte where they differ
first. So it does not matter what comes behind them. -/
theorem encode_append_lt {c d : Char} (h : c < d) (as bs : List UInt8) :
    String.utf8EncodeChar c ++ as < String.utf8EncodeChar d ++ bs := by
  have hcd : c.val.toNat < d.val.toNat := h
  have hd : d.val.toNat < 0x110000 := by
    have hvalid := d.valid
    simp only [UInt32.isValidChar, Nat.isValidChar] at hvalid
    omega
  unfold String.utf8EncodeChar
  generalize c.val.toNat = m at hcd ⊢
  generalize d.val.toNat = n at hcd hd ⊢
  dsimp only
  -- Byte after byte, the first one is not greater as long as the bytes before are equal.
  split_ifs <;> simp only [List.cons_append, List.nil_append] <;>
    repeat' (refine byte_cons_lt (by omega) (by omega) fun _ => ?_)
  all_goals omega

theorem encode_lt_encode {cs ds : List Char} (h : cs < ds) :
    cs.flatMap String.utf8EncodeChar < ds.flatMap String.utf8EncodeChar := by
  induction cs generalizing ds with
  | nil =>
    cases ds with
    | nil => exact absurd h (List.lt_irrefl [])
    | cons d ds =>
      rw [List.flatMap_nil, List.flatMap_cons]
      cases hd : String.utf8EncodeChar d with
      | nil => exact absurd hd String.utf8EncodeChar_ne_nil
      | cons b bs => exact List.nil_lt_cons b _
  | cons c cs ih =>
    cases ds with
    | nil => exact absurd h (List.not_lt_nil _)
    | cons d ds =>
      rw [List.flatMap_cons, List.flatMap_cons]
      rcases List.cons_lt_cons_iff.mp h with hcd | ⟨rfl, htail⟩
      · exact encode_append_lt hcd _ _
      · exact List.append_left_lt (ih htail)

/-- The order of texts is the order of their bytes. -/
theorem bytes_lt_bytes_iff {s t : String} : bytes s < bytes t ↔ s < t := by
  have hlt {s t : String} (h : s < t) : bytes s < bytes t := by
    rw [bytes_eq_flatMap, bytes_eq_flatMap]
    exact encode_lt_encode (String.lt_iff.mp h)
  refine ⟨fun h => ?_, hlt⟩
  by_contra hst
  have hts : ¬ t < s := fun hts => List.lt_irrefl _ (List.lt_trans h (hlt hts))
  have heq : s = t := String.le_antisymm (String.not_lt.mp hts) (String.not_lt.mp hst)
  exact hst (absurd (heq ▸ h) (List.lt_irrefl _))

end ImageLint.Text
