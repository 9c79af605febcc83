import ImageLint.Text.Case.Data

/-!
# Lower case of a text

The full lower case mapping of the Unicode standard: character by character, except that a capital
I with a dot above becomes two characters, and that a capital sigma at the end of a word becomes a
final sigma.
-/

namespace ImageLint.Text

namespace Case

/-- Whether `c` lies in one of the ranges. -/
def inRanges (ranges : List (Nat × Nat)) (c : Char) : Bool :=
  ranges.any fun r => r.1 ≤ c.toNat && c.toNat ≤ r.2

/-- The lower case of a single character, without regard to its neighbours. -/
def lowerChar (c : Char) : Char :=
  match lowerRuns.find? fun r =>
      r.1 ≤ c.toNat && c.toNat ≤ r.2.1 && (c.toNat - r.1) % r.2.2.1 == 0 with
  | some r => Char.ofNat (c.toNat - r.1 + r.2.2.2)
  | none => c

/-- Whether the first character that is not case-ignorable is cased. -/
def startsCased (cs : List Char) : Bool :=
  match cs.dropWhile (inRanges ignorableRanges) with
  | [] => false
  | c :: _ => inRanges casedRanges c

/-- The lower case of `cs`, where `before` holds what stands before it, nearest first. -/
def lowerAfter (before : List Char) : List Char → List Char
  | [] => []
  | c :: cs =>
    let low :=
      if c = '\u03a3' then
        if startsCased before && !startsCased cs then ['\u03c2'] else ['\u03c3']
      else if c = '\u0130' then ['i', '\u0307']
      else [lowerChar c]
    low ++ lowerAfter (c :: before) cs

end Case

/-- The lower case of a text. -/
def lower (s : String) : String := String.ofList (Case.lowerAfter [] s.toList)

end ImageLint.Text
