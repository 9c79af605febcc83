/-!
# Edit distance

The least number of insertions, deletions and substitutions of single characters that turn one
text into another, computed row by row: a row holds the distances from the characters read so far
to every beginning of the second text.
-/

namespace ImageLint.Suggestion

/-- The rest of the next row. `diag` and `left` are the neighbours of its first entry: the one
above on the left, and the one on the left. -/
def rowTail (c : Char) (diag left : Nat) : List Char → List Nat → List Nat
  | b :: bs, up :: ups =>
    let here := min (min (up + 1) (left + 1)) (diag + if c = b then 0 else 1)
    here :: rowTail c up here bs ups
  | _, _ => []

/-- The row after one more character of the first text. -/
def nextRow (b : List Char) (row : List Nat) (c : Char) : List Nat :=
  match row with
  | [] => []
  | d :: ds => (d + 1) :: rowTail c d (d + 1) b ds

/-- The row before the first character: every character is an insertion. -/
def firstRow (b : List Char) : List Nat := List.range (b.length + 1)

/-- The edit distance of two texts. -/
def editDistance (a b : List Char) : Nat :=
  ((a.foldl (nextRow b) (firstRow b)).getLast?).getD 0

end ImageLint.Suggestion
