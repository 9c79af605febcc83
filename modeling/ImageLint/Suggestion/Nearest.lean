import ImageLint.Suggestion.EditDistance
import ImageLint.Text.Case

/-!
# Names that may have been meant

For a name that is not known, the known names that come close to it: at most three, at a distance
of at most four without regard to case, the nearest first and in alphabetical order among equals.
-/

namespace ImageLint.Suggestion

/-- A name that may have been meant, with its distance. -/
structure Candidate where
  distance : Nat
  name : String
  deriving DecidableEq, Repr

/-- The greatest distance of a suggestion. -/
def maxDistance : Nat := 4

/-- The greatest number of suggestions. -/
def maxCount : Nat := 3

/-- The nearer name comes first, then the one that is alphabetically first. -/
def Candidate.le (a b : Candidate) : Bool :=
  a.distance < b.distance || (a.distance = b.distance && a.name ≤ b.name)

/-- The distance of two names without regard to case. -/
def distance (unknown name : String) : Nat :=
  editDistance (Text.lower unknown).toList (Text.lower name).toList

/-- A name as a candidate, if it is near enough. -/
def candidate? (unknown name : String) : Option Candidate :=
  let d := distance unknown name
  if d ≤ maxDistance then some ⟨d, name⟩ else none

/-- Every name that is near enough, the nearest first, each once. -/
def ranked (unknown : String) (names : List String) : List Candidate :=
  ((names.filterMap (candidate? unknown)).mergeSort Candidate.le).eraseReps

/-- The names that may have been meant. -/
def nearest (unknown : String) (names : List String) : List String :=
  ((ranked unknown names).take maxCount).map Candidate.name

end ImageLint.Suggestion
