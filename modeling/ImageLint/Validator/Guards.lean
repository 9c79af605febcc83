import ImageLint.Association

/-!
# References to opened artifacts

The code of an opened artifact must stay in place as long as anyone may run it. Each artifact that is
opened gets a number of its own, and the references to it are counted: by whoever holds one, and not
by looking for them. When the last reference goes the artifact is released.
-/

namespace ImageLint

/-- The opened artifacts and how many references there are to each. -/
structure Guards where
  /-- The artifacts that are in use, with the number of references. -/
  counts : List (Nat × Nat)
  /-- The artifacts that have been released, in order. -/
  released : List Nat
  /-- How many artifacts have been opened. -/
  opened : Nat
  deriving DecidableEq, Repr

namespace Guards

def empty : Guards := ⟨[], [], 0⟩

/-- The number of references to an artifact. -/
def count (g : Guards) (id : Nat) : Nat := (g.counts.lookup id).getD 0

/-- Sets the number of references to an artifact. -/
def setCount (g : Guards) (id n : Nat) : Guards :=
  { g with counts :=
      if n = 0 then Association.erase id g.counts else Association.set id n g.counts }

/-- One more artifact, with one reference, and its number. -/
def acquire (g : Guards) : Nat × Guards :=
  (g.opened, { g.setCount g.opened 1 with opened := g.opened + 1 })

/-- One more reference to an artifact. -/
def retain (g : Guards) (id : Nat) : Guards := g.setCount id (g.count id + 1)

/-- One reference less. Without any the artifact is released. -/
def release (g : Guards) (id : Nat) : Guards :=
  match g.count id with
  | 0 => g
  | 1 => { g.setCount id 0 with released := g.released ++ [id] }
  | n + 2 => g.setCount id (n + 1)

/-- A number that has been set is the one that is found. -/
theorem count_setCount (g : Guards) (id n other : Nat) :
    (g.setCount id n).count other = if other = id then n else g.count other := by
  unfold setCount count
  by_cases hn : n = 0
  · simp only [hn, if_true, Association.lookup_erase]
    split <;> rfl
  · simp only [hn, if_false, Association.lookup_set]
    split <;> rfl

end Guards

end ImageLint
