import ImageLint.Association
import ImageLint.Host.FileSystem
import ImageLint.Log
import ImageLint.Validator.Artifact
import ImageLint.Validator.Guards

/-!
# Loading custom validators

A loader remembers, for each normal path, how its last attempt to load a validator ended and which
time the artifact had. As long as the time is the same the answer is the same, a failure too; with
another time the artifact is opened again. The old validator is let go only after the new one has
taken its place. A journal tells in which order outcomes were remembered and forgotten and artifacts
were released.

`Loader.load` reads the time and then does the rest in one step, `Loader.loadStamped`. Between the
two the artifact may change and other loads may run.
-/

namespace ImageLint

open Host

/-- A reference to a validator that has been loaded. -/
structure Handle where
  /-- The number of the artifact among those that have been opened. -/
  id : Nat
  validator : CustomValidator

/-- How loading a validator ends. -/
abbrev LoadOutcome : Type := Except LoadError Handle

/-- The number of the artifact behind an outcome, if there is one. -/
def LoadOutcome.id? : LoadOutcome → Option Nat
  | .ok h => some h.id
  | .error _ => none

/-- What a loader remembers of a path. -/
structure CacheEntry where
  /-- The time of the artifact, if there was one. -/
  stamp : Option Int
  outcome : LoadOutcome

/-- What happens to the memory of a loader and to the artifacts that it opened. -/
inductive JournalEntry where
  /-- An outcome is remembered of a path, with the number of its artifact. -/
  | stored (key : NormalPath) (id : Option Nat)
  /-- Nothing is remembered of a path any more. -/
  | erased (key : NormalPath)
  /-- An artifact is released. -/
  | released (id : Nat)
  deriving DecidableEq, Repr

structure Loader where
  /-- What is remembered, at most once for each path. -/
  entries : List (NormalPath × CacheEntry)
  guards : Guards
  /-- The paths at which artifacts were opened, whether that worked or not. -/
  openings : List NormalPath
  /-- What happened so far, in order. -/
  journal : List JournalEntry

/-- What asking a loader for a validator yields. A handle in the outcome is a reference that the
caller has to drop. -/
structure Loading where
  loader : Loader
  outcome : LoadOutcome
  log : List Log.Line

namespace Loader

def empty : Loader := ⟨[], .empty, [], []⟩

def entry? (l : Loader) (key : NormalPath) : Option CacheEntry := l.entries.lookup key

/-- Takes one more reference to the validator of an outcome, if there is one. -/
def retain (l : Loader) : LoadOutcome → Loader
  | .ok h => { l with guards := l.guards.retain h.id }
  | .error _ => l

/-- Drops a reference to an artifact. With the last one the artifact is released. -/
def release (l : Loader) (id : Nat) : Loader :=
  { l with
    guards := l.guards.release id
    journal := l.journal ++ if l.guards.count id = 1 then [.released id] else [] }

/-- Drops a reference to the validator of an outcome, if there is one. -/
def drop (l : Loader) : LoadOutcome → Loader
  | .ok h => l.release h.id
  | .error _ => l

/-- Tries to load a validator. An artifact without a time that is not there is not opened. -/
def attempt (l : Loader) (opener : Opener) (isPresent : Bool) (key : NormalPath)
    (stamp : Option Int) : Loader × LoadOutcome :=
  if stamp.isNone && !isPresent then (l, .error (.missing key))
  else
    let l := { l with openings := l.openings ++ [key] }
    match opener key with
    | .error e => (l, .error e)
    | .ok artifact =>
      let (id, guards) := l.guards.acquire
      match artifact.instantiate key with
      | .ok validator => ({ l with guards }, .ok { id, validator })
      | .error e => (release { l with guards } id, .error e)

/-- Remembers an outcome, with a reference of its own, in the place of what was remembered. -/
def remember (l : Loader) (key : NormalPath) (e : CacheEntry) : Loader :=
  { l.retain e.outcome with
    entries := Association.set key e l.entries
    journal := l.journal ++ [.stored key e.outcome.id?] }

/-- A loader without what it remembers of a path. No reference is dropped. -/
def without (l : Loader) (key : NormalPath) : Loader :=
  { l with entries := Association.erase key l.entries, journal := l.journal ++ [.erased key] }

/-- The line of the log for an artifact that has another time than before. -/
def changedLine (key : NormalPath) : Log.Line :=
  Log.info ("Custom validator " ++ key.text ++ " changed, reloading")

/-- The lines of the log for a validator that has been loaded. -/
def loadedLines (key : NormalPath) : LoadOutcome → List Log.Line
  | .ok h => [Log.info ("Loaded custom validator " ++ h.validator.entryPoint ++ " from " ++
      key.text ++ " (" ++ toString h.validator.checks.length ++ " checks)")]
  | .error _ => []

/-- The lines of the log for what was remembered before. -/
def releasedLines : LoadOutcome → List Log.Line
  | .ok h => [Log.info ("Releasing custom validator " ++ h.validator.entryPoint)]
  | .error _ => []

/-- Tries to load a validator and remembers how that ends, in the place of a previous outcome. -/
def reload (l : Loader) (opener : Opener) (isPresent : Bool) (key : NormalPath)
    (stamp : Option Int) (previous : Option CacheEntry) : Loading :=
  let (l, outcome) := l.attempt opener isPresent key stamp
  let l := l.remember key { stamp, outcome }
  match previous with
  | none => { loader := l, outcome, log := loadedLines key outcome }
  | some e =>
    { loader := l.drop e.outcome
      outcome
      log := changedLine key :: (loadedLines key outcome ++ releasedLines e.outcome) }

/-- The validator of an artifact that had the given time a moment ago. -/
def loadStamped (l : Loader) (opener : Opener) (isPresent : Bool) (key : NormalPath)
    (stamp : Option Int) : Loading :=
  match l.entry? key with
  | none => l.reload opener isPresent key stamp none
  | some e =>
    if e.stamp = stamp then { loader := l.retain e.outcome, outcome := e.outcome, log := [] }
    else l.reload opener isPresent key stamp (some e)

/-- The validator of an artifact. -/
def load (l : Loader) (fs : FileSystem) (opener : Opener) (path : String) : Loading :=
  let key := normalize fs.workingDirectory path
  l.loadStamped opener (fs.isPresent key.text) key (fs.modified? key.text)

/-- Forgets what is remembered of a normal path, and says whether there was anything. -/
def forgetKey (l : Loader) (key : NormalPath) : Loader × Bool :=
  match l.entry? key with
  | none => (l, false)
  | some e => ((l.without key).drop e.outcome, true)

/-- Forgets what is remembered of a path, and says whether there was anything. -/
def forget (l : Loader) (workingDirectory : NormalPath) (path : String) : Loader × Bool :=
  l.forgetKey (normalize workingDirectory path)

/-- Whether anything is remembered of a path. -/
def isCached (l : Loader) (workingDirectory : NormalPath) (path : String) : Bool :=
  (l.entry? (normalize workingDirectory path)).isSome

end Loader

end ImageLint
