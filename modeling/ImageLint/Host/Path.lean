import ImageLint.Text.Pieces

/-!
# Paths on the host

A path is kept as it is written. Its components leave out what does not matter: doubled slashes, a
slash at the end, and dots other than a first one. Two paths are the same if their components are.

A normal path is absolute and free of dots: the names on the way from the root. It is found without
looking at the host, by folding the components of a path that starts in the working directory.
-/

namespace ImageLint.Host

/-- One component of a path. -/
inductive Component where
  | root
  | current
  | parent
  | normal (name : String)
  deriving DecidableEq, Repr

/-- A path that starts at the root. -/
def isAbsolute (path : String) : Bool := path.toList.head? = some '/'

/-- The pieces of a path between its slashes. -/
def pieces (path : String) : List String := Text.split '/' path

/-- The component that a piece stands for, unless it says nothing. -/
def component? (piece : String) : Option Component :=
  if piece = "" || piece = "." then none
  else if piece = ".." then some .parent
  else some (.normal piece)

/-- The components of a path. A dot counts only at the start. -/
def components (path : String) : List Component :=
  let rest := (pieces path).filterMap component?
  if isAbsolute path then .root :: rest
  else if (pieces path).head? = some "." then .current :: rest
  else rest

/-- Two spellings of one path. -/
def samePath (a b : String) : Bool := components a = components b

/-- The path `b` as it is seen from the directory `a`. -/
def join (a b : String) : String :=
  if isAbsolute b then b
  else if a = "" || a.toList.getLast? = some '/' then a ++ b
  else a ++ "/" ++ b

/-- Drops pieces at the end that say nothing. The first piece stays. -/
def dropEmpty : List String → List String
  | [] => []
  | [p] => [p]
  | p :: rest =>
    match dropEmpty rest with
    | [q] => if component? q = none then [p] else [p, q]
    | kept => p :: kept

/-- The directory that a path lies in, as it is written. -/
def parent? (path : String) : Option String :=
  match dropEmpty (pieces path) with
  | [] => none
  | [p] => if p = "" then none else some ""
  | kept =>
    let rest := dropEmpty kept.dropLast
    some (if rest = [""] then "/" else Text.join "/" rest)

/-- The names on the way from the root to a file. -/
structure NormalPath where
  names : List String
  deriving DecidableEq, Repr

namespace NormalPath

/-- A normal path as it is written. -/
def text (p : NormalPath) : String := "/" ++ Text.join "/" p.names

/-- One component further. Going up from the root stays at the root. -/
def step (p : NormalPath) : Component → NormalPath
  | .root => ⟨[]⟩
  | .current => p
  | .parent => ⟨p.names.dropLast⟩
  | .normal name => ⟨p.names ++ [name]⟩

end NormalPath

/-- The normal form of a path that is seen from a working directory. -/
def normalize (workingDirectory : NormalPath) (path : String) : NormalPath :=
  (components path).foldl NormalPath.step workingDirectory

end ImageLint.Host
