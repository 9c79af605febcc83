import ImageLint.Association
import ImageLint.Host.FileSystem

/-!
# Changing the host

Making directories, writing files, setting times, making links and removing files. A change goes
through `Entry.alter`, which replaces the entry at the end of a way and leaves every other entry as
it was. Each new name in a directory, and each name that goes, moves the time of that directory.
-/

namespace ImageLint.Host

namespace Entry

/-- Replaces the entry at the end of a way, or removes it if there is no new one. Nothing happens
unless the way leads through directories. -/
def alter (time : Int) (new : Option Entry) : List String → Entry → Entry
  | [], e => new.getD e
  | [name], .directory entries t =>
    match entries.lookup name, new with
    | some _, some n => .directory (Association.set name n entries) t
    | none, some n => .directory (Association.set name n entries) time
    | some _, none => .directory (Association.erase name entries) time
    | none, none => .directory entries t
  | name :: rest, .directory entries t =>
    match entries.lookup name with
    | some e => .directory (Association.set name (alter time new rest e) entries) t
    | none => .directory entries t
  | _, e => e

/-- The same entry with another time. -/
def withTime (t : Int) : Entry → Entry
  | .file content _ => .file content t
  | .directory entries _ => .directory entries t
  | .link target => .link target

end Entry

namespace FileSystem

/-- Replaces the entry at a normal path, or removes it. -/
def alter (fs : FileSystem) (p : NormalPath) (new : Option Entry) : FileSystem :=
  { fs with root := fs.root.alter fs.clock new p.names, clock := fs.clock + 1 }

/-- Makes the directory that a path leads to, if there is nothing yet. -/
def makeDirectory (fs : FileSystem) (path : String) : Except PathError FileSystem :=
  match fs.locate path with
  | .ok (.found _ (.directory ..)) => .ok fs
  | .ok (.found ..) => .error .notDirectory
  | .ok (.absent here name) => .ok (fs.alter (here.step (.normal name)) (some (.directory [] fs.clock)))
  | .error e => .error e

/-- The directories on the way of a path, as they are written, and the path itself. -/
def stages (path : String) : List String :=
  (List.range (pieces path).length).map fun n =>
    let ps := (pieces path).take (n + 1)
    if ps = [""] then "/" else Text.join "/" ps

/-- Makes the directory that a path leads to and those on its way. -/
def makeDirectories (fs : FileSystem) (path : String) : Except PathError FileSystem :=
  (stages path).foldlM makeDirectory fs

/-- Makes the directory that a path lies in. -/
def makeParents (fs : FileSystem) (path : String) : Except PathError FileSystem :=
  match parent? path with
  | none | some "" => .ok fs
  | some directory => fs.makeDirectories directory

/-- Writes a file, which is new or loses what it held. Links are followed. -/
def writeFile (fs : FileSystem) (path : String) (content : FileContent) (modified : Int) :
    Except PathError FileSystem :=
  match fs.resolve true path with
  | .ok (.found p (.file ..)) => .ok (fs.alter p (some (.file content modified)))
  | .ok (.found ..) => .error .isDirectory
  | .ok (.absent here name) =>
    .ok (fs.alter (here.step (.normal name)) (some (.file content modified)))
  | .error e => .error e

/-- Sets the time of what a path leads to. -/
def setModified (fs : FileSystem) (path : String) (modified : Int) : Except PathError FileSystem :=
  match fs.locate path with
  | .ok (.found p e) => .ok { fs with root := fs.root.alter 0 (some (e.withTime modified)) p.names }
  | .ok (.absent ..) => .error .notFound
  | .error e => .error e

/-- The place of the last name of a path. A link at that place is not followed. -/
def locateName (fs : FileSystem) (path : String) : Except PathError (NormalPath × String) := do
  let ps := dropEmpty (pieces path)
  match ps.getLast? with
  | none => throw .notFound
  | some name =>
    if (component? name).isNone || name = ".." then throw .isDirectory
    match ← fs.follow false maxLinks (fs.origin path) ps.dropLast with
    | .found p (.directory ..) => pure (p, name)
    | _ => throw .notFound

/-- Makes a symbolic link, in the place of another link or of a file. -/
def makeLink (fs : FileSystem) (path target : String) : Except PathError FileSystem := do
  let (p, name) ← fs.locateName path
  let there := p.step (.normal name)
  match fs.entry? there with
  | some (.directory ..) => throw .isDirectory
  | _ => pure (fs.alter there (some (.link target)))

/-- Removes a file or a link. A link is not followed. -/
def removeFile (fs : FileSystem) (path : String) : Except PathError FileSystem := do
  let (p, name) ← fs.locateName path
  let there := p.step (.normal name)
  match fs.entry? there with
  | none => throw .notFound
  | some (.directory ..) => throw .isDirectory
  | some (.link _) | some (.file ..) =>
    if path.toList.getLast? = some '/' then throw .notDirectory
    pure (fs.alter there none)

/-- Puts an entry at a place, with everything below it, and makes the directories on the way. -/
def graft (fs : FileSystem) (p : NormalPath) (e : Entry) : Except PathError FileSystem := do
  let fs ← fs.makeDirectories (NormalPath.text ⟨p.names.dropLast⟩)
  pure (fs.alter p (some e))

/-- A host with nothing on it but the working directory and the directories on the way there. -/
def bare (workingDirectory : NormalPath) : FileSystem where
  root := workingDirectory.names.foldr (fun name e => .directory [(name, e)] 0) (.directory [] 0)
  workingDirectory
  clock := 1

end FileSystem

/-- A change of the host from outside. -/
inductive Change where
  | directory (path : String)
  | file (path : String) (content : FileContent) (modified : Int)
  | link (path target : String)
  | time (path : String) (modified : Int)
  | removal (path : String)
  deriving DecidableEq, Repr

/-- Makes a change. Directories on the way to something new are made too. -/
def FileSystem.change (fs : FileSystem) : Change → Except PathError FileSystem
  | .directory path => fs.makeDirectories path
  | .file path content modified => do
    let fs ← fs.makeParents path
    fs.writeFile path content modified
  | .link path target => do
    let fs ← fs.makeParents path
    fs.makeLink path target
  | .time path modified => fs.setModified path modified
  | .removal path => fs.removeFile path

/-- Makes changes one after another. One that cannot be made is left out. -/
def FileSystem.changeAll (fs : FileSystem) (changes : List Change) : FileSystem :=
  changes.foldl (fun fs c => (fs.change c).toOption.getD fs) fs

end ImageLint.Host
