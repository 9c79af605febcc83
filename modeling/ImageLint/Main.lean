import ImageLint.Command.Lookup
import ImageLint.Command.Program
import ImageLint.Yaml.Config

/-!
# The command line

The outer layer: it takes a picture of what the run looks at on the host, lets the program run on the
picture, and prints and writes what comes out of it.
-/

namespace ImageLint

open Host Command

/-- The content of a file. What is no text is taken for a library. -/
def readContent (path : String) : IO FileContent := do
  let p := (← IO.currentDir) / path
  let bytes ← IO.FS.readBinFile p
  match String.fromUTF8? bytes with
  | some s => pure (.text s)
  | none => pure (.library (Bundled.libraryName (p.fileName.getD "")))

/-- What stands at a path, with everything below it. Contents are read only if they are wanted. -/
partial def readEntry (wantsContent : Bool) (path : String) : IO Entry := do
  let p := (← IO.currentDir) / path
  let info ← p.symlinkMetadata
  match info.type with
  | .dir => do
    let entries ← (← p.readDir).toList.mapM fun e => do
      pure (e.fileName, ← readEntry false (join path e.fileName))
    pure (.directory entries info.modified.sec)
  | .symlink => do
    let target ← try pure (toString (← IO.FS.realPath p)) catch _ => pure ""
    pure (.link target)
  | _ => do
    let content ← if wantsContent then readContent path else pure (.text "")
    pure (.file content info.modified.sec)

/-- Adds what a path leads to, if it leads anywhere, and the way it takes through links. -/
def addPath (wantsContent : Bool) (fs : FileSystem) (path : String) : IO FileSystem := do
  try
    let real := toString (← IO.FS.realPath ((← IO.currentDir) / path))
    let e ← readEntry wantsContent real
    let place := normalize fs.workingDirectory real
    let fs := (fs.graft place e).toOption.getD fs
    if normalize fs.workingDirectory path = place then pure fs
    else pure ((fs.change (.link path real)).toOption.getD fs)
  catch _ => pure fs

/-- Adds a directory, if there is one at a path, without what is below it. -/
def addDirectory (fs : FileSystem) (path : String) : IO FileSystem := do
  let p := (← IO.currentDir) / path
  if ← p.isDir then pure ((fs.makeDirectories path).toOption.getD fs) else pure fs

/-- Adds everything that a run looks at. -/
def addLookups (fs : FileSystem) (l : Lookups) : IO FileSystem := do
  let fs ← l.directories.foldlM addDirectory fs
  let fs ← l.walked.foldlM (addPath false) fs
  l.read.foldlM (addPath true) fs

/-- The environment of the program. -/
def readEnvironment : IO (List (String × String)) := do
  try
    let block ← IO.FS.readBinFile "/proc/self/environ"
    pure (parseEnvironment ((String.fromUTF8? block).getD ""))
  catch _ => pure []

/-- Writes the report file of a run, if there is one. -/
def writeReport (r : ProgramRun) : IO Unit :=
  match r.reportPath with
  | none => pure ()
  | some path =>
    match r.files.readText path with
    | .ok text => do IO.FS.writeFile ((← IO.currentDir) / path) text
    | .error _ => pure ()

end ImageLint

open ImageLint Command in
def main (arguments : List String) : IO UInt32 := do
  let environment ← readEnvironment
  let here := Host.normalize ⟨[]⟩ (toString (← IO.currentDir))
  let files ← addLookups (.bare here) (lookups Config.ofYaml (.bare here) environment arguments)
  let files ← addLookups files (lookups Config.ofYaml files environment arguments)
  let r := Command.run Config.ofYaml files environment arguments
  for l in r.log do
    IO.eprintln (l.level.name ++ ": " ++ l.message)
  try
    writeReport r
  catch e =>
    IO.eprintln ("error: IO error: " ++ toString e)
    return 1
  for n in r.notes do
    IO.eprintln n
  IO.print r.output
  return r.exitCode.toUInt32
