import ImageLint.Host.Path

/-!
# The file system of the host

A finite tree of directories, files and symbolic links. A path is followed as the host follows it:
component by component, through symbolic links, and up by two dots in the tree and not in the text.
`FileSystem.follow` is the one place where that is done; everything else asks it.
-/

namespace ImageLint.Host

/-- What a file holds. -/
inductive FileContent where
  | text (s : String)
  /-- A loadable library, which is not a text. -/
  | library (name : String)
  deriving DecidableEq, Repr

/-- What a name in a directory stands for. Times are in seconds. -/
inductive Entry where
  | file (content : FileContent) (modified : Int)
  | link (target : String)
  | directory (entries : List (String × Entry)) (modified : Int)
  deriving Repr

instance : Inhabited Entry := ⟨.directory [] 0⟩

namespace Entry

def isDirectory : Entry → Bool
  | .directory .. => true
  | _ => false

def isFile : Entry → Bool
  | .file .. => true
  | _ => false

/-- The names in a directory. Nothing else has any. -/
def entries : Entry → List (String × Entry)
  | .directory entries _ => entries
  | _ => []

def child? (e : Entry) (name : String) : Option Entry := e.entries.lookup name

/-- The entry at the end of a way through directories. Links are not followed. -/
def at? (e : Entry) : List String → Option Entry
  | [] => some e
  | name :: rest =>
    match e.child? name with
    | some c => c.at? rest
    | none => none

/-- When a file or the list of a directory was last changed. -/
def modified : Entry → Int
  | .file _ t => t
  | .link _ => 0
  | .directory _ t => t

end Entry

/-- Why a path leads nowhere. -/
inductive PathError where
  | notFound
  | notDirectory
  | isDirectory
  | tooManyLinks
  | nameTooLong
  | zeroByte
  /-- The file is not a text. -/
  | notText
  deriving DecidableEq, Repr

/-- An error as the host words it. -/
def PathError.message : PathError → String
  | .notFound => "No such file or directory (os error 2)"
  | .notDirectory => "Not a directory (os error 20)"
  | .isDirectory => "Is a directory (os error 21)"
  | .tooManyLinks => "Too many levels of symbolic links (os error 40)"
  | .nameTooLong => "File name too long (os error 36)"
  | .zeroByte => "file name contained an unexpected NUL byte"
  | .notText => "stream did not contain valid UTF-8"

/-- A host as far as the linter can see it. -/
structure FileSystem where
  root : Entry
  workingDirectory : NormalPath
  /-- The time at which the next change of a directory is made. -/
  clock : Int

/-- Where a path leads. -/
inductive Place where
  | found (here : NormalPath) (entry : Entry)
  /-- There is nothing, but the directory it would be in exists. -/
  | absent (directory : NormalPath) (name : String)

namespace FileSystem

/-- The greatest number of links on the way of a path. -/
def maxLinks : Nat := 40

/-- The greatest length of a name in bytes. -/
def maxName : Nat := 255

/-- The entry at a normal path. -/
def entry? (fs : FileSystem) (p : NormalPath) : Option Entry := fs.root.at? p.names

/-- Whether nothing but slashes comes behind a name. -/
def isSlashed (rest : List String) : Bool := !rest.isEmpty && rest.all String.isEmpty

/-- Follows pieces of a path from a directory. At most `links` symbolic links are followed. On the way
to a file that is to be written the last name may have no slash behind it. -/
def follow (fs : FileSystem) (toWrite : Bool) (links : Nat) (here : NormalPath)
    (todo : List String) : Except PathError Place :=
  match todo with
  | [] =>
    match fs.entry? here with
    | some e => .ok (.found here e)
    | none => .error .notFound
  | piece :: rest =>
    match component? piece with
    | none => follow fs toWrite links here rest
    | some .parent => follow fs toWrite links (here.step .parent) rest
    | some (.normal name) =>
      if toWrite && isSlashed rest then .error .isDirectory
      else if name.utf8ByteSize > maxName then .error .nameTooLong
      else
        let there := here.step (.normal name)
        match fs.entry? there with
        | none => if rest.isEmpty then .ok (.absent here name) else .error .notFound
        | some (.directory ..) => follow fs toWrite links there rest
        | some (.file c t) =>
          if rest.isEmpty then .ok (.found there (.file c t)) else .error .notDirectory
        | some (.link target) =>
          match links with
          | 0 => .error .tooManyLinks
          | links + 1 =>
            follow fs toWrite links (if isAbsolute target then ⟨[]⟩ else here)
              (pieces target ++ rest)
    | some _ => follow fs toWrite links here rest
termination_by (links, todo.length)

/-- The directory in which a path begins. -/
def origin (fs : FileSystem) (path : String) : NormalPath :=
  if isAbsolute path then ⟨[]⟩ else fs.workingDirectory

/-- Where a path leads, or the place where it would be. -/
def resolve (fs : FileSystem) (toWrite : Bool) (path : String) : Except PathError Place :=
  if path = "" then .error .notFound
  else if path.toList.contains '\x00' then .error .zeroByte
  else fs.follow toWrite maxLinks (fs.origin path) (pieces path)

/-- Where a path leads, or the place where it would be. -/
def locate (fs : FileSystem) (path : String) : Except PathError Place := fs.resolve false path

/-- What a path leads to. -/
def find (fs : FileSystem) (path : String) : Except PathError Entry :=
  match fs.locate path with
  | .ok (.found _ e) => .ok e
  | .ok (.absent ..) => .error .notFound
  | .error e => .error e

/-- Whether a path leads to anything. -/
def isPresent (fs : FileSystem) (path : String) : Bool := (fs.find path).isOk

def isDirectory (fs : FileSystem) (path : String) : Bool :=
  match fs.find path with
  | .ok e => e.isDirectory
  | .error _ => false

def isFile (fs : FileSystem) (path : String) : Bool :=
  match fs.find path with
  | .ok e => e.isFile
  | .error _ => false

/-- When what a path leads to was last changed. -/
def modified? (fs : FileSystem) (path : String) : Option Int :=
  match fs.find path with
  | .ok e => some e.modified
  | .error _ => none

/-- The content of a file. -/
def contentOf (fs : FileSystem) (path : String) : Except PathError FileContent :=
  match fs.find path with
  | .ok (.file content _) => .ok content
  | .ok _ => .error .isDirectory
  | .error e => .error e

/-- The text of a file. -/
def readText (fs : FileSystem) (path : String) : Except PathError String :=
  match fs.contentOf path with
  | .ok (.text s) => .ok s
  | .ok (.library _) => .error .notText
  | .error e => .error e

end FileSystem

end ImageLint.Host
