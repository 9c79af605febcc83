import ImageLint.Host.FileSystem
import ImageLint.Model.Basic
import ImageLint.Rule

/-!
# Deployments of whole directories

A deployment that copies a directory of the host takes along whatever happens to lie there. It is
reported with what to write instead: one deployment for each file in the directory.

This is advice. It stands apart from the findings of the other rules, and it is the only analysis
that looks at the host.
-/

namespace ImageLint

/-- A deployment of a whole directory. -/
structure DirectoryDeployment where
  targetPath : String
  sourcePath : String
  location : Option Location
  warning : Diagnostic
  /-- What to write instead, unless the source is no directory of this host. -/
  suggestions : Option (List String)
  deriving DecidableEq, Repr

/-- Whether there is anything to write instead. -/
def DirectoryDeployment.hasSuggestions (d : DirectoryDeployment) : Bool :=
  match d.suggestions with
  | some (_ :: _) => true
  | _ => false

namespace Host

mutual

/-- The ways to everything below an entry that is not a directory. Links are not followed. -/
def Entry.leaves : Entry → List (List String)
  | .directory entries _ => leavesOf entries
  | _ => [[]]

/-- The ways that begin with a name in a directory. -/
def Entry.leavesOf : List (String × Entry) → List (List String)
  | [] => []
  | (name, e) :: rest => e.leaves.map (name :: ·) ++ leavesOf rest

end

namespace FileSystem

/-- The way to a place below a directory, as a path. -/
def below (source : String) (way : List String) : String := join source (Text.join "/" way)

/-- The ways to the files in a directory, in the order of their paths. A link to a file is one. -/
def filesBelow (fs : FileSystem) (source : String) (directory : Entry) : List (List String) :=
  (directory.leaves.filter fun way => fs.isFile (below source way)).mergeSort
    fun a b => decide (below source a ≤ below source b)

end FileSystem

end Host

namespace DirectoryDeployment

open Host

/-- The deployment of one file below a target, as it is written. -/
def line (target source : String) (way : List String) : String :=
  let slash := if target.toList.getLast? = some '/' then "" else "/"
  target ++ slash ++ Text.join "/" way ++ " = " ++ FileSystem.below source way

/-- A line for each file in a directory, unless the source is no directory. -/
def suggest (fs : FileSystem) (target source : String) : Option (List String) :=
  match fs.find source with
  | .ok (.directory entries t) =>
    some ((fs.filesBelow source (.directory entries t)).map (line target source))
  | _ => none

/-- Whether a deployment copies a directory: one that exists, or one that is declared as such and
does not exist. -/
def copiesDirectory (fs : FileSystem) (s : DeploymentStatement) (source : String) : Bool :=
  if fs.isPresent source then fs.isDirectory source else s.hasValuedAttribute "type" "dir"

/-- The finding for a deployment of a directory. -/
def finding (file : Option String) (s : DeploymentStatement) (source : String) : Diagnostic :=
  ((Rule.directoryDeployment.diagnostic
    ("Directory deployment: " ++ s.path ++ " = " ++ source)).atLocation s.location).inFile file

/-- The deployment of a directory, if a statement is one. -/
def ofStatement? (fs : FileSystem) (file : Option String) (s : DeploymentStatement) :
    Option DirectoryDeployment :=
  match s.sourcePath with
  | none => none
  | some source =>
    if copiesDirectory fs s source then
      some {
        targetPath := s.path
        sourcePath := source
        location := s.location
        warning := finding file s source
        suggestions := suggest fs s.path source }
    else none

end DirectoryDeployment

/-- The deployments of directories in a model, in document order. -/
def Model.directoryDeployments (m : Model) (fs : Host.FileSystem) (file : Option String) :
    List DirectoryDeployment :=
  m.deployments.filterMap (DirectoryDeployment.ofStatement? fs file)

end ImageLint
