import ImageLint.Validator.Artifact

/-!
# Bundled validators

The validators that come with the linter: one against copying whole directories, and one that serves
to try out how failures are handled. Each is an artifact in the form of a loadable library, which is
known by its name.
-/

namespace ImageLint.Bundled

/-- The code of the findings of the directory guard. -/
def copiedPath : String := "copiedPath"

/-- A deployment that copies a directory which is declared as one. -/
def copiesDeclaredDirectory (s : DeploymentStatement) : Bool :=
  s.sourcePath.isSome && s.hasValuedAttribute "type" "dir"

/-- Reports deployments of declared directories. -/
def guardDirectories (s : DeploymentStatement) : Inspection :=
  if copiesDeclaredDirectory s then
    let d := Diagnostic.warning "Copying whole directories from host is considered harmful"
    { reported := [{ d with code := some copiedPath }.atLocation s.location], ending := .succeeded }
  else .nothing

/-- The validator against copying whole directories. -/
def directoryGuard : Artifact where
  kitVersion := kitVersion
  entryPoint := "directory_guard::DirectoryGuard"
  construct := .ok {
    name := "directory-guard"
    checks := [.typed copiedPath .deploymentStatement guardDirectories] }

/-- The target path at which the faulty validator breaks off. -/
def faultyPath : String := "/panic"

/-- Reports every deployment but one, and breaks off at that one. -/
def seeDeployment (s : DeploymentStatement) : Inspection :=
  if s.path = faultyPath then
    { reported := [], ending := .brokeOff (.text ("refusing to inspect " ++ s.path)) }
  else
    { reported := [{ Diagnostic.warning ("seen " ++ s.path) with code := some "seen" }]
      ending := .succeeded }

/-- The validator with a failure. -/
def faultyValidator : Artifact where
  kitVersion := kitVersion
  entryPoint := "faulty_validator::FaultyValidator"
  construct := .ok {
    name := "faulty-validator"
    checks := [.typed "seen" .deploymentStatement seeDeployment] }

/-- What a loadable library holds. -/
inductive Library where
  | validator (a : Artifact)
  /-- A library that can be loaded and holds no validator. -/
  | empty
  /-- Nothing that can be loaded. -/
  | unknown

/-- The library with the given name. -/
def library (name : String) : Library :=
  if name = "directory-guard" then .validator directoryGuard
  else if name = "faulty-validator" then .validator faultyValidator
  else if name = "empty" then .empty
  else .unknown

/-- The name of the library in a file: the name of the file without `lib` in front, without what comes
after a dot, and with dashes for underscores. -/
def libraryName (fileName : String) : String :=
  let cs := fileName.toList.takeWhile (· ≠ '.')
  let cs := if "lib".toList.isPrefixOf cs then cs.drop 3 else cs
  String.ofList (cs.map fun c => if c = '_' then '-' else c)

end ImageLint.Bundled
