import ImageLint.Model.Node
import ImageLint.Rule

/-!
# Duplicate target paths

Two deployments with the same target path get in each other's way. The deployments of a model are
grouped by their path, in the order of the first deployment of each path, and every member of a
group of two or more is reported.
-/

namespace ImageLint.Duplicate

/-- The deployments with one target path. -/
structure Group where
  path : String
  members : List DeploymentStatement
  deriving DecidableEq, Repr

/-- Adds a deployment to the group of its path, or begins that group at the end. -/
def addTo (s : DeploymentStatement) : List Group → List Group
  | [] => [⟨s.path, [s]⟩]
  | g :: gs => if g.path = s.path then { g with members := g.members ++ [s] } :: gs
    else g :: addTo s gs

/-- Groups the deployments of a model as they are visited. -/
def visitor : Visitor (List Group) where
  deploymentStatement := addTo

/-- The deployments of a model by target path. -/
def groups (m : Model) : List Group := m.walk visitor []

/-- The finding for a member of a group. -/
def finding (g : Group) (s : DeploymentStatement) : Diagnostic :=
  { (Rule.duplicatePath.diagnostic ("Duplicate path " ++ g.path)).atLocation s.location with
    context := some (toString g.members.length ++ " deployments target " ++ g.path) }

/-- The findings of a group. -/
def Group.findings (g : Group) : List Diagnostic :=
  if g.members.length > 1 then g.members.map (finding g) else []

end ImageLint.Duplicate

namespace ImageLint

/-- A finding for every deployment whose target path is used more than once. -/
def Model.duplicatePaths (m : Model) : List Diagnostic :=
  (Duplicate.groups m).flatMap Duplicate.Group.findings

end ImageLint
