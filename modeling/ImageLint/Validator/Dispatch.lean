import ImageLint.Log
import ImageLint.Validator.Artifact

/-!
# Running a custom validator

Every node of a model is shown, in document order, to each check that accepts its kind, in the order
of the checks. A finding without a line takes the place of its node. A check that fails is logged,
and the others run as if it had not failed.
-/

namespace ImageLint.CustomValidator

/-- What the checks have found so far. -/
structure Progress where
  sink : Sink
  log : List Log.Line
  deriving DecidableEq, Repr

/-- The line of the log for a check that failed at a node. -/
def failure (v : CustomValidator) (n : Node) (c : Check) (e : CheckError) : Log.Line :=
  Log.error ("Custom validator " ++ v.entryPoint ++ " check '" ++ c.name ++ "' failed on " ++
    n.kind.name ++ ": " ++ e.text)

/-- Runs a check at a node. -/
def runCheck (v : CustomValidator) (n : Node) (p : Progress) (c : Check) : Progress :=
  let (sink, error) := c.run n p.sink
  { sink := sink.fillLocations p.sink.length n.location
    log := p.log ++ (error.map (v.failure n c)).toList }

/-- Runs the checks for a node. -/
def runNode (v : CustomValidator) (p : Progress) (n : Node) : Progress :=
  (v.checks.filter (·.appliesTo n)).foldl (v.runCheck n) p

/-- Runs the checks for every node of a model. -/
def run (v : CustomValidator) (m : Model) (file : Option String) : Progress :=
  m.nodes.foldl v.runNode { sink := .empty file, log := [] }

end ImageLint.CustomValidator
