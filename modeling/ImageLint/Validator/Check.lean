import ImageLint.Model.Node

/-!
# Checks of custom validators

A check looks at one node at a time. It reports findings and then succeeds, fails or breaks off; a
check that breaks off counts as one that failed. What it reported stands in any case.

The findings go into a sink, which knows the file that is checked.
-/

namespace ImageLint

/-- Collects the findings about one file. -/
structure Sink where
  file : Option String
  diagnostics : List Diagnostic
  deriving DecidableEq, Repr

namespace Sink

def empty (file : Option String) : Sink := ⟨file, []⟩

/-- Adds a finding. It is about the file unless it names another. -/
def report (s : Sink) (d : Diagnostic) : Sink :=
  { s with diagnostics := s.diagnostics ++ [d.fillFile s.file] }

/-- Adds findings in order. -/
def reportAll (s : Sink) (ds : List Diagnostic) : Sink := ds.foldl report s

/-- Gives the findings from the given place on a location, unless they have a line. -/
def fillLocations (s : Sink) (start : Nat) (location : Option Location) : Sink :=
  { s with diagnostics :=
      s.diagnostics.take start ++ (s.diagnostics.drop start).map (·.fillLocation location) }

def length (s : Sink) : Nat := s.diagnostics.length

/-- Findings are added at the end. -/
theorem reportAll_eq (s : Sink) (ds : List Diagnostic) :
    s.reportAll ds = { s with diagnostics := s.diagnostics ++ ds.map (·.fillFile s.file) } := by
  induction ds generalizing s with
  | nil => simp [reportAll]
  | cons d ds ih =>
    have h : s.reportAll (d :: ds) = (s.report d).reportAll ds := rfl
    rw [h, ih]
    simp [report]

end Sink

/-- Why a check did not succeed. -/
inductive CheckError where
  | message (text : String)
  | io (text : String)
  /-- The check broke off. -/
  | panicked (text : String)
  deriving DecidableEq, Repr

/-- The error in words. -/
def CheckError.text : CheckError → String
  | .message text => text
  | .io text => "io error: " ++ text
  | .panicked text => "panicked: " ++ text

/-- What is known of a computation that broke off. -/
inductive Panic where
  | text (message : String)
  /-- It left something other than a text. -/
  | other
  deriving DecidableEq, Repr

def Panic.message : Panic → String
  | .text message => message
  | .other => "panicked"

/-- How a check ends. -/
inductive Ending where
  | succeeded
  | failed (e : CheckError)
  | brokeOff (p : Panic)
  deriving DecidableEq, Repr

/-- The error of a check, if it has one. -/
def Ending.error? : Ending → Option CheckError
  | .succeeded => none
  | .failed e => some e
  | .brokeOff p => some (.panicked p.message)

/-- What a check does at a node. -/
structure Inspection where
  reported : List Diagnostic
  ending : Ending
  deriving DecidableEq, Repr

namespace Inspection

/-- Nothing to report. -/
def nothing : Inspection := ⟨[], .succeeded⟩

end Inspection

/-- A check for nodes of one kind. -/
structure Check where
  name : String
  accepts : NodeKind
  inspect : Node → Inspection

/-- What nodes of a kind hold. -/
abbrev NodeKind.Part : NodeKind → Type
  | .model => Model
  | .attributeStatement => AttributeStatement
  | .deploymentStatement => DeploymentStatement
  | .attributeSection => AttributeSection
  | .booleanAttribute => BooleanAttribute
  | .valuedAttribute => ValuedAttribute
  | .contentBlock => ContentBlock
  | .path => PathContent

/-- What a node holds, if it is of the given kind. -/
def Node.part? : (k : NodeKind) → Node → Option k.Part
  | .model, .model m => some m
  | .attributeStatement, .attributeStatement s => some s
  | .deploymentStatement, .deploymentStatement s => some s
  | .attributeSection, .attributeSection s => some s
  | .booleanAttribute, .booleanAttribute a => some a
  | .valuedAttribute, .valuedAttribute a => some a
  | .contentBlock, .contentBlock b => some b
  | .path, .path p => some p
  | _, _ => none

namespace Check

/-- A check that looks at what nodes of one kind hold, and at no other node. -/
def typed (name : String) (k : NodeKind) (inspect : k.Part → Inspection) : Check where
  name
  accepts := k
  inspect n :=
    match n.part? k with
    | some part => inspect part
    | none => .nothing

/-- Whether a check is for a node. -/
def appliesTo (c : Check) (n : Node) : Bool := c.accepts = n.kind

/-- Runs a check at a node. -/
def run (c : Check) (n : Node) (s : Sink) : Sink × Option CheckError :=
  let i := c.inspect n
  (s.reportAll i.reported, i.ending.error?)

end Check

end ImageLint
