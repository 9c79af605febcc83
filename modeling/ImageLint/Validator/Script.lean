import ImageLint.Document.Decoder
import ImageLint.Validator.Artifact

/-!
# Scripted validators

A validator may be written down instead of built: as a JSON object with the checks and, for each
check, clauses that say what to do at a node whose text meets a condition. A script can also say that
opening it fails or that making its validator breaks off.
-/

namespace ImageLint.Script

/-- How the text of a node is compared. -/
inductive Comparison where
  | equal
  | startsWith
  | endsWith
  | contains
  deriving DecidableEq, Repr

/-- A condition on the text of a node. -/
structure Condition where
  comparison : Comparison
  value : String
  deriving DecidableEq, Repr

/-- Whether `part` stands somewhere in `cs`. -/
def occursIn (part : List Char) : List Char → Bool
  | [] => part.isEmpty
  | c :: cs => part.isPrefixOf (c :: cs) || occursIn part cs

def Condition.holds (c : Condition) (text : String) : Bool :=
  match c.comparison with
  | .equal => text = c.value
  | .startsWith => c.value.toList.isPrefixOf text.toList
  | .endsWith => c.value.toList.isSuffixOf text.toList
  | .contains => occursIn c.value.toList text.toList

/-- One thing to do at a node. -/
inductive Action where
  | report (d : Diagnostic)
  | stop (e : Ending)
  deriving DecidableEq, Repr

/-- What to do at the nodes that meet a condition, or at every node. -/
structure Clause where
  condition : Option Condition
  actions : List Action
  deriving DecidableEq, Repr

/-- A pair of braces stands for the text of the node. -/
def fill (text : List Char) : List Char → List Char
  | '\x7b' :: '\x7d' :: cs => text ++ fill text cs
  | c :: cs => c :: fill text cs
  | [] => []

/-- Does one thing after another until one ends the check. -/
def perform (text : String) : List Action → Inspection
  | [] => .nothing
  | .report d :: rest =>
    let i := perform text rest
    let message := String.ofList (fill text.toList d.message.toList)
    { i with reported := { d with message } :: i.reported }
  | .stop e :: _ => { reported := [], ending := e }

/-- What the clauses of a check do at a node. -/
def inspect (clauses : List Clause) (n : Node) : Inspection :=
  let text := n.text
  let applicable := clauses.filter fun c =>
    match c.condition with
    | some condition => condition.holds text
    | none => true
  perform text (applicable.flatMap Clause.actions)

/-- A check as it is written down. -/
structure CheckText where
  name : String
  accepts : String
  /-- Whether the check passes over nodes of other kinds by itself. -/
  typed : Bool
  clauses : List Clause
  deriving DecidableEq, Repr

/-- The check, unless there is no such kind of nodes. -/
def CheckText.check (c : CheckText) : Except Panic Check :=
  match NodeKind.ofName? c.accepts with
  | none => .error (.text ("unknown node kind " ++ c.accepts))
  | some k =>
    .ok {
      name := c.name
      accepts := k
      inspect n := if c.typed && n.kind ≠ k then .nothing else inspect c.clauses n }

/-! ## Reading scripts -/

/-- The text of a member, or another text if there is none. -/
def textOr (v : Json) (name default : String) : String :=
  match v.get? name with
  | some (.string s) => s
  | _ => default

/-- The items of a member that is an array. -/
def items (v : Json) (name : String) : List Json :=
  match v.get? name with
  | some (.array vs) => vs
  | _ => []

/-- The panic that a member holds. -/
def panic? (v : Json) (name other : String) : Option Panic :=
  match v.get? name, v.get? other with
  | some (.string s), _ => some (.text s)
  | _, some (.bool true) => some .other
  | _, _ => none

def Comparison.ofName? (name : String) : Option Comparison :=
  [("eq", .equal), ("prefix", .startsWith), ("suffix", .endsWith), ("contains", .contains)].lookup
    name

/-- A condition with an unknown comparison never holds, so its clause is left out. -/
def Condition.ofJson? (v : Json) : Option Condition := do
  let comparison ← Comparison.ofName? (textOr v "op" "")
  some { comparison, value := textOr v "value" "" }

def Action.ofJson? (v : Json) : Option Action :=
  match v.get? "report", v.get? "fail", v.get? "fail_io" with
  | some d, _, _ =>
    match Diagnostic.ofTree (Json.Tree.ofJson d) with
    | .ok d => some (.report d)
    | .error _ => none
  | _, some (.string m), _ => some (.stop (.failed (.message m)))
  | _, _, some (.string m) => some (.stop (.failed (.io m)))
  | _, _, _ =>
    (panic? v "panic" "panic_other" <|> panic? v "panic_str" "panic_other").map
      fun p => .stop (.brokeOff p)

def Clause.ofJson? (v : Json) : Option Clause := do
  let actions := (items v "do").filterMap Action.ofJson?
  match v.get? "if" with
  | none | some .null => some { condition := none, actions }
  | some c => do
    let condition ← Condition.ofJson? c
    some { condition := some condition, actions }

def CheckText.ofJson (v : Json) : CheckText where
  name := textOr v "name" ""
  accepts := textOr v "accepts" ""
  typed :=
    match v.get? "typed" with
    | some (.bool b) => b
    | _ => false
  clauses := (items v "rules").filterMap Clause.ofJson?

/-- What making the scripted validator yields. -/
def construction (v : Json) : Except Panic Construction := do
  if let some p := panic? v "panic_default" "panic_default_other" then throw p
  if let some p := panic? v "panic_checks" "" then throw p
  let checks ← (items v "checks").mapM fun c => (CheckText.ofJson c).check
  pure { name := textOr v "name" "scripted", checks }

/-- Opens a script. -/
def openScript (v : Json) (path : Host.NormalPath) : Except LoadError Artifact :=
  match textOr v "error" "" with
  | "open" => .error (.unreadable path (textOr v "message" ""))
  | "missing_manifest" => .error (.noManifest path (textOr v "message" ""))
  | _ => .ok {
      kitVersion := textOr v "kit_version" ImageLint.kitVersion
      entryPoint := textOr v "entry_point" "scripted::Plugin"
      construct := construction v }

end ImageLint.Script
