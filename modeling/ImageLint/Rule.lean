import ImageLint.Diagnostic

/-!
# Rules

The rules of the linter. Tools match on the code of a rule, so the spelling of a code never
changes. Any other code belongs to a rule of a custom validator.
-/

namespace ImageLint

/-- A rule of the linter. -/
inductive Rule where
  | invalidName
  | invalidUid
  | invalidGid
  | invalidAutoso
  | invalidCompress
  | invalidType
  | invalidPerms
  | invalidDperms
  | duplicatePath
  | unresolvedVariable
  | directoryDeployment
  | customValidatorLoad
  deriving DecidableEq, Repr

namespace Rule

/-- Every rule, in the order of the declaration. -/
def all : List Rule :=
  [.invalidName, .invalidUid, .invalidGid, .invalidAutoso, .invalidCompress, .invalidType,
    .invalidPerms, .invalidDperms, .duplicatePath, .unresolvedVariable, .directoryDeployment,
    .customValidatorLoad]

/-- The stable identifier of a rule. -/
def code : Rule → String
  | .invalidName => "invalidName"
  | .invalidUid => "invalidUid"
  | .invalidGid => "invalidGid"
  | .invalidAutoso => "invalidAutoso"
  | .invalidCompress => "invalidCompress"
  | .invalidType => "invalidType"
  | .invalidPerms => "invalidPerms"
  | .invalidDperms => "invalidDperms"
  | .duplicatePath => "duplicatePath"
  | .unresolvedVariable => "unresolvedVariable"
  | .directoryDeployment => "directoryDeployment"
  | .customValidatorLoad => "customValidatorLoad"

/-- The severity of a finding, unless the caller chooses one as for unresolved variables. -/
def level : Rule → Severity
  | .duplicatePath => .warning
  | .unresolvedVariable => .warning
  | .directoryDeployment => .warning
  | .customValidatorLoad => .warning
  | _ => .error

/-- What a rule is about. -/
def description : Rule → String
  | .invalidName => "Attribute names must be known mkifs or mkqnx6fs keywords"
  | .invalidUid => "uid must be '*' or a number between 0 and 2147483647"
  | .invalidGid => "gid must be '*' or a number between 0 and 2147483647"
  | .invalidAutoso => "autoso must be one of n, none, l, list, a, add"
  | .invalidCompress => "compress must be 1, 2 or 3"
  | .invalidType => "type must be one of link, fifo, file, dir"
  | .invalidPerms => "perms must be '*', an octal mode or symbolic clauses"
  | .invalidDperms => "dperms must be '*', an octal mode or symbolic clauses"
  | .duplicatePath => "Flags deployments sharing the same target path"
  | .unresolvedVariable => "Flags $\x7b...\x7d references with no value"
  | .directoryDeployment => "Flags deployments copying a whole host directory"
  | .customValidatorLoad => "Reports a custom validator that could not be loaded"

/-- The rule with the given code. -/
def ofCode? (code : String) : Option Rule := all.find? (·.code = code)

/-- Every rule is found under its own code. -/
theorem ofCode?_code (r : Rule) : ofCode? r.code = some r := by cases r <;> decide

/-- A finding of a rule at its own severity. -/
def diagnostic (r : Rule) (message : String) : Diagnostic :=
  { level := r.level, message, code := some r.code }

end Rule

/-- The rule that a code belongs to. -/
inductive RuleId where
  | core (rule : Rule)
  /-- A rule of a custom validator. -/
  | external (code : String)
  deriving DecidableEq, Repr

namespace RuleId

def ofCode (code : String) : RuleId :=
  match Rule.ofCode? code with
  | some rule => .core rule
  | none => .external code

def code : RuleId → String
  | .core rule => rule.code
  | .external code => code

/-- A code belongs to a rule with that very code. -/
theorem code_ofCode (c : String) : (ofCode c).code = c := by
  unfold ofCode
  split
  · next r h =>
    unfold Rule.ofCode? at h
    simpa [code] using List.find?_some h
  · rfl

def isCore : RuleId → Bool
  | .core _ => true
  | .external _ => false

def isExternal : RuleId → Bool
  | .core _ => false
  | .external _ => true

end RuleId

end ImageLint
