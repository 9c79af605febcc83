import ImageLint.Config
import ImageLint.Yaml.Node

/-!
# Configurations in YAML

A decoder for configuration files in YAML, as far as `Yaml.Node.parse` reads it: documents of plain
and quoted scalars, sequences and mappings, without block scalars, anchors, tags and directives.
Settings with other names are passed over. A setting that is null or left out is not set; one that
is set twice is an error.
-/

namespace ImageLint

namespace Config

/-! ## Values -/

def isNullText (s : String) : Bool := ["", "~", "null", "Null", "NULL"].contains s

/-- Whether a node stands for no value. -/
def isNull : Yaml.Node → Bool
  | .scalar true s => isNullText s
  | _ => false

/-- The text of a scalar, as it is written. -/
def text : Yaml.Node → Option String
  | .scalar _ s => some s
  | _ => none

def truth : Yaml.Node → Option Bool
  | .scalar true s =>
    if ["true", "True", "TRUE"].contains s then some true
    else if ["false", "False", "FALSE"].contains s then some false
    else none
  | _ => none

def formatOf : Yaml.Node → Option Report.Format
  | .scalar _ s => Report.Format.ofName? s
  | _ => none

/-- The values of variables. Only scalars can be names and values. -/
def bindingsOf : Yaml.Node → Option (List (String × String))
  | .mapping entries => entries.mapM fun (k, v) => do some (← text k, ← text v)
  | n => if isNull n then some [] else none

/-- A value that may be null. -/
def optional {α : Type} (read : Yaml.Node → Option α) (n : Yaml.Node) : Option (Option α) :=
  if isNull n then some none else (read n).map some

/-! ## Settings -/

/-- The settings of a configuration file. -/
inductive Setting where
  | customValidator
  | strictVariables
  | failOnWarning
  | format
  | bindings
  deriving DecidableEq, Repr

/-- Every setting, in the order of the declaration. -/
def Setting.all : List Setting :=
  [.customValidator, .strictVariables, .failOnWarning, .format, .bindings]

def Setting.name : Setting → String
  | .customValidator => "custom_validator"
  | .strictVariables => "strict_variables"
  | .failOnWarning => "fail_on_warning"
  | .format => "format"
  | .bindings => "variables"

def Setting.ofName? (s : String) : Option Setting := all.find? (·.name = s)

/-- Takes the value of a setting from a node. -/
def set (c : Config) (s : Setting) (n : Yaml.Node) : Option Config :=
  match s with
  | .customValidator => (optional text n).map fun customValidator => { c with customValidator }
  | .strictVariables => (optional truth n).map fun strictVariables => { c with strictVariables }
  | .failOnWarning => (optional truth n).map fun failOnWarning => { c with failOnWarning }
  | .format => (optional formatOf n).map fun format => { c with format }
  | .bindings => (bindingsOf n).map fun bindings => { c with bindings }

/-- Takes settings by name. `seen` are the settings that have been taken. -/
def setEntries (c : Config) (seen : List Setting) : List (Yaml.Node × Yaml.Node) → Option Config
  | [] => some c
  | (k, v) :: rest =>
    match text k with
    | none => none
    | some name =>
      match Setting.ofName? name with
      | none => setEntries c seen rest
      | some s =>
        if seen.contains s then none
        else
          match c.set s v with
          | none => none
          | some c => setEntries c (s :: seen) rest

/-- Takes settings in the order of their declaration. -/
def setItems (c : Config) : List Setting → List Yaml.Node → Option Config
  | _, [] => some c
  | [], _ :: _ => none
  | s :: settings, n :: rest =>
    match c.set s n with
    | none => none
    | some c => setItems c settings rest

/-- The configuration in a document. -/
def ofNode : Yaml.Node → Option Config
  | .mapping entries => setEntries {} [] entries
  | .sequence items => setItems {} Setting.all items
  | n => if isNull n then some {} else none

/-- The configuration in a text. A text without a document sets nothing. -/
def ofYaml : Decoder := fun text =>
  match Yaml.Node.parse text with
  | none => none
  | some none => some {}
  | some (some n) => ofNode n

end Config

end ImageLint
