import ImageLint.Attribute.Keyword
import ImageLint.Attribute.Value
import ImageLint.Model.Node
import ImageLint.Rule
import ImageLint.Suggestion.Nearest
import ImageLint.Text.Pieces

/-!
# Checking attributes

An attribute must have a known name, and the value of an attribute with a format must have that
format. The formats are in a registry, so that one more attribute is one more entry.
-/

namespace ImageLint

/-- The format of the values of an attribute. -/
structure ValueRule where
  rule : Rule
  /-- The format in words, as it is quoted in a finding. -/
  expected : String
  isValid : String → Bool

/-- The formats of attributes by name, the latest first. -/
structure AttributeRules where
  entries : List (String × ValueRule)

namespace AttributeRules

/-- The format of permissions in words. -/
def permissionsFormat : String := "*|[0]NNN|[ugoa]*[+-=][rwxst]+,..."

/-- The formats that are always there. -/
def builtIn : AttributeRules := ⟨[
  ("uid", ⟨.invalidUid, "*|0..2147483647", AttributeValue.isId⟩),
  ("gid", ⟨.invalidGid, "*|0..2147483647", AttributeValue.isId⟩),
  ("autoso", ⟨.invalidAutoso, "n[one]|l[ist]|a[dd]", AttributeValue.isAutoso⟩),
  ("compress", ⟨.invalidCompress, "1|2|3", AttributeValue.isCompress⟩),
  ("type", ⟨.invalidType, "link|fifo|file|dir", AttributeValue.isFileType⟩),
  ("perms", ⟨.invalidPerms, permissionsFormat, AttributeValue.isPermissions⟩),
  ("dperms", ⟨.invalidDperms, permissionsFormat, AttributeValue.isPermissions⟩)]⟩

/-- Adds the format of an attribute, or replaces it. -/
def insert (rules : AttributeRules) (name : String) (rule : ValueRule) : AttributeRules :=
  ⟨(name, rule) :: rules.entries⟩

/-- The format of an attribute. -/
def get? (rules : AttributeRules) (name : String) : Option ValueRule := rules.entries.lookup name

/-- Adds what may have been meant by an unknown name. -/
def withSuggestion (d : Diagnostic) (unknown : String) (known : List String) : Diagnostic :=
  match Suggestion.nearest unknown known with
  | [] => d
  | names => { d with suggestion := some ("did you mean " ++ Text.join ", " names ++ "?") }

/-- The finding for an unknown name. -/
def unknownName (what name : String) (location : Option Location) (known : List String) :
    Diagnostic :=
  withSuggestion
    ((Rule.invalidName.diagnostic ("Unknown " ++ what ++ " \"" ++ name ++ "\"")).atLocation location)
    name known

/-- The finding for a value without the right format. -/
def wrongFormat (rule : ValueRule) (a : ValuedAttribute) : Diagnostic :=
  { (rule.rule.diagnostic
      ("Wrong format \"" ++ a.value ++ "\" for " ++ a.name ++ " (" ++ rule.expected ++ ")")).atLocation
      a.location with
    context := some (a.name ++ "=" ++ a.value) }

/-- Checks a boolean attribute. -/
def checkBoolean (a : BooleanAttribute) : Option Diagnostic :=
  if Keyword.isBoolean a.name then none
  else some (unknownName "BooleanAttribute" a.name a.location Keyword.boolean)

/-- Checks a valued attribute. An unknown name is unknown even if it has a format. -/
def checkValued (rules : AttributeRules) (a : ValuedAttribute) : Option Diagnostic :=
  if Keyword.isValued a.name then
    match rules.get? a.name with
    | some rule => if rule.isValid a.value then none else some (wrongFormat rule a)
    | none => none
  else some (unknownName "ValuedAttribute" a.name a.location Keyword.valued)

/-- Checks an attribute. -/
def checkAttribute (rules : AttributeRules) : Attribute → Option Diagnostic
  | .boolean a => checkBoolean a
  | .valued a => rules.checkValued a

/-- Collects the findings of a model as its attributes are visited. -/
def visitor (rules : AttributeRules) : Visitor (List Diagnostic) where
  booleanAttribute a found := found ++ (checkBoolean a).toList
  valuedAttribute a found := found ++ (rules.checkValued a).toList

/-- Checks every attribute of a model, in document order. -/
def checkModel (rules : AttributeRules) (m : Model) : List Diagnostic := m.walk rules.visitor []

end AttributeRules

end ImageLint
