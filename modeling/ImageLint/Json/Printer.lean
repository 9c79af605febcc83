import ImageLint.Json.Quoted
import ImageLint.Json.Value

/-!
# Writing JSON

The compact text of a value, and the indented one with two spaces for each level and a line for
each item and member. An empty array or object is written in one piece.
-/

namespace ImageLint.Json

/-- A string with its quotes. -/
def quote (s : String) : List Char := '"' :: (Quoted.encode s.toList ++ ['"'])

mutual

/-- The text of a value without white space. -/
def compact : Json → List Char
  | .null => "null".toList
  | .bool true => "true".toList
  | .bool false => "false".toList
  | .number n => n.text
  | .string s => quote s
  | .array items => '[' :: (compactItems items ++ [']'])
  | .object members => '\x7b' :: (compactMembers members ++ ['\x7d'])

def compactItems : List Json → List Char
  | [] => []
  | [v] => compact v
  | v :: vs => compact v ++ ',' :: compactItems vs

def compactMembers : List (String × Json) → List Char
  | [] => []
  | [(name, v)] => quote name ++ ':' :: compact v
  | (name, v) :: vs => quote name ++ ':' :: (compact v ++ ',' :: compactMembers vs)

end

/-- The start of a line at a level. -/
def newline (level : Nat) : List Char := '\n' :: List.replicate (2 * level) ' '

mutual

/-- The text of a value in indented form, at the given level. -/
def indented (level : Nat) : Json → List Char
  | .array (v :: vs) =>
    '[' :: (indentedItems (level + 1) (v :: vs) ++ newline level ++ [']'])
  | .object (m :: ms) =>
    '\x7b' :: (indentedMembers (level + 1) (m :: ms) ++ newline level ++ ['\x7d'])
  | .array [] => ['[', ']']
  | .object [] => ['\x7b', '\x7d']
  | v => compact v

def indentedItems (level : Nat) : List Json → List Char
  | [] => []
  | [v] => newline level ++ indented level v
  | v :: vs => newline level ++ indented level v ++ ',' :: indentedItems level vs

def indentedMembers (level : Nat) : List (String × Json) → List Char
  | [] => []
  | [(name, v)] => newline level ++ quote name ++ ':' :: ' ' :: indented level v
  | (name, v) :: vs =>
    newline level ++ quote name ++ ':' :: ' ' :: indented level v ++ ',' :: indentedMembers level vs

end

/-- The compact text of a value. -/
def compactText (v : Json) : String := String.ofList (compact v)

/-- The indented text of a value. -/
def indentedText (v : Json) : String := String.ofList (indented 0 v)

end ImageLint.Json
