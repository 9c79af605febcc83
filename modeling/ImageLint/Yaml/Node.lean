import ImageLint.Yaml.Token

/-!
# YAML documents

A document is a scalar, a sequence or a mapping, the last with its entries in the order of the text;
whether a key may come twice is for the reader to decide. A value that is left out is an empty plain
scalar. `Node.parse` reads a text with at most one document.
-/

namespace ImageLint.Yaml

inductive Node where
  /-- A scalar. Only a plain one can stand for something other than its text. -/
  | scalar (isPlain : Bool) (text : String)
  | sequence (items : List Node)
  | mapping (entries : List (Node × Node))
  deriving Repr

namespace Node

/-- What stands in the place of a value that is left out. -/
def missing : Node := .scalar true ""

instance : Inhabited Node := ⟨missing⟩

/-- What a reader yields: something, and the tokens after it. -/
abbrev Parsed (α : Type) : Type := Option (α × List Token)

/-- Whether one of the given tokens comes next. -/
def nextIs (ts : List Token) (among : List Token) : Bool :=
  match ts with
  | [] => false
  | t :: _ => among.contains t

mutual

/-- Reads a node. Only in a block may it begin a block, and only below a key may it be a sequence
that is not indented. -/
def node (fuel : Nat) (inBlock unindented : Bool) (ts : List Token) : Parsed Node :=
  match fuel with
  | 0 => none
  | fuel + 1 =>
    match ts with
    | .scalar isPlain text :: rest => some (.scalar isPlain (String.ofList text), rest)
    | .openSequence :: rest => flowItems fuel true [] rest
    | .openMapping :: rest => flowEntries fuel true [] rest
    | .blockSequence :: rest => if inBlock then blockItems fuel [] rest else none
    | .blockMapping :: rest => if inBlock then blockEntries fuel [] rest else none
    | .item :: rest => if unindented then unindentedItems fuel [] (.item :: rest) else none
    | _ => none

/-- Reads a node unless the text ends or one of the given tokens comes next, which means that it is
left out. -/
def nodeUnless (fuel : Nat) (inBlock unindented : Bool) (stops ts : List Token) : Parsed Node :=
  match fuel with
  | 0 => none
  | fuel + 1 =>
    if nextIs ts stops then some (missing, ts) else node fuel inBlock unindented ts

/-- Reads the items of a block up to its end. -/
def blockItems (fuel : Nat) (read : List Node) (ts : List Token) : Parsed Node :=
  match fuel with
  | 0 => none
  | fuel + 1 =>
    match ts with
    | .item :: rest =>
      match nodeUnless fuel true false [.item, .blockEnd] rest with
      | none => none
      | some (n, rest) => blockItems fuel (n :: read) rest
    | .blockEnd :: rest => some (.sequence read.reverse, rest)
    | _ => none

/-- Reads the items of a sequence that has the indentation of the mapping it is in. -/
def unindentedItems (fuel : Nat) (read : List Node) (ts : List Token) : Parsed Node :=
  match fuel with
  | 0 => none
  | fuel + 1 =>
    match ts with
    | .item :: rest =>
      match nodeUnless fuel true false [.item, .key, .value, .blockEnd] rest with
      | none => none
      | some (n, rest) => unindentedItems fuel (n :: read) rest
    | rest => some (.sequence read.reverse, rest)

/-- Reads the entries of a block up to its end. -/
def blockEntries (fuel : Nat) (read : List (Node × Node)) (ts : List Token) : Parsed Node :=
  match fuel with
  | 0 => none
  | fuel + 1 =>
    match ts with
    | .key :: rest =>
      match nodeUnless fuel true true [.key, .value, .blockEnd] rest with
      | none => none
      | some (k, .value :: rest) =>
        match nodeUnless fuel true true [.key, .value, .blockEnd] rest with
        | none => none
        | some (v, rest) => blockEntries fuel ((k, v) :: read) rest
      | some (k, rest) => blockEntries fuel ((k, missing) :: read) rest
    | .blockEnd :: rest => some (.mapping read.reverse, rest)
    | _ => none

/-- Reads the items of a sequence in brackets up to the closing one. -/
def flowItems (fuel : Nat) (isFirst : Bool) (read : List Node) (ts : List Token) : Parsed Node :=
  match fuel with
  | 0 => none
  | fuel + 1 =>
    match ts, isFirst with
    | .closeSequence :: rest, _ => some (.sequence read.reverse, rest)
    | .comma :: .closeSequence :: rest, false => some (.sequence read.reverse, rest)
    | .comma :: rest, false => flowItem fuel read rest
    | rest, true => flowItem fuel read rest
    | _, false => none

/-- Reads an item in brackets, which may be a mapping with one entry and without brackets. -/
def flowItem (fuel : Nat) (read : List Node) (ts : List Token) : Parsed Node :=
  match fuel with
  | 0 => none
  | fuel + 1 =>
    match ts with
    | .key :: rest =>
      match nodeUnless fuel false false [.value, .comma, .closeSequence] rest with
      | none => none
      | some (k, .value :: rest) =>
        match nodeUnless fuel false false [.comma, .closeSequence] rest with
        | none => none
        | some (v, rest) => flowItems fuel false (.mapping [(k, v)] :: read) rest
      | some (k, rest) => flowItems fuel false (.mapping [(k, missing)] :: read) rest
    | rest =>
      match node fuel false false rest with
      | none => none
      | some (n, rest) => flowItems fuel false (n :: read) rest

/-- Reads the entries of a mapping in brackets up to the closing one. -/
def flowEntries (fuel : Nat) (isFirst : Bool) (read : List (Node × Node)) (ts : List Token) :
    Parsed Node :=
  match fuel with
  | 0 => none
  | fuel + 1 =>
    match ts, isFirst with
    | .closeMapping :: rest, _ => some (.mapping read.reverse, rest)
    | .comma :: .closeMapping :: rest, false => some (.mapping read.reverse, rest)
    | .comma :: rest, false => flowEntry fuel read rest
    | rest, true => flowEntry fuel read rest
    | _, false => none

/-- Reads an entry in brackets. It may be a key without a value. -/
def flowEntry (fuel : Nat) (read : List (Node × Node)) (ts : List Token) : Parsed Node :=
  match fuel with
  | 0 => none
  | fuel + 1 =>
    match ts with
    | .key :: rest =>
      match nodeUnless fuel false false [.value, .comma, .closeMapping] rest with
      | none => none
      | some (k, .value :: rest) =>
        match nodeUnless fuel false false [.comma, .closeMapping] rest with
        | none => none
        | some (v, rest) => flowEntries fuel false ((k, v) :: read) rest
      | some (k, rest) => flowEntries fuel false ((k, missing) :: read) rest
    | rest =>
      match node fuel false false rest with
      | none => none
      | some (k, rest) => flowEntries fuel false ((k, missing) :: read) rest

end

/-- Enough fuel for a number of tokens: at most three readers are entered for each of them. -/
def fuelFor (ts : List Token) : Nat := 3 * ts.length + 3

/-- Reads the node of a document. It may be left out after the mark of a document. -/
def content (ts : List Token) : Parsed Node :=
  match ts with
  | .documentStart :: rest =>
    if rest.isEmpty then some (missing, [])
    else nodeUnless (fuelFor rest) true false [.documentStart, .documentEnd] rest
  | ts => node (fuelFor ts) true false ts

/-- Reads the document of a text from its tokens, `none` if there is no document. Tokens that belong
to a second one are refused. -/
def ofTokens (ts : List Token) : Option (Option Node) :=
  if ts.isEmpty then some none
  else
    match content ts with
    | none => none
    | some (n, rest) =>
      if (rest.dropWhile (· = .documentEnd)).isEmpty then some (some n) else none

/-- Reads a text with at most one document: `none` if it is malformed, and `some none` if there is no
document in it. -/
def parse (text : String) : Option (Option Node) := (tokens text.toList).bind ofTokens

end Node

end ImageLint.Yaml
