import ImageLint.Yaml.Scalar

/-!
# Tokens of a YAML text

The scanner turns a text into tokens in which indentation is explicit: a block begins with a token
and ends with one. Whether a scalar is a key is known only at the colon after it; then a token is put
in front of the scalar. Until then the scalar is a candidate, and it stays one up to the end of its
line.

Directives, anchors, aliases, tags and block scalars are not understood; a text with one of them is
refused.
-/

namespace ImageLint.Yaml

inductive Token where
  | documentStart
  | documentEnd
  | blockMapping
  | blockSequence
  | blockEnd
  | key
  | value
  /-- The dash in front of an item. -/
  | item
  /-- The comma between the parts of a collection in brackets. -/
  | comma
  | openSequence
  | closeSequence
  | openMapping
  | closeMapping
  | scalar (isPlain : Bool) (text : List Char)
  deriving DecidableEq, Repr

/-- A token that may turn out to begin a key. -/
structure Candidate where
  /-- The number of tokens before it. -/
  position : Nat
  line : Nat
  column : Nat
  /-- Whether it must be a key, because of where it stands. -/
  isRequired : Bool
  deriving DecidableEq, Repr

/-- What the scanner knows. -/
structure Scanner where
  cursor : Cursor
  /-- The tokens so far, the last one first. -/
  tokens : List Token
  /-- The columns of the open blocks, the innermost first. -/
  blocks : List Nat
  /-- The candidates inside the open brackets and outside of them, the innermost first. -/
  candidates : List (Option Candidate)
  /-- Whether a key may begin here. -/
  keyAllowed : Bool
  deriving DecidableEq, Repr

namespace Scanner

def start (text : List Char) : Scanner where
  cursor := ⟨text, 0, 0⟩
  tokens := []
  blocks := []
  candidates := [none]
  keyAllowed := true

/-- Whether the scanner is inside brackets. -/
def inFlow (s : Scanner) : Bool := s.candidates.length > 1

/-- The first column that is deeper than the innermost block. -/
def limit (s : Scanner) : Nat :=
  match s.blocks with
  | [] => 0
  | b :: _ => b + 1

def push (s : Scanner) (t : Token) : Scanner := { s with tokens := t :: s.tokens }

def skip (s : Scanner) (n : Nat) : Scanner := { s with cursor := s.cursor.advance n }

/-- Puts a token behind the first `position` tokens. -/
def insert (s : Scanner) (position : Nat) (t : Token) : Scanner :=
  let after := s.tokens.length - position
  { s with tokens := s.tokens.take after ++ t :: s.tokens.drop after }

/-- Ends the blocks that are deeper than a column; all of them if there is none. -/
def closeBlocks (s : Scanner) (column : Option Nat) : Scanner :=
  if s.inFlow then s
  else
    let isDeeper (b : Nat) : Bool :=
      match column with
      | some c => c < b
      | none => true
    let closed := s.blocks.takeWhile isDeeper
    { s with
      tokens := List.replicate closed.length .blockEnd ++ s.tokens
      blocks := s.blocks.drop closed.length }

/-- Begins a block at a column behind the first `position` tokens, if it is deeper than the
innermost one. -/
def openBlock (s : Scanner) (column position : Nat) (t : Token) : Scanner :=
  if s.inFlow || column < s.limit then s
  else { s.insert position t with blocks := column :: s.blocks }

/-- Gives up the candidate. One that must be a key cannot be given up. -/
def dropCandidate (s : Scanner) : Option Scanner :=
  match s.candidates with
  | some c :: rest => if c.isRequired then none else some { s with candidates := none :: rest }
  | _ => some s

/-- The greatest length of a key. -/
def maxKey : Nat := 1024

/-- Whether it is too late for a candidate to become a key. -/
def isStale (s : Scanner) (c : Candidate) : Bool :=
  c.line < s.cursor.line || c.column + maxKey < s.cursor.column

/-- Gives up the candidates that can no longer become keys. -/
def dropStale (s : Scanner) : Option Scanner := do
  let candidates ← s.candidates.mapM fun
    | some c => if s.isStale c then if c.isRequired then none else some none else some (some c)
    | none => some none
  some { s with candidates }

/-- The next token becomes a candidate, if a key may begin here. -/
def saveCandidate (s : Scanner) : Option Scanner :=
  if s.keyAllowed then do
    let isRequired := !s.inFlow && s.blocks.head? = some s.cursor.column
    let s ← s.dropCandidate
    let c : Candidate := ⟨s.tokens.length, s.cursor.line, s.cursor.column, isRequired⟩
    some { s with candidates := some c :: s.candidates.drop 1 }
  else some s

/-- Passes over blanks, comments and line breaks. A tab counts as a blank only where no key may
begin. -/
def skipToToken (inFlow : Bool) : Bool → List Char → Nat → Nat → Cursor × Bool
  | allowed, '\r' :: '\n' :: rest, line, _ =>
    skipToToken inFlow (allowed || !inFlow) rest (line + 1) 0
  | allowed, c :: rest, line, column =>
    if c = ' ' || (c = '\t' && (inFlow || !allowed)) then
      skipToToken inFlow allowed rest line (column + 1)
    else if isBreak c then skipToToken inFlow (allowed || !inFlow) rest (line + 1) 0
    else (⟨c :: rest, line, column⟩, allowed)
  | allowed, [], line, column => (⟨[], line, column⟩, allowed)

/-- Passes over everything before the next token. There may be one comment for each line. -/
def skipAll (inFlow : Bool) : Nat → Cursor → Bool → Cursor × Bool
  | 0, cur, allowed => (cur, allowed)
  | fuel + 1, cur, allowed =>
    let (cur, allowed) := skipToToken inFlow allowed cur.rest cur.line cur.column
    if cur.rest.head? = some '#' then
      let comment := cur.rest.takeWhile fun c => !isBreak c
      skipAll inFlow fuel (cur.advance comment.length) allowed
    else (cur, allowed)

/-- A mark between documents. -/
def documentMark (s : Scanner) (t : Token) : Option Scanner := do
  let s ← (s.closeBlocks none).dropCandidate
  some (({ s with keyAllowed := false }.skip 3).push t)

/-- An opening bracket. -/
def openFlow (s : Scanner) (t : Token) : Option Scanner := do
  let s ← s.saveCandidate
  let s := (s.skip 1).push t
  some { s with candidates := none :: s.candidates, keyAllowed := true }

/-- A closing bracket. -/
def closeFlow (s : Scanner) (t : Token) : Option Scanner := do
  let s ← s.dropCandidate
  let candidates := if s.inFlow then s.candidates.drop 1 else s.candidates
  some (({ s with candidates, keyAllowed := false }.skip 1).push t)

def comma (s : Scanner) : Option Scanner := do
  let s ← s.dropCandidate
  some (({ s with keyAllowed := true }.skip 1).push .comma)

/-- A dash in front of an item. -/
def item (s : Scanner) : Option Scanner := do
  if !s.inFlow && !s.keyAllowed then none
  let s := s.openBlock s.cursor.column s.tokens.length .blockSequence
  let s ← s.dropCandidate
  some (({ s with keyAllowed := true }.skip 1).push .item)

/-- A question mark in front of a key. -/
def explicitKey (s : Scanner) : Option Scanner := do
  if !s.inFlow && !s.keyAllowed then none
  let s := s.openBlock s.cursor.column s.tokens.length .blockMapping
  let s ← s.dropCandidate
  some (({ s with keyAllowed := !s.inFlow }.skip 1).push .key)

/-- A colon. The candidate in front of it is a key. -/
def value (s : Scanner) : Option Scanner :=
  match s.candidates with
  | some c :: rest =>
    let s := s.insert c.position .key
    let s := s.openBlock c.column c.position .blockMapping
    some (({ s with candidates := none :: rest, keyAllowed := false }.skip 1).push .value)
  | _ => do
    if !s.inFlow && !s.keyAllowed then none
    let s := s.openBlock s.cursor.column s.tokens.length .blockMapping
    some (({ s with keyAllowed := !s.inFlow }.skip 1).push .value)

def quoted (s : Scanner) (quote : Char) : Option Scanner := do
  let s ← s.saveCandidate
  let (text, cursor) ← Quoted.read quote s.cursor
  some ({ s with cursor, keyAllowed := false }.push (.scalar false text))

def plain (s : Scanner) : Option Scanner := do
  let s ← s.saveCandidate
  let (text, cursor, breaksLine) ← Plain.read s.limit s.inFlow s.cursor
  some ({ s with cursor, keyAllowed := breaksLine }.push (.scalar true text))

/-- Whether a plain scalar may begin with a character before the given rest. -/
def beginsPlain (inFlow : Bool) (c : Char) (rest : List Char) : Bool :=
  if c = '-' then
    match rest with
    | d :: _ => !isBlank d
    | [] => true
  else if c = '?' || c = ':' then !inFlow && !endsWord rest
  else !(isBlank c || isBreak c || isFlowIndicator c ||
    ['#', '&', '*', '!', '|', '>', '\'', '"', '%', '@', '\x60'].contains c)

/-- Reads one token where one begins. -/
def token (s : Scanner) (c : Char) (rest : List Char) : Option Scanner :=
  if s.cursor.atMark '-' then s.documentMark .documentStart
  else if s.cursor.atMark '.' then s.documentMark .documentEnd
  else if c = '[' then s.openFlow .openSequence
  else if c = '\x7b' then s.openFlow .openMapping
  else if c = ']' then s.closeFlow .closeSequence
  else if c = '\x7d' then s.closeFlow .closeMapping
  else if c = ',' then s.comma
  else if c = '-' && endsWord rest then s.item
  else if c = '?' && (s.inFlow || endsWord rest) then s.explicitKey
  else if c = ':' && (s.inFlow || endsWord rest) then s.value
  else if c = '\'' || c = '"' then s.quoted c
  else if beginsPlain s.inFlow c rest then s.plain
  else none

/-- Reads tokens to the end of the text. -/
def run : Nat → Scanner → Option (List Token)
  | 0, _ => none
  | fuel + 1, s => do
    let (cursor, keyAllowed) := skipAll s.inFlow (s.cursor.rest.length + 1) s.cursor s.keyAllowed
    let s ← { s with cursor, keyAllowed }.dropStale
    let s := s.closeBlocks (some s.cursor.column)
    match s.cursor.rest with
    | [] => do
      let s ← (s.closeBlocks none).dropCandidate
      some s.tokens.reverse
    | c :: rest => do
      let s ← s.token c rest
      run fuel s

end Scanner

/-- The tokens of a text, in order. A mark of the byte order in front of it is passed over. -/
def tokens (text : List Char) : Option (List Token) :=
  let text := if text.head? = some '\ufeff' then text.drop 1 else text
  if text.all isAllowed then Scanner.run (text.length + 1) (.start text) else none

end ImageLint.Yaml
