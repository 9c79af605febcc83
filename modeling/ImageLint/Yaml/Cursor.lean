/-!
# Places in a YAML text

A cursor is what is left of a text, with the line and the column where it begins. Lines count in
YAML: indentation says how values are nested, a key must end on the line it begins on, and line
breaks inside a scalar are folded.
-/

namespace ImageLint.Yaml

/-- The rest of a text and where it begins, counted from zero. -/
structure Cursor where
  rest : List Char
  line : Nat
  column : Nat
  deriving DecidableEq, Repr

def isBlank (c : Char) : Bool := c = ' ' || c = '\t'

def isBreak (c : Char) : Bool :=
  c = '\n' || c = '\r' || c = '\u0085' || c = '\u2028' || c = '\u2029'

/-- The characters that may stand in a YAML text. -/
def isAllowed (c : Char) : Bool :=
  c = '\t' || c = '\n' || c = '\r' || (' ' ≤ c && c ≤ '~') || c = '\u0085' ||
    ('\u00a0' ≤ c && c ≤ '\ufffd' && c ≠ '\ufeff') || 0x10000 ≤ c.toNat

/-- Whether a text ends here or goes on with a blank or a line break. -/
def endsWord : List Char → Bool
  | [] => true
  | c :: _ => isBlank c || isBreak c

namespace Cursor

/-- The next character, which is no line break, is taken. -/
def advance (cur : Cursor) (n : Nat) : Cursor :=
  { cur with rest := cur.rest.drop n, column := cur.column + n }

/-- Whether a line begins here with a mark of three equal characters. -/
def atMark (cur : Cursor) (c : Char) : Bool :=
  cur.column = 0 && [c, c, c].isPrefixOf cur.rest && endsWord (cur.rest.drop 3)

/-- Whether a document begins or ends here. -/
def atDocumentMark (cur : Cursor) : Bool := cur.atMark '-' || cur.atMark '.'

end Cursor

/-- Blanks and line breaks between the words of a scalar. -/
structure Gap where
  /-- The blanks before the first line break. -/
  blanks : List Char
  breaks : List Char
  deriving DecidableEq, Repr

namespace Gap

/-- What stands in the place of a gap. One line break becomes a space, and of several the first is
dropped; the two Unicode separators are kept. -/
def folded (g : Gap) : List Char :=
  match g.breaks with
  | [] => g.blanks
  | ['\n'] => [' ']
  | '\n' :: more => more
  | all => all

/-- Whether the gap goes over the end of a line. -/
def breaksLine (g : Gap) : Bool := !g.breaks.isEmpty

/-- The gap at the start of a text, and what comes after it. A tab in the indentation is refused
before the column `limit`. -/
def scan (limit : Nat) : List Char → Gap → Nat → Nat → Option (Gap × Cursor)
  | '\r' :: '\n' :: rest, g, line, _ =>
    scan limit rest { g with breaks := g.breaks ++ ['\n'] } (line + 1) 0
  | c :: rest, g, line, column =>
    if isBlank c then
      if g.breaksLine then
        if c = '\t' && column < limit then none else scan limit rest g line (column + 1)
      else scan limit rest { g with blanks := g.blanks ++ [c] } line (column + 1)
    else if isBreak c then
      let c := if c = '\r' || c = '\u0085' then '\n' else c
      scan limit rest { g with breaks := g.breaks ++ [c] } (line + 1) 0
    else some (g, ⟨c :: rest, line, column⟩)
  | [], g, line, column => some (g, ⟨[], line, column⟩)

/-- The gap at a cursor, and the cursor after it. -/
def take (limit : Nat) (cur : Cursor) : Option (Gap × Cursor) :=
  scan limit cur.rest ⟨[], []⟩ cur.line cur.column

end Gap

end ImageLint.Yaml
