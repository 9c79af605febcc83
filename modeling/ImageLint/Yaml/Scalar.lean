import ImageLint.Text.Digit
import ImageLint.Yaml.Cursor

/-!
# Scalars of a YAML text

A plain scalar goes on until something ends it: a colon before a blank, a comment, a line that is
not indented enough or, inside brackets, an indicator of those. A quoted scalar ends at its quote.
Either may go over several lines.
-/

namespace ImageLint.Yaml

/-- The indicators that end a plain scalar inside brackets. -/
def isFlowIndicator (c : Char) : Bool := c = ',' || c = '[' || c = ']' || c = '\x7b' || c = '\x7d'

namespace Plain

/-- Whether a colon stands before something that it may not stand before inside brackets. -/
def isStrayColon : List Char → Bool
  | ':' :: c :: _ => isFlowIndicator c || c = '?'
  | _ => false

/-- A word of a plain scalar and what comes after it. -/
def takeWord (inFlow : Bool) : List Char → Option (List Char × List Char)
  | [] => some ([], [])
  | c :: rest =>
    if isBlank c || isBreak c then some ([], c :: rest)
    else if inFlow && isStrayColon (c :: rest) then none
    else if (c = ':' && endsWord rest) || (inFlow && isFlowIndicator c) then some ([], c :: rest)
    else
      match takeWord inFlow rest with
      | none => none
      | some (word, after) => some (c :: word, after)

/-- Reads words until the scalar ends. `text` is what has been read, and `gap` what came after it.
Returns the text, the cursor, and whether the last thing passed over was the end of a line. -/
def words (limit : Nat) (inFlow : Bool) :
    Nat → List Char → Gap → Cursor → Option (List Char × Cursor × Bool)
  | 0, text, gap, cur => some (text, cur, gap.breaksLine)
  | fuel + 1, text, gap, cur =>
    if cur.atDocumentMark || cur.rest.head? = some '#' then some (text, cur, gap.breaksLine)
    else
      match takeWord inFlow cur.rest with
      | none => none
      | some ([], _) => some (text, cur, gap.breaksLine)
      | some (word, _) =>
        let text := text ++ gap.folded ++ word
        match Gap.take limit (cur.advance word.length) with
        | none => none
        | some (gap, after) =>
          if gap = ⟨[], []⟩ || (!inFlow && after.column < limit) then
            some (text, after, gap.breaksLine)
          else words limit inFlow fuel text gap after

/-- Reads a plain scalar. Its lines after the first must reach the column `limit`. -/
def read (limit : Nat) (inFlow : Bool) (cur : Cursor) : Option (List Char × Cursor × Bool) :=
  words limit inFlow (cur.rest.length + 1) [] ⟨[], []⟩ cur

end Plain

namespace Quoted

/-- The character with the number that `n` hexadecimal digits give. -/
def hexChar? (n : Nat) (cs : List Char) : Option Char := do
  let digits := cs.take n
  if digits.length < n then none
  let value ← digits.foldlM (fun v c => do some (16 * v + (← Text.hexDigit? c))) 0
  if Nat.isValidChar value then some (Char.ofNat value) else none

/-- The character that an escape stands for, and the length of the escape after the backslash. -/
def escape? : List Char → Option (Char × Nat)
  | [] => none
  | c :: rest =>
    match c with
    | '0' => some ('\x00', 1)
    | 'a' => some ('\x07', 1)
    | 'b' => some ('\x08', 1)
    | 't' => some ('\t', 1)
    | '\t' => some ('\t', 1)
    | 'n' => some ('\n', 1)
    | 'v' => some ('\x0b', 1)
    | 'f' => some ('\x0c', 1)
    | 'r' => some ('\r', 1)
    | 'e' => some ('\x1b', 1)
    | ' ' => some (' ', 1)
    | '"' => some ('"', 1)
    | '/' => some ('/', 1)
    | '\\' => some ('\\', 1)
    | 'N' => some ('\u0085', 1)
    | '_' => some ('\u00a0', 1)
    | 'L' => some ('\u2028', 1)
    | 'P' => some ('\u2029', 1)
    | 'x' => (hexChar? 2 rest).map (·, 3)
    | 'u' => (hexChar? 4 rest).map (·, 5)
    | 'U' => (hexChar? 8 rest).map (·, 9)
    | _ => none

/-- Reads to the closing quote. `text` is what has been read. -/
def body (quote : Char) : Nat → List Char → Cursor → Option (List Char × Cursor)
  | 0, _, _ => none
  | fuel + 1, text, cur =>
    if cur.atDocumentMark then none
    else
      match cur.rest with
      | [] => none
      | c :: rest =>
        if isBlank c || isBreak c then
          match Gap.take 0 cur with
          | none => none
          | some (gap, after) => body quote fuel (text ++ gap.folded) after
        else if c = quote then
          if quote = '\'' && rest.head? = some '\'' then
            body quote fuel (text ++ ['\'']) (cur.advance 2)
          else some (text, cur.advance 1)
        else if quote = '"' && c = '\\' then
          match rest with
          | [] => none
          | d :: _ =>
            if isBreak d then
              -- The end of the line is passed over, and so are the blanks that follow it.
              match Gap.take 0 (cur.advance 1) with
              | none => none
              | some (gap, after) => body quote fuel (text ++ gap.breaks.drop 1) after
            else
              match escape? rest with
              | none => none
              | some (e, n) => body quote fuel (text ++ [e]) (cur.advance (n + 1))
        else body quote fuel (text ++ [c]) (cur.advance 1)

/-- Reads a quoted scalar at its opening quote. -/
def read (quote : Char) (cur : Cursor) : Option (List Char × Cursor) :=
  body quote (cur.rest.length + 1) [] (cur.advance 1)

end Quoted

end ImageLint.Yaml
