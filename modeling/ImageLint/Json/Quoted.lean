import ImageLint.Text.Digit

/-!
# Quoted texts

The escapes of a JSON string. A reader that wants the text and a reader that only passes over it
refuse different things: the first needs surrogate escapes in pairs, the second does not look.
-/

namespace ImageLint.Json

/-- Why a text is not JSON. -/
inductive Fault where
  /-- The text ends too early. -/
  | truncated
  /-- Something stands where it must not. -/
  | malformed
  deriving DecidableEq, Repr

namespace Quoted

/-- The code unit that four hexadecimal digits stand for. -/
def hexUnit? (a b c d : Char) : Option Nat :=
  match Text.hexDigit? a, Text.hexDigit? b, Text.hexDigit? c, Text.hexDigit? d with
  | some a, some b, some c, some d => some (((a * 16 + b) * 16 + c) * 16 + d)
  | _, _, _, _ => none

/-- Why fewer than four characters are no code unit: four bytes that are not four digits are
wrong, fewer are the end of the text. -/
def shortUnit (cs : List Char) : Fault :=
  if (String.ofList cs).utf8ByteSize < 4 then .truncated else .malformed

/-- The character that a one letter escape stands for. -/
def simpleEscape? : Char → Option Char
  | '"' => some '"'
  | '\\' => some '\\'
  | '/' => some '/'
  | 'b' => some '\x08'
  | 'f' => some '\x0c'
  | 'n' => some '\n'
  | 'r' => some '\r'
  | 't' => some '\t'
  | _ => none

def isHighSurrogate (n : Nat) : Bool := 0xD800 ≤ n && n ≤ 0xDBFF

def isLowSurrogate (n : Nat) : Bool := 0xDC00 ≤ n && n ≤ 0xDFFF

/-- The character of a surrogate pair. -/
def pairChar (high low : Nat) : Char :=
  Char.ofNat ((high - 0xD800) * 0x400 + (low - 0xDC00) + 0x10000)

/-- Characters that may not stand in a string as they are. -/
def isControl (c : Char) : Bool := c.toNat < 0x20

/-- Puts a character in front of a decoded text. -/
def cons (c : Char) : Except Fault (List Char × List Char) → Except Fault (List Char × List Char)
  | .ok (cs, rest) => .ok (c :: cs, rest)
  | .error f => .error f

/-- The text up to the closing quote and what comes after the quote. -/
def decode : List Char → Except Fault (List Char × List Char)
  | [] => .error .truncated
  | '"' :: rest => .ok ([], rest)
  | '\\' :: [] => .error .truncated
  | '\\' :: 'u' :: a :: b :: c :: d :: rest =>
    match hexUnit? a b c d with
    | none => .error .malformed
    | some high =>
      if isLowSurrogate high then .error .malformed
      else if isHighSurrogate high then
        match rest with
        | [] => .error .truncated
        | '\\' :: [] => .error .truncated
        | '\\' :: 'u' :: a :: b :: c :: d :: rest =>
          match hexUnit? a b c d with
          | none => .error .malformed
          | some low =>
            if isLowSurrogate low then cons (pairChar high low) (decode rest)
            else .error .malformed
        | '\\' :: 'u' :: short => .error (shortUnit short)
        | _ => .error .malformed
      else cons (Char.ofNat high) (decode rest)
  | '\\' :: 'u' :: short => .error (shortUnit short)
  | '\\' :: e :: rest =>
    match simpleEscape? e with
    | none => .error .malformed
    | some c => cons c (decode rest)
  | c :: rest => if isControl c then .error .malformed else cons c (decode rest)

/-- What comes after the closing quote, for a reader that does not want the text. -/
def skip : List Char → Except Fault (List Char)
  | [] => .error .truncated
  | '"' :: rest => .ok rest
  | '\\' :: [] => .error .truncated
  | '\\' :: 'u' :: a :: b :: c :: d :: rest =>
    match hexUnit? a b c d with
    | none => .error .malformed
    | some _ => skip rest
  | '\\' :: 'u' :: short => .error (shortUnit short)
  | '\\' :: e :: rest =>
    match simpleEscape? e with
    | none => .error .malformed
    | some _ => skip rest
  | c :: rest => if isControl c then .error .malformed else skip rest

/-- Passing over a string takes at least its closing quote. -/
theorem length_skip {cs rest : List Char} (h : skip cs = .ok rest) : rest.length < cs.length := by
  fun_induction skip cs with
  | case1 => simp at h
  | case2 => cases h; simp
  | case3 => simp at h
  | case4 => simp at h
  | case5 a b c d cs n _ ih => have := ih h; simp only [List.length_cons]; omega
  | case6 => simp at h
  | case7 => simp at h
  | case8 => rename_i ih; have := ih h; simp only [List.length_cons]; omega
  | case9 => simp at h
  | case10 => rename_i ih; have := ih h; simp only [List.length_cons]; omega

/-- A hexadecimal digit in lower case. -/
def hexChar (n : Nat) : Char := Nat.digitChar n

/-- A character as it is written in a string: the two characters with a meaning of their own and
the control characters are escaped. -/
def escape (c : Char) : List Char :=
  if c = '"' then ['\\', '"']
  else if c = '\\' then ['\\', '\\']
  else if c = '\x08' then ['\\', 'b']
  else if c = '\x0c' then ['\\', 'f']
  else if c = '\n' then ['\\', 'n']
  else if c = '\r' then ['\\', 'r']
  else if c = '\t' then ['\\', 't']
  else if isControl c then ['\\', 'u', '0', '0', hexChar (c.toNat / 16), hexChar (c.toNat % 16)]
  else [c]

/-- A text with its escapes, without the quotes. -/
def encode (cs : List Char) : List Char := cs.flatMap escape

end Quoted

end ImageLint.Json
