import ImageLint.Text.Shown.Data

/-!
# Texts shown in quotes

How a text is shown inside a message: in double quotes, with escapes for the quote, the backslash,
line ends and tabs, and with the code point of every character that would not be seen.
-/

namespace ImageLint.Text

namespace Shown

/-- Whether a character would not be seen, or would change the one before it. -/
def isHidden (c : Char) : Bool :=
  c.toNat < 0x20 || c.toNat = 0x7F ||
    (0x80 ≤ c.toNat && hiddenRanges.any fun r => r.1 ≤ c.toNat && c.toNat ≤ r.2)

/-- A character inside the quotes. -/
def escape (c : Char) : List Char :=
  if c = '\x00' then ['\\', '0']
  else if c = '\t' then ['\\', 't']
  else if c = '\r' then ['\\', 'r']
  else if c = '\n' then ['\\', 'n']
  else if c = '\\' then ['\\', '\\']
  else if c = '"' then ['\\', '"']
  else if isHidden c then ['\\', 'u', '\x7b'] ++ Nat.toDigits 16 c.toNat ++ ['\x7d']
  else [c]

end Shown

/-- A text in quotes as it is shown. -/
def shown (s : String) : String := String.ofList ('"' :: (s.toList.flatMap Shown.escape ++ ['"']))

end ImageLint.Text
