/-!
# Styled text

A text for a terminal is a list of spans, some of them with a style. Without colours only the text
of the spans is written. With colours a styled span stands between the escape sequence of its style
and the one that resets it; where the text itself resets the style, the style is set again.
-/

namespace ImageLint.Text

/-- How strong a span is drawn. -/
inductive Weight where
  | bold
  | dimmed
  deriving DecidableEq, Repr

/-- The colour of a span. -/
inductive Colour where
  | red
  | green
  | yellow
  | cyan
  deriving DecidableEq, Repr

/-- The style of a span: a weight, a colour or both. -/
inductive Style where
  | weight (w : Weight)
  | colour (c : Colour)
  | both (w : Weight) (c : Colour)
  deriving DecidableEq, Repr

/-- A piece of a text. -/
inductive Span where
  | plain (text : List Char)
  | styled (style : Style) (text : List Char)
  deriving DecidableEq, Repr

def Weight.code : Weight → List Char
  | .bold => ['1']
  | .dimmed => ['2']

def Colour.code : Colour → List Char
  | .red => ['3', '1']
  | .green => ['3', '2']
  | .yellow => ['3', '3']
  | .cyan => ['3', '6']

/-- The codes of a style, the weight first. -/
def Style.codes : Style → List Char
  | .weight w => w.code
  | .colour c => c.code
  | .both w c => w.code ++ ';' :: c.code

/-- The character that begins an escape sequence. -/
def escapeChar : Char := '\x1b'

/-- The escape sequence with the given codes. -/
def escapeSequence (codes : List Char) : List Char := escapeChar :: '[' :: (codes ++ ['m'])

/-- The escape sequence that resets the style. -/
def reset : List Char := escapeSequence ['0']

/-- Sets the style again wherever it is reset. -/
def restyle (opening : List Char) : List Char → List Char
  | '\x1b' :: '[' :: '0' :: 'm' :: rest => reset ++ opening ++ restyle opening rest
  | c :: cs => c :: restyle opening cs
  | [] => []

/-- A text in a style. -/
def Style.paint (s : Style) (text : List Char) : List Char :=
  let opening := escapeSequence s.codes
  opening ++ restyle opening text ++ reset

namespace Span

/-- A span without a style. -/
def ofString (s : String) : Span := .plain s.toList

/-- A span in a style. -/
def ofStyled (style : Style) (s : String) : Span := .styled style s.toList

/-- The text of a span. -/
def text : Span → List Char
  | .plain t => t
  | .styled _ t => t

/-- A span as it is written, with or without colours. -/
def render (coloured : Bool) : Span → List Char
  | .plain t => t
  | .styled s t => if coloured then s.paint t else t

end Span

/-- Spans as they are written, with or without colours. -/
def renderSpans (coloured : Bool) (spans : List Span) : List Char :=
  spans.flatMap (Span.render coloured)

/-- Without colours the text of the spans is written. -/
theorem renderSpans_plain (spans : List Span) :
    renderSpans false spans = spans.flatMap Span.text := by
  induction spans with
  | nil => rfl
  | cons s spans ih =>
    have h : renderSpans false (s :: spans) = s.render false ++ renderSpans false spans := rfl
    rw [h, ih, List.flatMap_cons]
    cases s <;> rfl

/-- Spans are written one after another. -/
theorem renderSpans_append (coloured : Bool) (a b : List Span) :
    renderSpans coloured (a ++ b) = renderSpans coloured a ++ renderSpans coloured b := by
  simp [renderSpans]

end ImageLint.Text
