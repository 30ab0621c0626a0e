import CommandGate.Text.Printable

/-!
# Quoted Text

Messages show a name or a text between quotes, on one line and without invisible
characters. The quote is the single one, unless the text holds a single quote and no
double one. Inside, the backslash and the chosen quote follow a backslash, tab, line feed
and carriage return have their letters, and every other character that is not printable is
written by its number in two, four or eight hexadecimal digits, whichever is enough.
-/

namespace CommandGate

/-- The last `width` hexadecimal digits of a number, in lower case. -/
def hexDigits : Nat → Nat → List Char
  | 0, _ => []
  | width + 1, n => hexDigits width (n / 16) ++ [Nat.digitChar (n % 16)]

/-- A code point by its number: `x`, `u` or `U` and two, four or eight digits. -/
def CodePoint.numbered (c : CodePoint) : List Char :=
  let n := c.value
  if n < 0x100 then '\\' :: 'x' :: hexDigits 2 n
  else if n < 0x10000 then '\\' :: 'u' :: hexDigits 4 n
  else '\\' :: 'U' :: hexDigits 8 n

namespace Text

/-- The quote that a text is shown between. -/
def quoteMark (t : Text) : Char :=
  if CodePoint.scalar '\'' ∈ t ∧ CodePoint.scalar '"' ∉ t then '"' else '\''

/-- One code point as it stands between two quotes `mark`. -/
def quotedPoint (mark : Char) (c : CodePoint) : Text :=
  if c = .scalar mark ∨ c = .scalar '\\' then [.scalar '\\', c]
  else if c = .scalar '\t' then "\\t"
  else if c = .scalar '\n' then "\\n"
  else if c = .scalar '\r' then "\\r"
  else if c.isPrintable then [c]
  else c.numbered.map .scalar

/-- A text between quotes. -/
def quoted (t : Text) : Text :=
  let mark := quoteMark t
  [.scalar mark] ++ t.flatMap (quotedPoint mark) ++ [.scalar mark]

end Text

end CommandGate
