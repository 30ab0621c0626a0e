import CommandGate.Text.Basic

/-!
# Classes of Characters

The blank characters are those of the Unicode bidirectional classes `WS`, `B` and `S` and
of the category `Zs`: the ASCII controls from tab to carriage return, the four ASCII
separators, the space, and their relatives outside ASCII. `strip` removes them at both
ends of a sequence, whatever its elements are.

The decimal digits are the characters of category `Nd`. They come in runs of ten consecutive
code points, a run for each script, from zero to nine. A run is known by its zero, so the
table lists the zeros alone.
-/

namespace CommandGate

/-- The ranges of blank characters, ends included. -/
def blankRanges : List (Nat × Nat) :=
  [(0x09, 0x0D), (0x1C, 0x20), (0x85, 0x85), (0xA0, 0xA0), (0x1680, 0x1680),
    (0x2000, 0x200A), (0x2028, 0x2029), (0x202F, 0x202F), (0x205F, 0x205F), (0x3000, 0x3000)]

/-- Whether a character is blank. -/
def isBlank (c : Char) : Bool :=
  blankRanges.any fun (lo, hi) => lo ≤ c.toNat && c.toNat ≤ hi

/-- Whether a character is one of the six blanks that ASCII texts are laid out with: the
space, and the controls from tab to carriage return. -/
def isAsciiBlank (c : Char) : Bool :=
  c == ' ' || (9 ≤ c.toNat && c.toNat ≤ 13)

/-- The sequence without the elements at its two ends that satisfy `p`. -/
def strip {α : Type} (p : α → Bool) (xs : List α) : List α :=
  ((xs.dropWhile p).reverse.dropWhile p).reverse

/-- The string without blanks at its ends. -/
def stripBlanks (s : String) : String :=
  String.ofList (strip isBlank s.toList)

/-- Whether a code point is blank; a surrogate never is. -/
def CodePoint.isBlank : CodePoint → Bool
  | scalar c => CommandGate.isBlank c
  | surrogate _ => false

/-- Whether every character of a text is blank. -/
def Text.isBlank (t : Text) : Bool :=
  t.all CodePoint.isBlank

/-- The zeros of the runs of decimal digits, in order; the first is that of ASCII. -/
def decimalZeros : List Nat :=
  [0x30, 0x660, 0x6F0, 0x7C0, 0x966, 0x9E6, 0xA66, 0xAE6, 0xB66, 0xBE6, 0xC66, 0xCE6, 0xD66,
    0xDE6, 0xE50, 0xED0, 0xF20, 0x1040, 0x1090, 0x17E0, 0x1810, 0x1946, 0x19D0, 0x1A80, 0x1A90,
    0x1B50, 0x1BB0, 0x1C40, 0x1C50, 0xA620, 0xA8D0, 0xA900, 0xA9D0, 0xA9F0, 0xAA50, 0xABF0,
    0xFF10, 0x104A0, 0x10D30, 0x11066, 0x110F0, 0x11136, 0x111D0, 0x112F0, 0x11450, 0x114D0,
    0x11650, 0x116C0, 0x11730, 0x118E0, 0x11950, 0x11C50, 0x11D50, 0x11DA0, 0x16A60, 0x16AC0,
    0x16B50, 0x1D7CE, 0x1D7D8, 0x1D7E2, 0x1D7EC, 0x1D7F6, 0x1E140, 0x1E2F0, 0x1E950, 0x1FBF0]

/-- The value of a decimal digit of any script. -/
def decimalDigit? (c : Char) : Option Nat :=
  (decimalZeros.find? fun z => z ≤ c.toNat && c.toNat < z + 10).map (c.toNat - ·)

/-- Whether a character is one of the ten ASCII digits. -/
def isAsciiDigit (c : Char) : Bool :=
  '0' ≤ c && c ≤ '9'

end CommandGate
