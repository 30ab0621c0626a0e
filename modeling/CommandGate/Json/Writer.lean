import CommandGate.Json.Basic
import CommandGate.Number.Format
import CommandGate.Text.Quoted

/-!
# Writing JSON

A style says how documents look: on one line with a space after each comma and colon, or
with every member and item on a line of its own, indented; and whether characters outside
printable ASCII are written as they are or as numbered escapes. In every style the quote,
the backslash and the control characters are escaped, and whole numbers and names are
written in full.

The values to be written are those that a reader can give, and those that the program makes of
texts and exit codes. The whole numbers of a reader have at most `maxIntegerDigits` digits
(`Json.isReadable_of_parse`), and exit codes have far fewer, so the limit of the interpreter on
the digits of a number, which is the same for reading and for writing, is never met here.
-/

namespace CommandGate

namespace Json

/-- How documents look. -/
structure Style where
  /-- Whether only printable ASCII is written as it is. -/
  asciiOnly : Bool
  /-- The number of spaces that each level is indented by; on one line if absent. -/
  indent : Option Nat

/-- One line, all characters but controls as they are: the style of logs. -/
def Style.line : Style := ⟨false, none⟩

/-- One line of printable ASCII. -/
def Style.ascii : Style := ⟨true, none⟩

/-- Two spaces to a level, in printable ASCII: the style of files that people edit. -/
def Style.pretty : Style := ⟨true, some 2⟩

/-- A numbered escape of a 16-bit unit. -/
def unitEscape (n : Nat) : Text :=
  ('\\' :: 'u' :: hexDigits 4 n).map .scalar

/-- A code point as one numbered escape, or as two that form a surrogate pair. -/
def numberedEscape (c : CodePoint) : Text :=
  let n := c.value
  if n < 0x10000 then unitEscape n
  else unitEscape (0xD800 + (n - 0x10000) / 0x400) ++ unitEscape (0xDC00 + (n - 0x10000) % 0x400)

/-- One code point inside a string. -/
def writePoint (style : Style) (c : CodePoint) : Text :=
  if c = .scalar '"' then "\\\""
  else if c = .scalar '\\' then "\\\\"
  else if c = .scalar '\n' then "\\n"
  else if c = .scalar '\r' then "\\r"
  else if c = .scalar '\t' then "\\t"
  else if c = .scalar '\x0c' then "\\f"
  else if c = .scalar '\x08' then "\\b"
  else if c.value < 0x20 ∨ (style.asciiOnly ∧ 0x7F ≤ c.value) then numberedEscape c
  else [c]

/-- A string. -/
def writeString (style : Style) (t : Text) : Text :=
  [.scalar '"'] ++ t.flatMap (writePoint style) ++ [.scalar '"']

/-- A whole number. -/
def writeInteger (n : Int) : Text :=
  let digits := Nat.toDigits 10 n.natAbs
  (if n < 0 then '-' :: digits else digits).map .scalar

/-- What stands before an item or a closing bracket at a depth: a line break and blanks in
an indented style, nothing otherwise. -/
def Style.lineBreak (style : Style) (depth : Nat) : Text :=
  match style.indent with
  | none => []
  | some width => .scalar '\n' :: List.replicate (width * depth) (.scalar ' ')

/-- What stands between two items. -/
def Style.separator (style : Style) (depth : Nat) : Text :=
  match style.indent with
  | none => ", "
  | some _ => "," ++ style.lineBreak depth

mutual

/-- A value whose enclosing brackets number `depth`. -/
def writeAt (style : Style) (depth : Nat) : Json → Text
  | .null => "null"
  | .bool true => "true"
  | .bool false => "false"
  | .integer n => writeInteger n
  | .number x => x.text .json
  | .string t => writeString style t
  | .array [] => "[]"
  | .array (v :: vs) =>
    "[" ++ style.lineBreak (depth + 1) ++ writeAt style (depth + 1) v
      ++ writeItems style (depth + 1) vs ++ style.lineBreak depth ++ "]"
  | .object [] => "\x7b\x7d"
  | .object (m :: ms) =>
    "\x7b" ++ style.lineBreak (depth + 1) ++ writeMember style (depth + 1) m
      ++ writeMembers style (depth + 1) ms ++ style.lineBreak depth ++ "\x7d"

/-- The items after the first. -/
def writeItems (style : Style) (depth : Nat) : List Json → Text
  | [] => []
  | v :: vs => style.separator depth ++ writeAt style depth v ++ writeItems style depth vs

/-- A member: its name, a colon, and its value. -/
def writeMember (style : Style) (depth : Nat) : Text × Json → Text
  | (name, v) => writeString style name ++ ": " ++ writeAt style depth v

/-- The members after the first. -/
def writeMembers (style : Style) (depth : Nat) : List (Text × Json) → Text
  | [] => []
  | m :: ms => style.separator depth ++ writeMember style depth m ++ writeMembers style depth ms

end

/-- The document of a value. -/
def write (style : Style) (v : Json) : Text :=
  writeAt style 0 v

end Json

end CommandGate
