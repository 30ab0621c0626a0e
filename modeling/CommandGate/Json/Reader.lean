import CommandGate.Json.Basic
import CommandGate.Number.Reader

/-!
# Reading JSON

The reader accepts the grammar of RFC 8259 and, as values, the words `NaN`, `Infinity` and
`-Infinity`. Each part of it takes the text that is left and gives a value together with
what is left after it. A fault keeps the text that was left where the reading stopped, so
its position is the length that is missing from the document; `parse` turns that into a
line and a column.

The reading stops at the first fault from the left. A whole number of more than 4300 digits
is a fault of its own (`Fault.longInteger`), met where the number ends.

Documents may be nested to any depth: the limit of the interpreter on its own recursion is left
out, here as in `Json.write` and `Json.display`.
-/

namespace CommandGate

namespace Json

/-- What was missing or wrong at a place of a document. -/
inductive Complaint where
  | value
  | memberName
  | colon
  | comma
  | unterminatedString
  | controlCharacter
  | escape
  | numberedEscape
  | extraData
  | byteOrderMark
  deriving DecidableEq

/-- Why a reading stopped, and for a fault of form the text that was left there. -/
inductive Fault where
  | form (complaint : Complaint) (rest : Text)
  | longInteger (digits : Nat)

/-- The blanks that may stand between the tokens of a document. -/
def isSpace (c : CodePoint) : Bool :=
  c == .scalar ' ' || c == .scalar '\n' || c == .scalar '\r' || c == .scalar '\t'

/-- The text after the blanks at its beginning. -/
def skipSpace (t : Text) : Text :=
  t.dropWhile isSpace

/-- The value of a hexadecimal digit. -/
def hexDigit? : CodePoint → Option Nat
  | .surrogate _ => none
  | .scalar c =>
    if '0' ≤ c ∧ c ≤ '9' then some (c.toNat - '0'.toNat)
    else if 'a' ≤ c ∧ c ≤ 'f' then some (c.toNat - 'a'.toNat + 10)
    else if 'A' ≤ c ∧ c ≤ 'F' then some (c.toNat - 'A'.toNat + 10)
    else none

/-- The number of four hexadecimal digits. -/
def hexQuad? (a b c d : CodePoint) : Option Nat := do
  let a ← hexDigit? a
  let b ← hexDigit? b
  let c ← hexDigit? c
  let d ← hexDigit? d
  return ((a * 16 + b) * 16 + c) * 16 + d

/-- The character that a letter after a backslash stands for. -/
def escapedChar? : CodePoint → Option Char
  | .surrogate _ => none
  | .scalar c => [('"', '"'), ('\\', '\\'), ('/', '/'), ('b', '\x08'), ('f', '\x0c'),
      ('n', '\n'), ('r', '\r'), ('t', '\t')].lookup c

/-- The text in which each high surrogate directly before a low one has become, with it, the
character that the pair stands for. A document holds surrogates only where escapes name
them, so this pairs escapes. -/
def joinSurrogates : Text → Text
  | .surrogate high :: .surrogate low :: rest =>
    if high.val < 0x400 ∧ 0x400 ≤ low.val then
      .ofNat (0x10000 + high.val * 0x400 + (low.val - 0x400)) :: joinSurrogates rest
    else .surrogate high :: joinSurrogates (.surrogate low :: rest)
  | c :: rest => c :: joinSurrogates rest
  | [] => []

/-- Adds a code point in front of what a reading gives. -/
def consPoint (c : CodePoint) (r : Except Fault (Text × Text)) : Except Fault (Text × Text) :=
  r.map fun (t, rest) => (c :: t, rest)

/-- The code points up to the closing quote, escapes replaced one by one, in a string whose
opening quote begins `opening`. A numbered escape needs a character after it. -/
def readPoints (opening : Text) : Text → Except Fault (Text × Text)
  | [] => .error (.form .unterminatedString opening)
  | c :: rest =>
    if c = .scalar '"' then .ok ([], rest)
    else if c = .scalar '\\' then
      match rest with
      | [] => .error (.form .unterminatedString opening)
      | e :: after =>
        if e = .scalar 'u' then
          match after with
          | x₁ :: x₂ :: x₃ :: x₄ :: y :: more =>
            match hexQuad? x₁ x₂ x₃ x₄ with
            | some n => consPoint (.ofNat n) (readPoints opening (y :: more))
            | none => .error (.form .numberedEscape (e :: after))
          | _ => .error (.form .numberedEscape (e :: after))
        else match escapedChar? e with
          | some d => consPoint (.scalar d) (readPoints opening after)
          | none => .error (.form .escape (c :: rest))
    else if c.value < 0x20 then .error (.form .controlCharacter (c :: rest))
    else consPoint c (readPoints opening rest)

/-- The rest of a string whose opening quote begins `opening`. -/
def readString (opening rest : Text) : Except Fault (Text × Text) :=
  (readPoints opening rest).map fun (t, after) => (joinSurrogates t, after)

/-- The ASCII digits at the beginning of a text, and the text after them. -/
def splitDigits : Text → List Char × Text
  | .scalar c :: rest =>
    if isAsciiDigit c then
      let (digits, after) := splitDigits rest
      (c :: digits, after)
    else ([], .scalar c :: rest)
  | rest => ([], rest)

/-- The digits of a whole part: a single zero, or digits that begin with another. -/
def splitWhole : Text → List Char × Text
  | .scalar '0' :: rest => (['0'], rest)
  | rest => splitDigits rest

/-- The digits after a point, if there is a point with a digit after it. -/
def splitFraction : Text → List Char × Text
  | .scalar '.' :: rest =>
    match splitDigits rest with
    | ([], _) => ([], .scalar '.' :: rest)
    | (digits, after) => (digits, after)
  | rest => ([], rest)

/-- The exponent after `e` or `E`, if digits follow it and its sign. -/
def splitExponent (t : Text) : Option Int × Text :=
  match t with
  | .scalar e :: rest =>
    if e = 'e' ∨ e = 'E' then
      let (negative, unsigned) := match rest with
        | .scalar '-' :: r => (true, r)
        | .scalar '+' :: r => (false, r)
        | r => (false, r)
      match splitDigits unsigned with
      | ([], _) => (none, t)
      | (digits, after) =>
        let n : Int := digitsValue digits
        (some (if negative then -n else n), after)
    else (none, t)
  | _ => (none, t)

/-- A number. Without a fraction and an exponent it is a whole number. -/
def readNumber (t : Text) : Except Fault (Json × Text) :=
  let (negative, unsigned) := match t with
    | .scalar '-' :: rest => (true, rest)
    | rest => (false, rest)
  match splitWhole unsigned with
  | ([], _) => .error (.form .value t)
  | (whole, afterWhole) =>
    let (fraction, afterFraction) := splitFraction afterWhole
    let (exponent, rest) := splitExponent afterFraction
    if fraction = [] ∧ exponent = none then
      if maxIntegerDigits < whole.length then .error (.longInteger whole.length)
      else
        let n : Int := digitsValue whole
        .ok (.integer (if negative then -n else n), rest)
    else
      let d := Decimal.ofDigits negative whole fraction (exponent.getD 0)
      .ok (.number d.toBinary64, rest)

/-- The words that are values, with the values they are. -/
def words : List (Text × Json) :=
  [("null", .null), ("true", .bool true), ("false", .bool false), ("NaN", .number .nan),
    ("Infinity", .number (.infinity false)), ("-Infinity", .number (.infinity true))]

/-- The word at the beginning of a text, and the text after it. -/
def readWord? (t : Text) : Option (Json × Text) :=
  words.findSome? fun (word, value) =>
    if word.isPrefixOf t then some (value, t.drop word.length) else none

mutual

/-- A value at the beginning of a text. The budget bounds how many values, items and members
are read one inside or after another. An opening bracket takes two of it, for the list and
for its first item, so a budget above twice the length of the text is never used up. -/
def readValue : Nat → Text → Except Fault (Json × Text)
  | 0, t => .error (.form .value t)
  | budget + 1, t =>
    match t with
    | .scalar '"' :: rest => (readString t rest).map fun (s, after) => (.string s, after)
    | .scalar '{' :: rest =>
      match skipSpace rest with
      | .scalar '}' :: after => .ok (.object [], after)
      | inside => (readMembers budget [] inside).map fun (ms, after) => (.object ms, after)
    | .scalar '[' :: rest =>
      match skipSpace rest with
      | .scalar ']' :: after => .ok (.array [], after)
      | inside => (readItems budget inside).map fun (items, after) => (.array items, after)
    | _ =>
      match readWord? t with
      | some found => .ok found
      | none => readNumber t

/-- The items of an array from one of them up to the closing bracket. -/
def readItems : Nat → Text → Except Fault (List Json × Text)
  | 0, t => .error (.form .value t)
  | budget + 1, t => do
    let (value, rest) ← readValue budget t
    match skipSpace rest with
    | .scalar ']' :: after => return ([value], after)
    | .scalar ',' :: more =>
      let (values, after) ← readItems budget (skipSpace more)
      return (value :: values, after)
    | rest => .error (.form .comma rest)

/-- The members of an object from one of them up to the closing brace, added to those
before. -/
def readMembers : Nat → List (Text × Json) → Text → Except Fault (List (Text × Json) × Text)
  | 0, _, t => .error (.form .memberName t)
  | budget + 1, before, t => do
    match t with
    | .scalar '"' :: rest =>
      let (name, rest) ← readString t rest
      match skipSpace rest with
      | .scalar ':' :: rest =>
        let (value, rest) ← readValue budget (skipSpace rest)
        let members := insert name value before
        match skipSpace rest with
        | .scalar '}' :: after => return (members, after)
        | .scalar ',' :: more => readMembers budget members (skipSpace more)
        | rest => .error (.form .comma rest)
      | rest => .error (.form .colon rest)
    | _ => .error (.form .memberName t)

end

/-- The value that a whole document is. -/
def readDocument (t : Text) : Except Fault Json := do
  if t.head? = some (.scalar '\uFEFF') then .error (.form .byteOrderMark t)
  else
    let (value, rest) ← readValue (2 * t.length + 1) (skipSpace t)
    match skipSpace rest with
    | [] => return value
    | rest => .error (.form .extraData rest)

/-- A place in a document: lines and columns count from one, the offset from zero. -/
structure Position where
  line : Nat
  column : Nat
  offset : Nat
  deriving DecidableEq

/-- The place at which `rest` is left of a document. -/
def positionOf (document rest : Text) : Position :=
  let offset := document.length - rest.length
  let before := document.take offset
  { line := before.count (.scalar '\n') + 1
    column := (before.reverse.takeWhile (· ≠ .scalar '\n')).length + 1
    offset }

/-- Why a text is no document. -/
inductive Error where
  | malformed (complaint : Complaint) (position : Position)
  | longInteger (digits : Nat)
  deriving DecidableEq

/-- The value that a text denotes. -/
def parse (t : Text) : Except Error Json :=
  match readDocument t with
  | .ok value => .ok value
  | .error (.form complaint rest) => .error (.malformed complaint (positionOf t rest))
  | .error (.longInteger digits) => .error (.longInteger digits)

/-- The wording of a complaint. -/
def Complaint.message : Complaint → String
  | value => "Expecting value"
  | memberName => "Expecting property name enclosed in double quotes"
  | colon => "Expecting ':' delimiter"
  | comma => "Expecting ',' delimiter"
  | unterminatedString => "Unterminated string starting at"
  | controlCharacter => "Invalid control character at"
  | escape => "Invalid \\escape"
  | numberedEscape => "Invalid \\uXXXX escape"
  | extraData => "Extra data"
  | byteOrderMark => "Unexpected UTF-8 BOM (decode using utf-8-sig)"

/-- The wording of an error. -/
def Error.message : Error → String
  | malformed complaint p =>
    complaint.message ++ s!": line {p.line} column {p.column} (char {p.offset})"
  | longInteger digits =>
    s!"Exceeds the limit ({maxIntegerDigits} digits) for integer string conversion: "
      ++ s!"value has {digits} digits; use sys.set_int_max_str_digits() to increase the limit"

end Json

end CommandGate
