import CommandGate.Number.Decimal
import CommandGate.Text.Classes

/-!
# Reading Numbers

Settings give numbers in a generous spelling. Blanks around the number do not count; digits
may be those of any script; one underscore may stand between two digits. A real number has
an optional sign, digits with at most one point among or beside them, and an optional
exponent; the words `inf`, `infinity` and `nan` are numbers too, in either case. A whole
number has an optional sign and digits.
-/

namespace CommandGate

/-- Blanks and digits outside ASCII replaced by the space and by ASCII digits; `none` if any
other character outside ASCII is present. -/
def asciiForm : List Char → Option (List Char)
  | [] => some []
  | c :: rest =>
    let mapped : Option Char :=
      if c.toNat < 0x80 then some c
      else if isBlank c then some ' '
      else (decimalDigit? c).map fun d => Char.ofNat ('0'.toNat + d)
    mapped.bind fun m => (asciiForm rest).map (m :: ·)

/-- The characters without underscores; `none` unless each underscore has a digit on both
sides. The first argument is the character before. -/
def joinDigits : Option Char → List Char → Option (List Char)
  | _, [] => some []
  | before, '_' :: rest =>
    if before.any isAsciiDigit && rest.head?.any isAsciiDigit then joinDigits (some '_') rest
    else none
  | _, c :: rest => (joinDigits (some c) rest).map (c :: ·)

/-- The characters that spell a number, brought to ASCII and without blanks at the ends. -/
def numeral? (s : String) : Option (List Char) :=
  ((asciiForm s.toList).bind (joinDigits none)).map (strip isAsciiBlank)

/-- A leading sign, and whether it is a minus. -/
def splitSign : List Char → Bool × List Char
  | '-' :: rest => (true, rest)
  | '+' :: rest => (false, rest)
  | rest => (false, rest)

/-- The exponent at the end of a numeral; nothing at all stands for zero. -/
def exponent? : List Char → Option Int
  | [] => some 0
  | e :: rest =>
    let (negative, digits) := splitSign rest
    if (e == 'e' || e == 'E') && digits ≠ [] && digits.all isAsciiDigit then
      let n : Int := digitsValue digits
      some (if negative then -n else n)
    else none

/-- An unsigned decimal literal. -/
def unsigned? (negative : Bool) (cs : List Char) : Option Decimal :=
  let whole := cs.takeWhile isAsciiDigit
  let rest := cs.dropWhile isAsciiDigit
  let (fraction, rest) := match rest with
    | '.' :: r => (r.takeWhile isAsciiDigit, r.dropWhile isAsciiDigit)
    | r => ([], r)
  if whole = [] ∧ fraction = [] then none
  else (exponent? rest).map (Decimal.ofDigits negative whole fraction ·)

/-- The number that a string spells. -/
def Binary64.read? (s : String) : Option Binary64 :=
  (numeral? s).bind fun cs =>
    let (negative, cs) := splitSign cs
    let word := String.ofList (cs.map Char.toLower)
    if word = "inf" ∨ word = "infinity" then some (.infinity negative)
    else if word = "nan" then some .nan
    else (unsigned? negative cs).map Decimal.toBinary64

/-- The largest number of digits that a whole number is read from. -/
def maxIntegerDigits : Nat := 4300

/-- The whole number that a string spells. -/
def readInt? (s : String) : Option Int :=
  (numeral? s).bind fun cs =>
    let (negative, digits) := splitSign cs
    if digits ≠ [] ∧ digits.all isAsciiDigit ∧ digits.length ≤ maxIntegerDigits then
      let n : Int := digitsValue digits
      some (if negative then -n else n)
    else none

end CommandGate
