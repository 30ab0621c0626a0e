import CommandGate.Number.Shortest

/-!
# Number Format

A finite value is written with its shortest digits. It is written positionally, always with
a point, when its leading digit stands between `10 ^ (-4)` and `10 ^ 15`; otherwise with one
digit before the point and an exponent of at least two digits that always has a sign. The
words for the values that have no digits differ between the formats of this program, so
they are parameters.
-/

namespace CommandGate

/-- The words of a number format for values that have no digits. -/
structure NumberWords where
  nan : String
  infinity : String

/-- The words of messages. -/
def NumberWords.plain : NumberWords := ⟨"nan", "inf"⟩

/-- The words of JSON documents, which the JSON grammar proper does not have. -/
def NumberWords.json : NumberWords := ⟨"NaN", "Infinity"⟩

/-- An exponent: its sign, and at least two digits. -/
def exponentText (e : Int) : List Char :=
  let digits := Nat.toDigits 10 e.natAbs
  (if e < 0 then '-' else '+') :: (if digits.length < 2 then '0' :: digits else digits)

/-- Digits laid out with the leading one at the power of ten `lead`. -/
def layDigits (digits : List Char) (lead : Int) : List Char :=
  if lead < -4 ∨ 16 ≤ lead then
    match digits with
    | [] => []
    | d :: rest => d :: (if rest = [] then [] else '.' :: rest) ++ 'e' :: exponentText lead
  else if lead < 0 then
    '0' :: '.' :: List.replicate (-lead - 1).toNat '0' ++ digits
  else
    let wholeLength := lead.toNat + 1
    let whole := digits.take wholeLength
    let fraction := digits.drop wholeLength
    whole ++ List.replicate (wholeLength - whole.length) '0'
      ++ '.' :: (if fraction = [] then ['0'] else fraction)

/-- A value as text. -/
def Binary64.text (words : NumberWords) : Binary64 → String
  | nan => words.nan
  | infinity negative => (if negative then "-" else "") ++ words.infinity
  | finite negative m scale =>
    let (digits, exponent) := shortestDigits m scale
    (if negative then "-" else "")
      ++ String.ofList (layDigits digits (exponent + digits.length - 1))

end CommandGate
