/-!
# Double-Precision Numbers

The numbers of settings, clocks and JSON documents are the values of the 64-bit binary
format. They are held exactly: a finite value is `± significand · 2 ^ scale / 2 ^ 1074`,
with a significand below `2 ^ 53` and a scale up to `2045`, and every finite value has one
such form in which the scale is zero or the significand is at least `2 ^ 52`.

`ofRatio` rounds a quotient of natural numbers to the nearest value, a tie going to the
even significand, and a quotient that rounds beyond the largest finite value to infinity.
Nothing here uses machine arithmetic, so all of it can be computed in proofs.
-/

namespace CommandGate

/-- A value of the 64-bit binary floating-point format. -/
inductive Binary64 where
  | nan
  | infinity (negative : Bool)
  | finite (negative : Bool) (significand scale : Nat)
  deriving DecidableEq

/-- The quotient `num / den` rounded to the nearest natural number, a tie to the even one. -/
def roundHalfEven (num den : Nat) : Nat :=
  let q := num / den
  let r := num % den
  if 2 * r < den then q
  else if den < 2 * r then q + 1
  else q + q % 2

namespace Binary64

/-- The number of halvings from one to the smallest positive value. -/
def unitScale : Nat := 1074

/-- The number of bits of a significand. -/
def precision : Nat := 53

/-- The largest scale of a finite value. -/
def maxScale : Nat := 2045

/-- The value nearest to `num / den`, for a positive `den`. -/
def ofRatio (negative : Bool) (num den : Nat) : Binary64 :=
  let units := num * Nat.pow 2 unitScale
  let scale := (units / den).log2 - (precision - 1)
  let m := roundHalfEven units (den * Nat.pow 2 scale)
  let (m, scale) := if m = Nat.pow 2 precision then (m / 2, scale + 1) else (m, scale)
  if scale ≤ maxScale then finite negative m scale else infinity negative

/-- The value `1`. -/
def one : Binary64 := ofRatio false 1 1

/-- Whether a value is greater than zero; that which is not a number is not. -/
def isPositive : Binary64 → Bool
  | nan => false
  | infinity negative => !negative
  | finite negative m _ => !negative && 0 < m

/-- Whether a value is one of the two zeros. -/
def isZero : Binary64 → Bool
  | finite _ m _ => m == 0
  | _ => false

/-- Whether a value is neither infinite nor missing. -/
def isFinite : Binary64 → Bool
  | finite .. => true
  | _ => false

end Binary64

end CommandGate
