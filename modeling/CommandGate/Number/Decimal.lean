import CommandGate.Number.Binary64

/-!
# Decimal Literals

A decimal literal stands for `± significand · 10 ^ exponent`. `Decimal.toBinary64` is the
nearest double-precision value. A literal whose first digit lies far outside the range of
the format is decided by its order of magnitude alone, so that no power of ten is computed
that is larger than the answer needs.
-/

namespace CommandGate

/-- The number that a run of ASCII digits denotes. -/
def digitsValue (digits : List Char) : Nat :=
  digits.foldl (fun n c => 10 * n + (c.toNat - '0'.toNat)) 0

/-- A decimal number. -/
structure Decimal where
  negative : Bool
  significand : Nat
  exponent : Int
  deriving DecidableEq

namespace Decimal

/-- The decimal with the given digits before and after the point, scaled by a power of ten. -/
def ofDigits (negative : Bool) (whole fraction : List Char) (exponent : Int) : Decimal where
  negative := negative
  significand := digitsValue (whole ++ fraction)
  exponent := exponent - fraction.length

/-- The nearest double-precision value. From `10 ^ 310` on that is infinity, and below
`10 ^ (-330)` it is zero. -/
def toBinary64 (d : Decimal) : Binary64 :=
  let magnitude : Int := (Nat.toDigits 10 d.significand).length + d.exponent
  if d.significand = 0 ∨ magnitude < -330 then .finite d.negative 0 0
  else if 310 < magnitude then .infinity d.negative
  else if 0 ≤ d.exponent then
    .ofRatio d.negative (d.significand * Nat.pow 10 d.exponent.toNat) 1
  else
    .ofRatio d.negative d.significand (Nat.pow 10 (-d.exponent).toNat)

end Decimal

end CommandGate
