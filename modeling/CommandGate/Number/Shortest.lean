import CommandGate.Number.Binary64

/-!
# Shortest Digits

The shortest digits of a finite value are the fewest significant decimal digits that read
back as that value. The numbers that read back form an interval around it, half a unit of
the last place to each side; below a power of two the lower side is a quarter, because the
neighbour there is nearer. The ends belong to the interval when the significand is even.

With one, two, … seventeen digits in turn, the two neighbours of the value on that decimal
grid are tried. The first grid of which a neighbour lies in the interval gives the answer;
of two the nearer is taken, and of two equally near the even one.
-/

namespace CommandGate

namespace Binary64

/-- A positive value together with the numbers that read back as it, all as multiples of
`1 / unit`: the value is `mid / unit`, and the interval reaches from `low` to `high`. -/
structure Neighbourhood where
  unit : Nat
  low : Nat
  mid : Nat
  high : Nat
  closed : Bool

/-- The neighbourhood of `m · 2 ^ scale / 2 ^ 1074`. -/
def neighbourhood (m scale : Nat) : Neighbourhood :=
  let step := Nat.pow 2 scale
  { unit := 4 * Nat.pow 2 unitScale
    low := 4 * m * step - (if m = Nat.pow 2 (precision - 1) ∧ 0 < scale then step else 2 * step)
    mid := 4 * m * step
    high := 4 * m * step + 2 * step
    closed := m % 2 == 0 }

namespace Neighbourhood

/-- Whether `num / den` is in the interval, `num` and `den` being scaled by the unit. -/
def contains (n : Neighbourhood) (num den : Nat) : Bool :=
  if n.closed then n.low * den ≤ num && num ≤ n.high * den
  else n.low * den < num && num < n.high * den

/-- Whether the value is at least `10 ^ e`. -/
def reaches (n : Neighbourhood) (e : Int) : Bool :=
  if 0 ≤ e then n.unit * Nat.pow 10 e.toNat ≤ n.mid
  else n.unit ≤ n.mid * Nat.pow 10 (-e).toNat

/-- The exponent of the leading decimal digit: the largest power of ten that the value
reaches. The binary order of magnitude gives an estimate that is never too high and at most
two too low, which is then corrected. -/
def leadingExponent (n : Neighbourhood) : Int :=
  let binary : Int := (n.mid.log2 : Int) - n.unit.log2
  let estimate := (binary * 30103).fdiv 100000 - 1
  if n.reaches (estimate + 2) then estimate + 2
  else if n.reaches (estimate + 1) then estimate + 1
  else estimate

/-- The neighbour of the value on the grid of multiples of `10 ^ e` that reads back as it. -/
def onGrid? (n : Neighbourhood) (e : Int) : Option Nat :=
  let num := if 0 ≤ e then n.mid else n.mid * Nat.pow 10 (-e).toNat
  let den := if 0 ≤ e then n.unit * Nat.pow 10 e.toNat else n.unit
  -- the interval is scaled like the value
  let fits (k : Nat) : Bool :=
    if 0 ≤ e then n.contains (k * n.unit * Nat.pow 10 e.toNat) 1
    else n.contains (k * n.unit) (Nat.pow 10 (-e).toNat)
  let below := num / den
  let above := below + 1
  match fits below, fits above with
  | true, true => some (roundHalfEven num den)
  | true, false => some below
  | false, true => some above
  | false, false => none

/-- The fewest digits: a natural number and the power of ten that it is a multiple of. -/
def shortest (n : Neighbourhood) : Nat × Int :=
  let lead := n.leadingExponent
  let hit := (List.range 17).findSome? fun (k : Nat) =>
    (n.onGrid? (lead - k)).map fun digits => (digits, lead - (k : Int))
  hit.getD (0, 0)

end Neighbourhood

/-- The shortest digits of `m · 2 ^ scale / 2 ^ 1074`, without trailing zeros, and the
exponent of ten of the last of them. -/
def shortestDigits (m scale : Nat) : List Char × Int :=
  if m = 0 then (['0'], 0)
  else
    let (digits, exponent) := (neighbourhood m scale).shortest
    let all := Nat.toDigits 10 digits
    let kept := (all.reverse.dropWhile (· == '0')).reverse
    (kept, exponent + ((all.length : Int) - kept.length))

end Binary64

end CommandGate
