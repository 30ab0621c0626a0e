import CommandGate.Proofs.Number.Digits
import Mathlib.Algebra.Order.Field.Basic
import Mathlib.Algebra.Order.Field.Power
import Mathlib.Data.Rat.Cast.Order
import Mathlib.Tactic.Linarith
import Mathlib.Tactic.NormNum
import Mathlib.Tactic.Ring
import Mathlib.Tactic.Positivity

/-!
# Numbers beyond the Largest Value

A number is rounded to infinity from half a unit above the largest finite value on. On that
border (`Binary64.overflow`) the two neighbours are equally near; the upper one would have the
even significand, so the border itself is infinite. Decimal literals that are decided by their
order of magnitude alone stand on the proper side of it.

## Main results

* `Binary64.ofRatio_eq_infinity_iff`: the quotients that become infinite.
* `Decimal.toBinary64_eq_infinity_iff`: the decimal literals that become infinite.
-/

namespace CommandGate

/-! ### Rounding -/

section Rounding

variable {num den k : Nat}

/-- A quotient up to a number is rounded up to that number at most. -/
theorem roundHalfEven_le (h : num ≤ k * den) : roundHalfEven num den ≤ k := by
  rcases Nat.eq_zero_or_pos den with rfl | hd
  · obtain rfl : num = 0 := by omega
    simp [roundHalfEven]
  have hdiv : den * (num / den) + num % den = num := Nat.div_add_mod num den
  have hmod : num % den < den := Nat.mod_lt _ hd
  have hcomm : k * den = den * k := Nat.mul_comm _ _
  rw [roundHalfEven]
  rcases Nat.lt_or_ge (num / den) k with hlt | hge
  · split_ifs <;> omega
  · have hq : den * k ≤ den * (num / den) := Nat.mul_le_mul_left _ hge
    have hsame : num / den = k := Nat.le_antisymm (Nat.div_le_of_le_mul (hcomm ▸ h)) hge
    rw [if_pos (by omega), hsame]

/-- **Half way above an odd number** a quotient is rounded up. -/
theorem lt_roundHalfEven_iff (hd : 0 < den) (hk : k % 2 = 1) :
    k < roundHalfEven num den ↔ (2 * k + 1) * den ≤ 2 * num := by
  have hdiv : den * (num / den) + num % den = num := Nat.div_add_mod num den
  have hmod : num % den < den := Nat.mod_lt _ hd
  have hmiddle : (2 * k + 1) * den = 2 * (den * k) + den := by ring
  rw [roundHalfEven, hmiddle]
  rcases lt_trichotomy (num / den) k with hlt | heq | hgt
  · -- the quotient is below the odd number
    have hq : den * (num / den + 1) ≤ den * k := Nat.mul_le_mul_left _ hlt
    rw [Nat.mul_succ] at hq
    refine iff_of_false ?_ (by omega)
    split_ifs <;> omega
  · rw [heq] at hdiv ⊢
    split_ifs <;> omega
  · have hq : den * (k + 1) ≤ den * (num / den) := Nat.mul_le_mul_left _ hgt
    rw [Nat.mul_succ] at hq
    refine iff_of_true ?_ (by omega)
    split_ifs <;> omega

/-- A quotient that has a number of bits is rounded up to one bit more from half way above the
largest such number on, which is odd. -/
theorem roundHalfEven_eq_two_pow_iff {bits : Nat} (hd : 0 < den) (hb : 0 < bits)
    (h : num ≤ 2 ^ bits * den) :
    roundHalfEven num den = 2 ^ bits ↔ (2 * (2 ^ bits - 1) + 1) * den ≤ 2 * num := by
  obtain ⟨b, rfl⟩ : ∃ b, bits = b + 1 := ⟨bits - 1, by omega⟩
  have hpos : 0 < 2 ^ b := Nat.two_pow_pos b
  have hdouble : 2 ^ (b + 1) = 2 * 2 ^ b := Nat.pow_succ'
  have hle := roundHalfEven_le h
  rw [← lt_roundHalfEven_iff hd (by omega)]
  omega

end Rounding

namespace Binary64

/-! ### Quotients -/

/-- The rounding of `ofRatio` to any format: with a number of halvings down to the smallest
positive value, a number of bits of a significand, and a largest scale. -/
def roundTo (halvings bits top : Nat) (negative : Bool) (num den : Nat) : Binary64 :=
  let units := num * Nat.pow 2 halvings
  let scale := (units / den).log2 - (bits - 1)
  let m := roundHalfEven units (den * Nat.pow 2 scale)
  let (m, scale) := if m = Nat.pow 2 bits then (m / 2, scale + 1) else (m, scale)
  if scale ≤ top then finite negative m scale else infinity negative

/-- Double precision is one of the formats. -/
theorem ofRatio_eq : ofRatio = roundTo unitScale precision maxScale :=
  rfl

section Format

variable {halvings bits top num den : Nat} {negative : Bool}

/-- What the scale and the significand of a quotient come to: a significand that has one bit too
many is halved. -/
theorem roundTo_eq {units scale m : Nat} (hunits : num * Nat.pow 2 halvings = units)
    (hscale : (units / den).log2 - (bits - 1) = scale)
    (hm : roundHalfEven units (den * Nat.pow 2 scale) = m) :
    roundTo halvings bits top negative num den =
      if top < scale ∨ top = scale ∧ m = Nat.pow 2 bits then infinity negative
      else if m = Nat.pow 2 bits then finite negative (m / 2) (scale + 1)
      else finite negative m scale := by
  unfold roundTo
  dsimp only
  rw [hunits, hscale, hm]
  by_cases h : m = Nat.pow 2 bits
  · simp only [h, if_true, and_true]
    split_ifs <;> first | rfl | omega
  · simp only [h, if_false, and_false, or_false]
    split_ifs <;> first | rfl | omega

/-- A quotient becomes finite or infinite, with the sign that is given. -/
theorem roundTo_cases (halvings bits top : Nat) (negative : Bool) (num den : Nat) :
    roundTo halvings bits top negative num den = infinity negative ∨
      ∃ m scale, roundTo halvings bits top negative num den = finite negative m scale := by
  rw [roundTo_eq rfl rfl rfl]
  split_ifs
  · exact .inl rfl
  · exact .inr ⟨_, _, rfl⟩
  · exact .inr ⟨_, _, rfl⟩

section Scale

variable {q b : Nat}

/-- Below a power of two the scale is below that of the power. -/
theorem log2_sub_lt (ht : 0 < top) (h : q < 2 ^ (top + b)) : q.log2 - b < top := by
  rcases Nat.eq_zero_or_pos q with rfl | hq
  · simpa using ht
  · have hlog := (Nat.log2_lt hq.ne').mpr h
    omega

/-- What is at least a power of two is not zero. -/
theorem ne_zero_of_two_pow_le {n : Nat} (h : 2 ^ n ≤ q) : q ≠ 0 :=
  ((Nat.two_pow_pos n).trans_le h).ne'

/-- Between two powers it is that of the lower one. -/
theorem log2_sub_eq (h : 2 ^ (top + b) ≤ q) (h' : q < 2 ^ (top + b + 1)) :
    q.log2 - b = top := by
  have hlow := (Nat.le_log2 (ne_zero_of_two_pow_le h)).mpr h
  have hhigh := (Nat.log2_lt (ne_zero_of_two_pow_le h)).mpr h'
  omega

/-- From the next power on the scale is above that of the lower one. -/
theorem lt_log2_sub (h : 2 ^ (top + b + 1) ≤ q) : top < q.log2 - b := by
  have hlow := (Nat.le_log2 (ne_zero_of_two_pow_le h)).mpr h
  omega

end Scale

/-- Twice the border is one step short of a power of two. -/
theorem border_add (b step : Nat) :
    (2 * (2 ^ (b + 1) - 1) + 1) * step + step = 4 * (step * 2 ^ b) := by
  obtain ⟨p, hp⟩ : ∃ p, 2 ^ b = p + 1 := ⟨_, (Nat.sub_add_cancel (Nat.two_pow_pos b)).symm⟩
  rw [Nat.pow_succ', hp, show 2 * (2 * (p + 1) - 1) + 1 = 4 * p + 3 by omega]
  ring

/-- The quotients that become infinite, in units. -/
theorem roundTo_eq_infinity_iff_units (hd : 0 < den) (ht : 0 < top) (hb : 0 < bits) :
    roundTo halvings bits top negative num den = infinity negative ↔
      (2 * (2 ^ bits - 1) + 1) * (den * 2 ^ top) ≤ 2 * (num * 2 ^ halvings) := by
  obtain ⟨b, rfl⟩ : ∃ b, bits = b + 1 := ⟨bits - 1, by omega⟩
  have hhalvings : num * Nat.pow 2 halvings = num * 2 ^ halvings := rfl
  rw [roundTo_eq hhalvings rfl rfl, Nat.add_sub_cancel]
  generalize num * 2 ^ halvings = units
  -- a power of two that bounds the quotient bounds the units
  have hmod : units % den < den := Nat.mod_lt _ hd
  have hdiv : den * (units / den) + units % den = units := Nat.div_add_mod units den
  have below {n : Nat} (h : units / den < 2 ^ n) : units < den * 2 ^ n := by
    have hnext : den * (units / den + 1) ≤ den * 2 ^ n := Nat.mul_le_mul_left _ h
    rw [Nat.mul_succ] at hnext
    omega
  have above {n : Nat} (h : 2 ^ n ≤ units / den) : den * 2 ^ n ≤ units :=
    (Nat.mul_le_mul_left _ h).trans (by omega)
  have hlow : den * 2 ^ (top + b) = den * 2 ^ top * 2 ^ b := by rw [Nat.pow_add, Nat.mul_assoc]
  have hhigh : den * 2 ^ (top + b + 1) = 2 * (den * 2 ^ top * 2 ^ b) := by
    rw [Nat.pow_succ, ← Nat.mul_assoc, hlow, Nat.mul_comm]
  have hborder := border_add b (den * 2 ^ top)
  have hstep : den * 2 ^ top ≤ den * 2 ^ top * 2 ^ b :=
    Nat.le_mul_of_pos_right _ (Nat.two_pow_pos b)
  rcases Nat.lt_or_ge (units / den) (2 ^ (top + b)) with hsmall | hbig
  · have hscale := log2_sub_lt ht hsmall
    have hunits := hlow ▸ below hsmall
    rw [if_neg (by omega)]
    refine iff_of_false ?_ (by omega)
    split_ifs <;> simp
  rcases Nat.lt_or_ge (units / den) (2 ^ (top + b + 1)) with hsmall | hbig
  · -- at the largest scale, what is rounded up to one bit too many becomes infinite
    have hunits : units ≤ 2 ^ (b + 1) * (den * 2 ^ top) := by
      have hcomm : 2 ^ (b + 1) * (den * 2 ^ top) = 2 * (den * 2 ^ top * 2 ^ b) := by ring
      rw [hcomm, ← hhigh]
      exact (below hsmall).le
    have hround := roundHalfEven_eq_two_pow_iff (Nat.mul_pos hd (Nat.two_pow_pos top)) hb hunits
    rw [log2_sub_eq hbig hsmall, ← hround]
    change (if _ ∨ _ ∧ roundHalfEven units (den * 2 ^ top) = 2 ^ (b + 1) then _ else _) = _ ↔ _
    by_cases h : roundHalfEven units (den * 2 ^ top) = 2 ^ (b + 1)
    · rw [if_pos (.inr ⟨rfl, h⟩)]
      exact iff_of_true rfl h
    · rw [if_neg (by omega)]
      refine iff_of_false ?_ h
      split_ifs <;> simp
  · have hunits := hhigh ▸ above hbig
    rw [if_pos (.inl (lt_log2_sub hbig))]
    exact iff_of_true rfl (by omega)

/-- **The quotients that become infinite** in a format: those from half a unit of the last place
above its largest finite value on. -/
theorem roundTo_eq_infinity_iff (hd : 0 < den) (ht : 0 < top) (hb : 0 < bits) :
    roundTo halvings bits top negative num den = infinity negative ↔
      (2 ^ bits - 1 / 2) * 2 ^ top / 2 ^ halvings ≤ (num : ℚ) / den := by
  have hden : (0 : ℚ) < den := Nat.cast_pos.mpr hd
  rw [roundTo_eq_infinity_iff_units hd ht hb, div_le_div_iff₀ (pow_pos two_pos _) hden,
    ← Nat.cast_le (α := ℚ)]
  push_cast [Nat.one_le_two_pow]
  constructor <;> intro h <;> linarith

end Format

/-- The border of the finite values: half a unit of the last place above the largest of them,
which is `2 ^ 1024 - 2 ^ 971`. -/
def overflow : ℚ :=
  2 ^ 1024 - 2 ^ 970

/-- The border of a format whose largest scale is beyond its halvings. -/
theorem border_eq (bits halvings n : ℕ) :
    ((2 : ℚ) ^ bits - 1 / 2) * 2 ^ (halvings + (n + 1)) / 2 ^ halvings =
      2 ^ (bits + (n + 1)) - 2 ^ n := by
  have hpos : (2 : ℚ) ^ halvings ≠ 0 := pow_ne_zero _ two_ne_zero
  rw [pow_add, ← mul_assoc, mul_div_right_comm, mul_div_cancel_right₀ _ hpos, pow_add, pow_succ]
  ring

/-- **The quotients that become infinite.** -/
theorem ofRatio_eq_infinity_iff {num den : Nat} {negative : Bool} (hd : 0 < den) :
    ofRatio negative num den = infinity negative ↔ overflow ≤ num / den := by
  have hborder : overflow = (2 ^ precision - 1 / 2) * 2 ^ maxScale / 2 ^ unitScale :=
    (border_eq 53 1074 970).symm
  rw [ofRatio_eq, roundTo_eq_infinity_iff hd (by decide) (by decide), hborder]

/-- A quotient becomes a finite double-precision number or an infinite one, with its sign. -/
theorem ofRatio_cases (negative : Bool) (num den : Nat) :
    ofRatio negative num den = infinity negative ∨
      ∃ m scale, ofRatio negative num den = finite negative m scale := by
  rw [ofRatio_eq]
  exact roundTo_cases ..

/-- The border lies below the first power of ten that is decided by its magnitude alone. -/
theorem overflow_le : overflow ≤ 10 ^ 310 := by
  have hpow : 2 ^ 1024 ≤ 10 ^ 310 := by decide +kernel
  have hcast : ((2 ^ 1024 : ℕ) : ℚ) ≤ (10 ^ 310 : ℕ) := Nat.cast_le.mpr hpow
  rw [Nat.cast_pow, Nat.cast_pow, Nat.cast_ofNat, Nat.cast_ofNat] at hcast
  rw [overflow]
  exact (sub_le_self _ (pow_pos two_pos 970).le).trans hcast

/-- It is above one. -/
theorem one_lt_overflow : 1 < overflow := by
  have hdouble : (2 : ℚ) ^ 971 = 2 ^ 970 * 2 := pow_succ 2 970
  calc (1 : ℚ) < 2 ^ 970 := one_lt_pow₀ one_lt_two (by decide)
    _ = 2 ^ 971 - 2 ^ 970 := by rw [hdouble, mul_two, add_sub_cancel_right]
    _ ≤ overflow := sub_le_sub_right (pow_le_pow_right₀ one_le_two (by decide)) _

end Binary64

/-! ### Decimal literals -/

namespace Decimal

open Binary64

variable {d : Decimal}

/-- The size of a decimal number: its value without the sign. -/
def size (d : Decimal) : ℚ :=
  d.significand * 10 ^ d.exponent

/-- The number of digits of the significand and the exponent tell the order of the size. -/
theorem size_bounds (h : d.significand ≠ 0) :
    (10 : ℚ) ^ ((Nat.toDigits 10 d.significand).length + d.exponent - 1) ≤ d.size ∧
      d.size < 10 ^ ((Nat.toDigits 10 d.significand).length + d.exponent) := by
  have hpos : 0 < (Nat.toDigits 10 d.significand).length :=
    List.length_pos_iff.mpr Nat.toDigits_ne_nil
  obtain ⟨n, hn⟩ : ∃ n, (Nat.toDigits 10 d.significand).length = n + 1 :=
    ⟨_, (Nat.sub_add_cancel hpos).symm⟩
  have hhigh : d.significand < 10 ^ (n + 1) :=
    (Nat.length_toDigits_le_iff (by decide) (Nat.succ_pos n)).mp hn.le
  have hlow : 10 ^ n ≤ d.significand := by
    rcases Nat.eq_zero_or_pos n with rfl | hn'
    · exact Nat.pos_of_ne_zero h
    · by_contra hlt
      have hle := (Nat.length_toDigits_le_iff (by decide) hn').mpr (Nat.lt_of_not_le hlt)
      omega
  have hten : (0 : ℚ) < 10 ^ d.exponent := zpow_pos (by norm_num) _
  have hsplit (k : Nat) : (10 : ℚ) ^ (k + d.exponent) = (10 ^ k : ℕ) * 10 ^ d.exponent := by
    rw [zpow_add₀ (by norm_num), zpow_natCast, Nat.cast_pow, Nat.cast_ofNat]
  rw [hn, size, show ((n + 1 : ℕ) : ℤ) + d.exponent - 1 = n + d.exponent by push_cast; ring,
    hsplit, hsplit]
  exact ⟨mul_le_mul_of_nonneg_right (Nat.cast_le.mpr hlow) hten.le,
    mul_lt_mul_of_pos_right (Nat.cast_lt.mpr hhigh) hten⟩

/-- A decimal number becomes finite or infinite, and keeps its sign. -/
theorem toBinary64_cases (d : Decimal) :
    d.toBinary64 = .infinity d.negative ∨
      ∃ m scale, d.toBinary64 = .finite d.negative m scale := by
  rw [toBinary64]
  split_ifs
  · exact .inr ⟨_, _, rfl⟩
  · exact .inl rfl
  · exact ofRatio_cases ..
  · exact ofRatio_cases ..

/-- The powers of ten that are computed. -/
theorem cast_pow_ten (n : Nat) : ((Nat.pow 10 n : ℕ) : ℚ) = 10 ^ (n : ℤ) := by
  rw [zpow_natCast]
  exact Nat.cast_pow 10 n

/-- **The decimal numbers that become infinite.** -/
theorem toBinary64_eq_infinity_iff :
    d.toBinary64 = .infinity d.negative ↔ overflow ≤ d.size := by
  rw [toBinary64]
  split_ifs with hsmall hlarge hwhole
  · -- below `10 ^ (-330)`
    refine iff_of_false (by simp) (not_le.mpr ?_)
    refine lt_of_le_of_lt ?_ one_lt_overflow
    rcases eq_or_ne d.significand 0 with hzero | hzero
    · rw [size, hzero, Nat.cast_zero, zero_mul]
      exact zero_le_one
    · have hmagnitude := hsmall.resolve_left hzero
      exact (size_bounds hzero).2.le.trans (zpow_le_one_of_nonpos₀ (by norm_num) (by omega))
  · -- from `10 ^ 310` on
    have hzero : d.significand ≠ 0 := fun h => hsmall (.inl h)
    refine iff_of_true rfl (overflow_le.trans ?_)
    refine le_trans ?_ (size_bounds hzero).1
    rw [← zpow_natCast]
    exact zpow_le_zpow_right₀ (by norm_num) (by omega)
  · have hpow : (10 : ℚ) ^ d.exponent = (Nat.pow 10 d.exponent.toNat : ℕ) := by
      rw [cast_pow_ten, Int.toNat_of_nonneg hwhole]
    rw [ofRatio_eq_infinity_iff Nat.one_pos, size, hpow, Nat.cast_mul, Nat.cast_one, div_one]
  · have hpow : (10 : ℚ) ^ d.exponent = ((Nat.pow 10 (-d.exponent).toNat : ℕ) : ℚ)⁻¹ := by
      rw [cast_pow_ten, Int.toNat_of_nonneg (by omega), zpow_neg, inv_inv]
    have hden : 0 < Nat.pow 10 (-d.exponent).toNat := Nat.pow_pos (by decide)
    rw [ofRatio_eq_infinity_iff hden, size, hpow, div_eq_mul_inv]

end Decimal

end CommandGate
