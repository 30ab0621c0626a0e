import CommandGate.Number.Format
import CommandGate.Number.Decimal
import CommandGate.Text.Classes
import Mathlib.Tactic.Common

/-!
# The Digits of Written Numbers

Whole numbers are written with ASCII digits that begin with another one than zero. The text
of a finite double-precision value is a whole part without such a zero, and a fraction or an
exponent or both (`Laid`), because the shortest digits of a positive value are never those
of zero.

## Main results

* `Binary64.laid_text`: the form of the text of a finite value.
-/

namespace CommandGate

/-- ASCII digits only. -/
def AreDigits (cs : List Char) : Prop :=
  ∀ c ∈ cs, isAsciiDigit c = true

theorem AreDigits.append {cs ds : List Char} (hc : AreDigits cs) (hd : AreDigits ds) :
    AreDigits (cs ++ ds) :=
  List.forall_mem_append.mpr ⟨hc, hd⟩

theorem areDigits_replicate_zero (n : Nat) : AreDigits (List.replicate n '0') := by
  intro c hc
  rw [List.eq_of_mem_replicate hc]
  rfl

/-! ### Whole numbers -/

/-- The ASCII digits are those that the library has. -/
theorem isAsciiDigit_eq_isDigit (c : Char) : isAsciiDigit c = c.isDigit := by
  simp only [isAsciiDigit, Char.isDigit, Char.le_def, ge_iff_le]

/-- A natural number is written in digits. -/
theorem areDigits_toDigits (n : Nat) : AreDigits (Nat.toDigits 10 n) := by
  intro c hc
  rw [isAsciiDigit_eq_isDigit]
  exact Nat.isDigit_of_mem_toDigits (by decide) (by decide) hc

/-- The digits of a positive number begin with another one than zero. -/
theorem toDigits_of_pos {n : Nat} (hn : 0 < n) :
    ∃ d rest, Nat.toDigits 10 n = d :: rest ∧ d ≠ '0' := by
  induction n using Nat.strongRecOn with
  | _ n ih =>
    by_cases h : n < 10
    · refine ⟨n.digitChar, [], Nat.toDigits_of_lt_base h, ?_⟩
      have hall : ∀ m < 10, 0 < m → m.digitChar ≠ '0' := by decide
      exact hall n h hn
    · obtain ⟨d, rest, he, hd⟩ := ih (n / 10) (by omega) (by omega)
      exact ⟨d, rest ++ [Nat.digitChar (n % 10)],
        by rw [Nat.toDigits_of_base_le (by decide) (by omega), he]; rfl, hd⟩

/-- The digits of a natural number have it as their value. -/
theorem digitsValue_toDigits (n : Nat) : digitsValue (Nat.toDigits 10 n) = n :=
  Nat.ofDigitChars_ten_toDigits

/-- The number of a run of digits is written with no more digits than that. -/
theorem length_toDigits_digitsValue {cs : List Char} (h : AreDigits cs) (hne : cs ≠ []) :
    (Nat.toDigits 10 (digitsValue cs)).length ≤ cs.length := by
  have below (ds : List Char) (hd : AreDigits ds) : Nat.ofDigitChars 10 ds 0 < 10 ^ ds.length := by
    induction ds with
    | nil => simp
    | cons d ds ih =>
        obtain ⟨hdigit, hrest⟩ := List.forall_mem_cons.mp hd
        have hvalue : d.toNat - '0'.toNat ≤ 9 := by
          rw [isAsciiDigit_eq_isDigit, Char.isDigit, Bool.and_eq_true, decide_eq_true_eq,
            decide_eq_true_eq] at hdigit
          have hnine : d.toNat ≤ 57 := hdigit.2
          simp only [show '0'.toNat = 48 from rfl]
          omega
        have hfront : 10 ^ ds.length * (d.toNat - '0'.toNat) ≤ 10 ^ ds.length * 9 :=
          Nat.mul_le_mul_left _ hvalue
        have hih := ih hrest
        rw [Nat.ofDigitChars_cons, Nat.mul_zero, Nat.zero_add,
          Nat.ofDigitChars_eq_ofDigitChars_zero, List.length_cons, Nat.pow_succ]
        omega
  have hlen : 0 < cs.length := List.length_pos_iff.mpr hne
  exact (Nat.length_toDigits_le_iff (by decide) hlen).mpr (below cs h)

/-! ### Shortest digits -/

/-- Digits that begin with another one than zero. -/
def Leads (cs : List Char) : Prop :=
  AreDigits cs ∧ ∃ d rest, cs = d :: rest ∧ d ≠ '0'

namespace Binary64

namespace Neighbourhood

variable {n : Neighbourhood} {e : Int} {k : Nat}

/-- Zero does not read back as a positive value. -/
theorem contains_zero (h : 0 < n.low) {den : Nat} (hd : 0 < den) : n.contains 0 den = false := by
  have hpos : 0 < n.low * den := Nat.mul_pos h hd
  rw [contains]
  split
  · simp only [Bool.and_eq_false_iff, decide_eq_false_iff_not]
    exact .inl (by omega)
  · simp only [Bool.and_eq_false_iff, decide_eq_false_iff_not]
    exact .inl (by omega)

/-- The multiple of a power of ten that reads back as a positive value is positive. -/
theorem onGrid?_pos (h : 0 < n.low) (hk : n.onGrid? e = some k) : 0 < k := by
  have hten (j : Nat) : 0 < Nat.pow 10 j := Nat.pow_pos (by decide)
  rw [onGrid?] at hk
  dsimp only at hk
  generalize hnum : (if 0 ≤ e then n.mid else n.mid * Nat.pow 10 (-e).toNat) = num at hk
  generalize hden : (if 0 ≤ e then n.unit * Nat.pow 10 e.toNat else n.unit) = den at hk
  -- the lower neighbour, if it reads back, is not zero
  have hbelow : (if 0 ≤ e then n.contains (num / den * n.unit * Nat.pow 10 e.toNat) 1
      else n.contains (num / den * n.unit) (Nat.pow 10 (-e).toNat)) = true → 0 < num / den := by
    intro hfits
    by_contra hz
    rw [Nat.eq_zero_of_not_pos hz, Nat.zero_mul, Nat.zero_mul, contains_zero h Nat.one_pos,
      contains_zero h (hten _)] at hfits
    simp at hfits
  split at hk
  · rename_i hb _
    have hpos := hbelow hb
    obtain rfl := Option.some.inj hk
    unfold roundHalfEven
    dsimp only
    split_ifs
    · exact hpos
    · exact Nat.succ_pos _
    · exact Nat.add_pos_left hpos _
  · rename_i hb _
    obtain rfl := Option.some.inj hk
    exact hbelow hb
  · obtain rfl := Option.some.inj hk
    exact Nat.succ_pos _
  · simp at hk

/-- The shortest digits of a positive value are not those of zero, where there are any. -/
theorem shortest_pos (h : 0 < n.low) : n.shortest = (0, 0) ∨ 0 < n.shortest.1 := by
  unfold shortest
  dsimp only
  cases hhit : (List.range 17).findSome? fun k : Nat =>
      (n.onGrid? (n.leadingExponent - k)).map
        fun digits => (digits, n.leadingExponent - (k : Int)) with
  | none => exact .inl rfl
  | some hit =>
      obtain ⟨j, -, hj⟩ := List.exists_of_findSome?_eq_some hhit
      obtain ⟨digits, hdigits, rfl⟩ := Option.map_eq_some_iff.mp hj
      exact .inr (onGrid?_pos h hdigits)

end Neighbourhood

/-- The values that read back as a positive one are all positive. -/
theorem low_neighbourhood_pos {m : Nat} (hm : 0 < m) (scale : Nat) :
    0 < (neighbourhood m scale).low := by
  have hstep : 0 < Nat.pow 2 scale := Nat.pow_pos (by decide)
  rw [neighbourhood]
  dsimp only
  generalize Nat.pow 2 scale = step at *
  have hfour : 4 * step ≤ 4 * m * step := Nat.mul_le_mul_right _ (by omega)
  split <;> omega

/-- Leading digits stay when zeros at the end are left out. -/
theorem Leads.trimZeros {cs : List Char} (h : Leads cs) :
    Leads ((cs.reverse.dropWhile (· == '0')).reverse) := by
  obtain ⟨hdigits, d, rest, rfl, hd⟩ := h
  refine ⟨fun c hc => hdigits c ?_, ?_⟩
  · exact List.mem_reverse.mp ((List.dropWhile_sublist _).subset (List.mem_reverse.mp hc))
  · rw [List.reverse_cons, List.dropWhile_append]
    split
    · exact ⟨d, [], by simp [List.dropWhile, beq_eq_false_iff_ne.mpr hd], hd⟩
    · exact ⟨d, (rest.reverse.dropWhile (· == '0')).reverse, by simp, hd⟩

/-- **The shortest digits of a value** are zero, or begin with another digit. -/
theorem shortestDigits_cases (m scale : Nat) :
    shortestDigits m scale = (['0'], 0) ∨ shortestDigits m scale = ([], 1) ∨
      Leads (shortestDigits m scale).1 := by
  unfold shortestDigits
  split_ifs with hm
  · exact .inl rfl
  · rcases Neighbourhood.shortest_pos (low_neighbourhood_pos (Nat.pos_of_ne_zero hm) scale)
      with hzero | hpos
    · rw [hzero]
      exact .inr (.inl rfl)
    · exact .inr (.inr (Leads.trimZeros ⟨areDigits_toDigits _, toDigits_of_pos hpos⟩))

end Binary64

/-! ### Digits laid out -/

/-- The digits before a point: a single zero, or digits that begin with another one. -/
def IsWhole (cs : List Char) : Prop :=
  cs = ['0'] ∨ Leads cs

/-- A whole part begins with a digit. -/
theorem IsWhole.exists_cons {cs : List Char} (h : IsWhole cs) :
    ∃ d ds, cs = d :: ds ∧ isAsciiDigit d = true := by
  rcases h with rfl | ⟨hdigits, d, ds, rfl, -⟩
  · exact ⟨'0', [], rfl, rfl⟩
  · exact ⟨d, ds, rfl, hdigits d (by simp)⟩

/-- The digits after a point, with the point, where there are any. -/
def pointed (cs : List Char) : List Char :=
  if cs = [] then [] else '.' :: cs

/-- **The form of written numbers** that are not whole: a whole part, and a fraction or an
exponent or both. -/
inductive Laid : List Char → Prop
  | positional {whole fraction : List Char} (hw : IsWhole whole) (hf : AreDigits fraction)
      (hne : fraction ≠ []) : Laid (whole ++ '.' :: fraction)
  | scientific {whole fraction digits : List Char} {sign : Char} (hw : IsWhole whole)
      (hf : AreDigits fraction) (hs : sign = '+' ∨ sign = '-') (hd : AreDigits digits)
      (hne : digits ≠ []) : Laid (whole ++ (pointed fraction ++ 'e' :: sign :: digits))

theorem isWhole_zero : IsWhole ['0'] :=
  .inl rfl

/-- What is laid out begins with a digit. -/
theorem Laid.exists_cons {cs : List Char} (h : Laid cs) :
    ∃ d ds, cs = d :: ds ∧ isAsciiDigit d = true := by
  cases h with
  | positional hw _ _ =>
      obtain ⟨d, ds, rfl, hd⟩ := hw.exists_cons
      exact ⟨d, _, rfl, hd⟩
  | scientific hw _ _ _ _ =>
      obtain ⟨d, ds, rfl, hd⟩ := hw.exists_cons
      exact ⟨d, _, rfl, hd⟩

/-- An exponent is written with a sign and at least one digit. -/
theorem exponentText_eq (e : Int) :
    ∃ sign digits, exponentText e = sign :: digits ∧ (sign = '+' ∨ sign = '-') ∧
      AreDigits digits ∧ digits ≠ [] := by
  refine ⟨_, _, rfl, ?_, ?_, ?_⟩
  · split
    · exact .inr rfl
    · exact .inl rfl
  · split
    · exact List.forall_mem_cons.mpr ⟨rfl, areDigits_toDigits _⟩
    · exact areDigits_toDigits _
  · split
    · simp
    · exact Nat.toDigits_ne_nil

theorem AreDigits.take {cs : List Char} (h : AreDigits cs) (n : Nat) : AreDigits (cs.take n) :=
  fun c hc => h c (List.mem_of_mem_take hc)

theorem AreDigits.drop {cs : List Char} (h : AreDigits cs) (n : Nat) : AreDigits (cs.drop n) :=
  fun c hc => h c (List.mem_of_mem_drop hc)

/-- Digits that begin with another one than zero are laid out properly at every power. -/
theorem Leads.laid {digits : List Char} (h : Leads digits) (lead : Int) :
    Laid (layDigits digits lead) := by
  obtain ⟨hdigits, d, rest, rfl, hd⟩ := h
  obtain ⟨hfirst, hrest⟩ := List.forall_mem_cons.mp hdigits
  unfold layDigits
  split_ifs with hfar hsmall
  · obtain ⟨sign, exponent, he, hs, hdigits, hne⟩ := exponentText_eq lead
    have hsingle : IsWhole [d] := .inr ⟨by simpa [AreDigits] using hfirst, d, [], rfl, hd⟩
    rw [he]
    exact Laid.scientific hsingle hrest hs hdigits hne
  · have hzeros := (areDigits_replicate_zero (-lead - 1).toNat).append hdigits
    exact Laid.positional isWhole_zero hzeros (by simp)
  · dsimp only
    rw [List.take_succ_cons, List.drop_succ_cons]
    have hwhole : AreDigits (d :: rest.take lead.toNat) :=
      List.forall_mem_cons.mpr ⟨hfirst, AreDigits.take hrest _⟩
    refine .positional (.inr ⟨hwhole.append (areDigits_replicate_zero _), d, _, rfl, hd⟩) ?_ ?_
    · split
      · exact List.forall_mem_singleton.mpr rfl
      · exact AreDigits.drop hrest _
    · split
      · simp
      · assumption

/-- Zero has the form of written numbers. -/
theorem laid_zero : Laid ['0', '.', '0'] :=
  .positional isWhole_zero (List.forall_mem_singleton.mpr rfl) (by simp)

/-- **The text of a finite value**: its sign, and a number laid out. -/
theorem Binary64.laid_text (words : NumberWords) (negative : Bool) (m scale : Nat) :
    ∃ cs, Laid cs ∧ (Binary64.text words (.finite negative m scale)).toList =
      (if negative then ['-'] else []) ++ cs := by
  have hsign (s : String) : ((if negative then "-" else "") ++ s).toList =
      (if negative then ['-'] else []) ++ s.toList := by
    cases negative <;> simp
  refine ⟨layDigits (shortestDigits m scale).1
    ((shortestDigits m scale).2 + (shortestDigits m scale).1.length - 1), ?_, ?_⟩
  · rcases shortestDigits_cases m scale with h | h | h
    · rw [h]
      exact laid_zero
    · rw [h]
      exact laid_zero
    · exact h.laid _
  · unfold Binary64.text
    dsimp only
    rw [hsign, String.toList_ofList]

/-! ### Characters of numbers -/

/-- A printable ASCII character. -/
abbrev IsPlainAscii (c : Char) : Prop :=
  0x20 ≤ c.toNat ∧ c.toNat < 0x7F

/-- Whether characters are printable ASCII can be computed. -/
theorem plainAscii_of_all {cs : List Char} (h : (cs.all fun c => IsPlainAscii c) = true) :
    ∀ c ∈ cs, IsPlainAscii c := by
  simpa using h

theorem AreDigits.plainAscii {cs : List Char} (h : AreDigits cs) : ∀ c ∈ cs, IsPlainAscii c := by
  intro c hc
  have hdigit := h c hc
  rw [isAsciiDigit_eq_isDigit, Char.isDigit, Bool.and_eq_true, decide_eq_true_eq,
    decide_eq_true_eq] at hdigit
  have hlow : 48 ≤ c.toNat := hdigit.1
  have hhigh : c.toNat ≤ 57 := hdigit.2
  exact ⟨by omega, by omega⟩

theorem IsWhole.areDigits {cs : List Char} (h : IsWhole cs) : AreDigits cs := by
  rcases h with rfl | ⟨hdigits, -⟩
  · exact List.forall_mem_singleton.mpr rfl
  · exact hdigits

/-- Numbers are written in printable ASCII characters. -/
theorem Laid.plainAscii {cs : List Char} (h : Laid cs) : ∀ c ∈ cs, IsPlainAscii c := by
  have point : IsPlainAscii '.' := by decide
  cases h with
  | positional hw hf _ =>
      exact List.forall_mem_append.mpr ⟨hw.areDigits.plainAscii,
        List.forall_mem_cons.mpr ⟨point, hf.plainAscii⟩⟩
  | @scientific whole fraction digits sign hw hf hs hd _ =>
      have hpointed : ∀ c ∈ pointed fraction, IsPlainAscii c := by
        rw [pointed]
        split_ifs
        · simp
        · exact List.forall_mem_cons.mpr ⟨point, hf.plainAscii⟩
      have hsign : IsPlainAscii sign := by
        rcases hs with rfl | rfl <;> decide
      refine List.forall_mem_append.mpr ⟨hw.areDigits.plainAscii,
        List.forall_mem_append.mpr ⟨hpointed, ?_⟩⟩
      exact List.forall_mem_cons.mpr ⟨by decide, List.forall_mem_cons.mpr ⟨hsign, hd.plainAscii⟩⟩

/-- The text of a value in a document is printable ASCII. -/
theorem Binary64.plainAscii_text (x : Binary64) :
    ∀ c ∈ (x.text .json).toList, IsPlainAscii c := by
  cases x with
  | nan => exact plainAscii_of_all rfl
  | infinity negative => cases negative <;> exact plainAscii_of_all rfl
  | finite negative m scale =>
      obtain ⟨cs, hlaid, htext⟩ := Binary64.laid_text .json negative m scale
      rw [htext]
      refine List.forall_mem_append.mpr ⟨?_, hlaid.plainAscii⟩
      cases negative <;> exact plainAscii_of_all rfl

end CommandGate
