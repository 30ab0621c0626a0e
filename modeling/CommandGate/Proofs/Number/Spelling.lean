import CommandGate.Number.Reader
import CommandGate.Proofs.Number.Overflow
import CommandGate.Proofs.Text.Strip
import Mathlib.Data.List.Forall2

/-!
# The Spelling of Numbers

A real number is spelled by characters that count as those of a numeral (`CountsAs`), with
underscores between digits (`Grouped`) and blanks around it. The numeral has a sign, which may be
left out, and is the word for infinity, the word for what is not a number, or a decimal literal
(`SpellsDecimal`). What it stands for is a `Quantity`, held exactly; the value that is read is
the nearest one.

## Main results

* `joinDigits_eq_some_iff`: where underscores may stand.
* `unsigned?_eq_some_iff`: the decimal literals.
* `Binary64.read?_eq_some_iff`: the strings that are read as a value.
* `Quantity.nearest_eq_infinity_iff`: the quantities that are read as plus infinity.
-/

namespace CommandGate

/-! ### Characters -/

/-- A character **counts as** an ASCII character: as itself, as a space if it is a blank outside
ASCII, and as an ASCII digit if it is a digit of another script. -/
inductive CountsAs : Char → Char → Prop
  | ascii {c : Char} (h : c.toNat < 0x80) : CountsAs c c
  | blank {c : Char} (h : 0x80 ≤ c.toNat) (hb : isBlank c = true) : CountsAs c ' '
  | digit {c : Char} {d : Nat} (h : 0x80 ≤ c.toNat) (hb : isBlank c = false)
      (hd : decimalDigit? c = some d) : CountsAs c (Char.ofNat ('0'.toNat + d))

/-- The character that one becomes is the one it counts as. -/
theorem countsAs_iff {c d : Char} :
    (if c.toNat < 0x80 then some c
      else if isBlank c then some ' '
      else (decimalDigit? c).map fun d => Char.ofNat ('0'.toNat + d)) = some d ↔
      CountsAs c d := by
  constructor
  · intro h
    split_ifs at h with hascii hblank
    · obtain rfl := Option.some.inj h
      exact .ascii hascii
    · obtain rfl := Option.some.inj h
      exact .blank (not_lt.mp hascii) hblank
    · obtain ⟨n, hn, rfl⟩ := Option.map_eq_some_iff.mp h
      exact .digit (not_lt.mp hascii) (by simpa using hblank) hn
  · rintro (h | ⟨h, hb⟩ | ⟨h, hb, hd⟩)
    · rw [if_pos h]
    · rw [if_neg (not_lt.mpr h), if_pos hb]
    · rw [if_neg (not_lt.mpr h), if_neg (by simp [hb]), hd]
      rfl

/-- The ASCII form of characters is what they count as, one by one. -/
theorem asciiForm_eq_some_iff {cs ds : List Char} :
    asciiForm cs = some ds ↔ List.Forall₂ CountsAs cs ds := by
  induction cs generalizing ds with
  | nil => simp [asciiForm, eq_comm]
  | cons c cs ih =>
      simp only [asciiForm, Option.bind_eq_some_iff, Option.map_eq_some_iff, countsAs_iff, ih,
        List.forall₂_cons_left_iff]
      constructor
      · rintro ⟨d, hd, ds, hds, rfl⟩
        exact ⟨d, ds, hd, hds, rfl⟩
      · rintro ⟨d, ds, hd, hds, rfl⟩
        exact ⟨d, hd, ds, hds, rfl⟩

/-! ### Underscores -/

/-- Characters with an underscore between some of their digits, and those characters. -/
inductive Grouped : List Char → List Char → Prop
  | nil : Grouped [] []
  | cons {c : Char} {cs ds : List Char} (hc : c ≠ '_') (h : Grouped cs ds) :
      Grouped (c :: cs) (c :: ds)
  | apart {c d : Char} {cs ds : List Char} (hc : isAsciiDigit c = true)
      (hd : isAsciiDigit d = true) (h : Grouped (d :: cs) ds) :
      Grouped (c :: '_' :: d :: cs) (c :: ds)

/-- A digit is no underscore. -/
theorem ne_underscore {c : Char} (h : isAsciiDigit c = true) : c ≠ '_' := by
  rintro rfl
  cases h

/-- A character that is no underscore stays. -/
theorem joinDigits_cons {c : Char} (hc : c ≠ '_') (before : Option Char) (cs : List Char) :
    joinDigits before (c :: cs) = (joinDigits (some c) cs).map (c :: ·) := by
  rw [joinDigits]
  exact fun h => hc h

/-- An underscore goes if it stands between digits, and nothing is spelled otherwise. -/
theorem joinDigits_underscore (before : Option Char) (cs : List Char) :
    joinDigits before ('_' :: cs) =
      if before.any isAsciiDigit && cs.head?.any isAsciiDigit then joinDigits (some '_') cs
      else none := by
  rw [joinDigits]

/-- Grouped digits are joined to the digits that they group. -/
theorem Grouped.joinDigits {cs ds : List Char} (h : Grouped cs ds) (before : Option Char) :
    joinDigits before cs = some ds := by
  induction h generalizing before with
  | nil => rfl
  | cons hc _ ih => rw [joinDigits_cons hc, ih, Option.map_some]
  | apart hc hd _ ih =>
      rw [joinDigits_cons (ne_underscore hc), joinDigits_underscore, if_pos (by simp [hc, hd]), ih,
        Option.map_some]

/-- Characters that do not begin with an underscore are joined only as they are grouped. -/
theorem grouped_of_joinDigits {before : Option Char} {cs ds : List Char}
    (hcs : ∀ c ∈ cs.head?, c ≠ '_') (h : joinDigits before cs = some ds) : Grouped cs ds := by
  induction hn : cs.length using Nat.strongRecOn generalizing before cs ds with
  | _ n ih =>
    cases cs with
    | nil =>
        obtain rfl := Option.some.inj h
        exact .nil
    | cons c cs =>
        have hc : c ≠ '_' := hcs c rfl
        rw [joinDigits_cons hc] at h
        obtain ⟨ds, hds, rfl⟩ := Option.map_eq_some_iff.mp h
        by_cases hnext : ∀ d ∈ cs.head?, d ≠ '_'
        · exact .cons hc (ih cs.length (by simp [← hn]) hnext hds rfl)
        · -- an underscore: behind it stands a digit
          obtain ⟨rest, rfl⟩ : ∃ rest, cs = '_' :: rest := by
            cases cs with
            | nil => simp at hnext
            | cons d rest => exact ⟨rest, by simpa using hnext⟩
          rw [joinDigits_underscore] at hds
          split_ifs at hds with hdigits
          cases rest with
          | nil => simp at hdigits
          | cons d rest =>
              obtain ⟨hc', hd⟩ : isAsciiDigit c = true ∧ isAsciiDigit d = true := by
                simpa using hdigits
              refine .apart hc' hd (ih (d :: rest).length (by simp [← hn]) ?_ hds rfl)
              exact fun _ h' => Option.some.inj h' ▸ ne_underscore hd

/-- **Underscores may stand between digits only**, one at a time. -/
theorem joinDigits_eq_some_iff {cs ds : List Char} :
    joinDigits none cs = some ds ↔ Grouped cs ds := by
  refine ⟨fun h => grouped_of_joinDigits ?_ h, fun h => h.joinDigits none⟩
  intro c hc hunderscore
  obtain ⟨rest, rfl⟩ := List.head?_eq_some_iff.mp (hunderscore ▸ hc)
  rw [joinDigits_underscore] at h
  cases h

/-! ### Signs and exponents -/

/-- A sign, which may be left out, and whether it is a minus. -/
inductive SpellsSign : Bool → List Char → Prop
  | absent : SpellsSign false []
  | plus : SpellsSign false ['+']
  | minus : SpellsSign true ['-']

/-- Characters that do not begin with a sign. -/
def Unsigned (cs : List Char) : Prop :=
  ∀ c ∈ cs.head?, c ≠ '+' ∧ c ≠ '-'

/-- A sign is split off from what begins with none. -/
theorem SpellsSign.splitSign_append {negative : Bool} {sign rest : List Char}
    (h : SpellsSign negative sign) (hr : Unsigned rest) :
    splitSign (sign ++ rest) = (negative, rest) := by
  cases h with
  | absent =>
      rw [List.nil_append]
      unfold splitSign
      split
      · exact absurd rfl (hr '-' rfl).2
      · exact absurd rfl (hr '+' rfl).1
      · rfl
  | plus => rfl
  | minus => rfl

/-- What is split off at the beginning is a sign, or nothing. -/
theorem exists_spellsSign (cs : List Char) :
    ∃ negative sign rest, splitSign cs = (negative, rest) ∧ SpellsSign negative sign ∧
      cs = sign ++ rest := by
  unfold splitSign
  split
  · exact ⟨_, ['-'], _, rfl, .minus, rfl⟩
  · exact ⟨_, ['+'], _, rfl, .plus, rfl⟩
  · exact ⟨_, [], _, rfl, .absent, rfl⟩

/-- Digits begin with no sign. -/
theorem AreDigits.unsigned {cs : List Char} (h : AreDigits cs) : Unsigned cs := by
  intro c hc
  have hdigit := h c (List.mem_of_mem_head? hc)
  constructor <;> rintro rfl <;> cases hdigit

/-- An exponent, which may be left out, and its number. -/
inductive SpellsExponent : Int → List Char → Prop
  | absent : SpellsExponent 0 []
  | marked {e : Char} {negative : Bool} {sign ds : List Char} (he : e = 'e' ∨ e = 'E')
      (hs : SpellsSign negative sign) (hd : AreDigits ds) (hne : ds ≠ []) :
      SpellsExponent (if negative then -digitsValue ds else digitsValue ds) (e :: (sign ++ ds))

/-- An exponent is a letter, a sign if there is one, and digits. -/
theorem exponent?_cons_eq_some_iff {e : Char} {rest ds : List Char} {negative : Bool} {n : Int}
    (h : splitSign rest = (negative, ds)) :
    exponent? (e :: rest) = some n ↔ ((e = 'e' ∨ e = 'E') ∧ ds ≠ [] ∧ AreDigits ds) ∧
      (if negative then -(digitsValue ds : Int) else digitsValue ds) = n := by
  unfold exponent?
  dsimp only
  rw [h]
  dsimp only
  rw [Option.ite_none_right_eq_some, Option.some.injEq]
  simp [AreDigits, and_assoc]

/-- The exponents that are read are those of the grammar. -/
theorem exponent?_eq_some_iff {n : Int} {cs : List Char} :
    exponent? cs = some n ↔ SpellsExponent n cs := by
  constructor
  · intro h
    cases cs with
    | nil =>
        obtain rfl := Option.some.inj h
        exact .absent
    | cons e rest =>
        obtain ⟨negative, sign, ds, hsplit, hs, rfl⟩ := exists_spellsSign rest
        obtain ⟨⟨he, hne, hd⟩, rfl⟩ := (exponent?_cons_eq_some_iff hsplit).mp h
        exact .marked he hs hd hne
  · rintro (_ | ⟨he, hs, hd, hne⟩)
    · rfl
    · exact (exponent?_cons_eq_some_iff (hs.splitSign_append hd.unsigned)).mpr
        ⟨⟨he, hne, hd⟩, rfl⟩

/-- An exponent begins neither with a digit nor with a point. -/
theorem SpellsExponent.head? {n : Int} {cs : List Char} (h : SpellsExponent n cs) :
    ∀ c ∈ cs.head?, isAsciiDigit c = false ∧ c ≠ '.' := by
  intro c hc
  cases h with
  | absent => cases hc
  | marked he =>
      obtain rfl := Option.some.inj hc
      rcases he with rfl | rfl <;> decide

/-! ### Decimal literals -/

/-- **A decimal literal**: digits with at most one point among or beside them, and an exponent
that may be left out. -/
inductive SpellsDecimal (negative : Bool) : Decimal → List Char → Prop
  | whole {ds es : List Char} {n : Int} (hd : AreDigits ds) (hne : ds ≠ [])
      (he : SpellsExponent n es) : SpellsDecimal negative (.ofDigits negative ds [] n) (ds ++ es)
  | pointed {ds fs es : List Char} {n : Int} (hd : AreDigits ds) (hf : AreDigits fs)
      (hne : ds ≠ [] ∨ fs ≠ []) (he : SpellsExponent n es) :
      SpellsDecimal negative (.ofDigits negative ds fs n) (ds ++ '.' :: (fs ++ es))

/-- The digits at the beginning of a text are digits. -/
theorem areDigits_takeWhile (cs : List Char) : AreDigits (cs.takeWhile isAsciiDigit) :=
  fun _ => List.mem_takeWhile_imp

section Literals

variable {negative : Bool} {ds fs rest : List Char}

/-- Digits without a point. -/
theorem unsigned?_append (hd : AreDigits ds)
    (hr : ∀ c ∈ rest.head?, isAsciiDigit c = false ∧ c ≠ '.') :
    unsigned? negative (ds ++ rest) =
      if ds = [] then none else (exponent? rest).map (.ofDigits negative ds [] ·) := by
  have hstop : ∀ c ∈ rest.head?, isAsciiDigit c = false := fun c hc => (hr c hc).1
  unfold unsigned?
  dsimp only
  rw [takeWhile_append_of_head? hd hstop, dropWhile_append_of_head? hd hstop]
  split
  · exact absurd rfl (hr '.' rfl).2
  · simp

/-- Digits with a point. -/
theorem unsigned?_point (hd : AreDigits ds) (hf : AreDigits fs)
    (hr : ∀ c ∈ rest.head?, isAsciiDigit c = false) :
    unsigned? negative (ds ++ '.' :: (fs ++ rest)) =
      if ds = [] ∧ fs = [] then none
      else (exponent? rest).map (.ofDigits negative ds fs ·) := by
  have hpoint : ∀ c ∈ ('.' :: (fs ++ rest)).head?, isAsciiDigit c = false := by simp; rfl
  unfold unsigned?
  dsimp only
  rw [takeWhile_append_of_head? hd hpoint, dropWhile_append_of_head? hd hpoint]
  simp only [takeWhile_append_of_head? hf hr, dropWhile_append_of_head? hf hr]

/-- Every sequence of characters begins with digits, and a point or none behind them. -/
theorem point_or_none (cs : List Char) :
    ∃ ds rest, AreDigits ds ∧
      ((∀ c ∈ rest.head?, isAsciiDigit c = false ∧ c ≠ '.') ∧ cs = ds ++ rest ∨
        ∃ fs, AreDigits fs ∧ (∀ c ∈ rest.head?, isAsciiDigit c = false) ∧
          cs = ds ++ '.' :: (fs ++ rest)) := by
  have hsplit := List.takeWhile_append_dropWhile (p := isAsciiDigit) (l := cs)
  have hstop := head?_dropWhile isAsciiDigit cs
  by_cases hpoint : ∃ r, cs.dropWhile isAsciiDigit = '.' :: r
  · obtain ⟨r, hr⟩ := hpoint
    refine ⟨_, r.dropWhile isAsciiDigit, areDigits_takeWhile cs, .inr
      ⟨r.takeWhile isAsciiDigit, areDigits_takeWhile r, head?_dropWhile _ r, ?_⟩⟩
    rw [List.takeWhile_append_dropWhile, ← hr, hsplit]
  · refine ⟨_, _, areDigits_takeWhile cs, .inl ⟨fun c hc => ⟨hstop c hc, ?_⟩, hsplit.symm⟩⟩
    rintro rfl
    exact hpoint (List.head?_eq_some_iff.mp hc)

end Literals

/-- **The decimal literals** are what is read as an unsigned number. -/
theorem unsigned?_eq_some_iff {negative : Bool} {d : Decimal} {cs : List Char} :
    unsigned? negative cs = some d ↔ SpellsDecimal negative d cs := by
  constructor
  · intro h
    obtain ⟨ds, rest, hd, ⟨hr, rfl⟩ | ⟨fs, hf, hr, rfl⟩⟩ := point_or_none cs
    · rw [unsigned?_append hd hr] at h
      split_ifs at h with hne
      obtain ⟨n, hn, rfl⟩ := Option.map_eq_some_iff.mp h
      exact .whole hd hne (exponent?_eq_some_iff.mp hn)
    · rw [unsigned?_point hd hf hr] at h
      split_ifs at h with hne
      obtain ⟨n, hn, rfl⟩ := Option.map_eq_some_iff.mp h
      exact .pointed hd hf (not_and_or.mp hne) (exponent?_eq_some_iff.mp hn)
  · rintro (⟨hd, hne, he⟩ | ⟨hd, hf, hne, he⟩)
    · rw [unsigned?_append hd he.head?, if_neg hne, exponent?_eq_some_iff.mpr he, Option.map_some]
    · rw [unsigned?_point hd hf fun c hc => (he.head? c hc).1, if_neg (not_and_or.mpr hne),
        exponent?_eq_some_iff.mpr he, Option.map_some]

/-! ### Quantities -/

/-- What a numeral stands for. -/
inductive Quantity where
  | nan
  | infinity (negative : Bool)
  | decimal (d : Decimal)

namespace Quantity

/-- The nearest double-precision value. -/
def nearest : Quantity → Binary64
  | nan => .nan
  | infinity negative => .infinity negative
  | decimal d => d.toBinary64

/-- A quantity is **endless** if it is plus infinity, or a positive number from half a unit of
the last place above the largest finite value on. -/
def IsEndless : Quantity → Prop
  | nan => False
  | infinity negative => negative = false
  | decimal d => d.negative = false ∧ Binary64.overflow ≤ d.size

/-- **The quantities that are read as plus infinity** are the endless ones. -/
theorem nearest_eq_infinity_iff {q : Quantity} : q.nearest = .infinity false ↔ q.IsEndless := by
  cases q with
  | nan => simp [nearest, IsEndless]
  | infinity negative => simp [nearest, IsEndless]
  | decimal d =>
      rw [nearest, IsEndless, ← Decimal.toBinary64_eq_infinity_iff]
      rcases d.toBinary64_cases with h | ⟨m, scale, h⟩ <;> simp [h]

/-- **A numeral** and what it stands for: a sign that may be left out, and a word in either case
or a decimal literal. -/
inductive Spelled : Quantity → List Char → Prop
  | nan {negative : Bool} {sign word : List Char} (hs : SpellsSign negative sign)
      (hw : word.map Char.toLower = "nan".toList) : Spelled .nan (sign ++ word)
  | infinity {negative : Bool} {sign word : List Char} (hs : SpellsSign negative sign)
      (hw : word.map Char.toLower = "inf".toList ∨ word.map Char.toLower = "infinity".toList) :
      Spelled (.infinity negative) (sign ++ word)
  | decimal {negative : Bool} {sign cs : List Char} {d : Decimal} (hs : SpellsSign negative sign)
      (hd : SpellsDecimal negative d cs) : Spelled (.decimal d) (sign ++ cs)

/-- **A string and what it stands for**: its characters count as those of a numeral, with
underscores between digits and with blanks around it. -/
def SpelledBy (q : Quantity) (s : String) : Prop :=
  ∃ plain joined numeral, List.Forall₂ CountsAs s.toList plain ∧ Grouped plain joined ∧
    Core isAsciiBlank joined numeral ∧ q.Spelled numeral

end Quantity

/-- The characters of a numeral. -/
theorem numeral?_eq_some_iff {s : String} {cs : List Char} :
    numeral? s = some cs ↔ ∃ plain joined, List.Forall₂ CountsAs s.toList plain ∧
      Grouped plain joined ∧ Core isAsciiBlank joined cs := by
  simp only [numeral?, Option.map_eq_some_iff, Option.bind_eq_some_iff, asciiForm_eq_some_iff,
    joinDigits_eq_some_iff, strip_eq_iff]
  constructor
  · rintro ⟨joined, ⟨plain, hplain, hjoined⟩, hcore⟩
    exact ⟨plain, joined, hplain, hjoined, hcore⟩
  · rintro ⟨plain, joined, hplain, hjoined, hcore⟩
    exact ⟨joined, ⟨plain, hplain, hjoined⟩, hcore⟩

/-- A decimal literal begins with a digit or a point. -/
theorem SpellsDecimal.exists_cons {negative : Bool} {d : Decimal} {cs : List Char}
    (h : SpellsDecimal negative d cs) :
    ∃ c rest, cs = c :: rest ∧ (isAsciiDigit c = true ∨ c = '.') := by
  have first {ds more : List Char} (hd : AreDigits ds) (hne : ds ≠ []) :
      ∃ c rest, ds ++ more = c :: rest ∧ (isAsciiDigit c = true ∨ c = '.') := by
    obtain ⟨c, rest, rfl⟩ := List.exists_cons_of_ne_nil hne
    exact ⟨c, rest ++ more, rfl, .inl (hd c List.mem_cons_self)⟩
  cases h with
  | whole hd hne => exact first hd hne
  | @pointed ds =>
      rename_i hd _ _ _
      rcases eq_or_ne ds [] with rfl | hne
      · exact ⟨'.', _, rfl, .inr rfl⟩
      · exact first hd hne

/-- Lower case changes neither digits nor the point. -/
theorem toLower_of_digit {c : Char} (h : isAsciiDigit c = true ∨ c = '.') : c.toLower = c := by
  have hbelow : c.toNat ≤ 57 := by
    rcases h with h | rfl
    · rw [isAsciiDigit, Bool.and_eq_true, decide_eq_true_eq, decide_eq_true_eq] at h
      exact h.2
    · decide
  refine dif_neg ?_
  rintro ⟨hupper, -⟩
  have habove : 65 ≤ c.toNat := hupper
  omega

namespace Binary64

/-- The value that a numeral spells. -/
def ofNumeral? (cs : List Char) : Option Binary64 :=
  let (negative, cs) := splitSign cs
  let word := String.ofList (cs.map Char.toLower)
  if word = "inf" ∨ word = "infinity" then some (.infinity negative)
  else if word = "nan" then some .nan
  else (unsigned? negative cs).map Decimal.toBinary64

/-- A number is read as a numeral, and that is rounded. -/
theorem read?_eq (s : String) : read? s = (numeral? s).bind ofNumeral? :=
  rfl

/-- What is read behind the sign. -/
theorem ofNumeral?_of_splitSign {cs rest : List Char} {negative : Bool}
    (h : splitSign cs = (negative, rest)) :
    ofNumeral? cs =
      if rest.map Char.toLower = "inf".toList ∨ rest.map Char.toLower = "infinity".toList then
        some (.infinity negative)
      else if rest.map Char.toLower = "nan".toList then some .nan
      else (unsigned? negative rest).map Decimal.toBinary64 := by
  unfold ofNumeral?
  rw [h]
  simp only [← String.toList_inj, String.toList_ofList]

/-- A word begins with a letter. -/
theorem unsigned_of_word {word : List Char} {c : Char} {cs : List Char}
    (hc : c ≠ '+' ∧ c ≠ '-') (h : word.map Char.toLower = c :: cs) : Unsigned word := by
  obtain ⟨d, rest, rfl, hd, -⟩ := List.map_eq_cons_iff.mp h
  intro e he
  obtain rfl := Option.some.inj he
  constructor
  · rintro rfl
    exact hc.1 hd.symm
  · rintro rfl
    exact hc.2 hd.symm

/-- **A numeral** is read as the value nearest to what it stands for. -/
theorem ofNumeral?_eq_some_iff {cs : List Char} {x : Binary64} :
    ofNumeral? cs = some x ↔ ∃ q : Quantity, q.Spelled cs ∧ q.nearest = x := by
  constructor
  · intro h
    obtain ⟨negative, sign, rest, hsplit, hs, rfl⟩ := exists_spellsSign cs
    rw [ofNumeral?_of_splitSign hsplit] at h
    split_ifs at h with hinfinity hnan
    · exact ⟨_, .infinity hs hinfinity, Option.some.inj h⟩
    · exact ⟨_, .nan hs hnan, Option.some.inj h⟩
    · obtain ⟨d, hd, rfl⟩ := Option.map_eq_some_iff.mp h
      exact ⟨_, .decimal hs (unsigned?_eq_some_iff.mp hd), rfl⟩
  · rintro ⟨_, ⟨hs, hw⟩ | ⟨hs, hw⟩ | ⟨hs, hd⟩, rfl⟩
    · have hword := unsigned_of_word (by decide) hw
      rw [ofNumeral?_of_splitSign (hs.splitSign_append hword), if_neg (by simp [hw]), if_pos hw]
      rfl
    · have hword : Unsigned _ :=
        hw.elim (unsigned_of_word (by decide)) (unsigned_of_word (by decide))
      rw [ofNumeral?_of_splitSign (hs.splitSign_append hword), if_pos hw]
      rfl
    · obtain ⟨c, rest, rfl, hc⟩ := hd.exists_cons
      have hlower := toLower_of_digit hc
      have hletter : c ≠ 'i' ∧ c ≠ 'n' ∧ c ≠ '+' ∧ c ≠ '-' := by
        refine ⟨?_, ?_, ?_, ?_⟩ <;> rintro rfl <;> exact absurd hc (by decide)
      have hunsigned : Unsigned (c :: rest) := by
        intro e he
        obtain rfl := Option.some.inj he
        exact hletter.2.2
      rw [ofNumeral?_of_splitSign (hs.splitSign_append hunsigned), if_neg, if_neg,
        unsigned?_eq_some_iff.mpr hd]
      · rfl
      · simp [hlower, hletter.2.1]
      · simp [hlower, hletter.1]

/-- **The strings that are read as a value** are those that spell a quantity, and the value is the
nearest one. -/
theorem read?_eq_some_iff {s : String} {x : Binary64} :
    read? s = some x ↔ ∃ q : Quantity, q.SpelledBy s ∧ q.nearest = x := by
  rw [read?_eq, Option.bind_eq_some_iff]
  simp only [numeral?_eq_some_iff, ofNumeral?_eq_some_iff]
  constructor
  · rintro ⟨numeral, ⟨plain, joined, hplain, hjoined, hcore⟩, q, hq, rfl⟩
    exact ⟨q, ⟨plain, joined, numeral, hplain, hjoined, hcore, hq⟩, rfl⟩
  · rintro ⟨q, ⟨plain, joined, numeral, hplain, hjoined, hcore, hq⟩, rfl⟩
    exact ⟨numeral, ⟨plain, joined, hplain, hjoined, hcore⟩, q, hq, rfl⟩

example : read? " +Infinity\n" = some (.infinity false) := by decide

example : read? "1__0" = none := by decide

end Binary64

end CommandGate
