import CommandGate.Json.Reader
import CommandGate.Json.Writer
import CommandGate.Proofs.Number.Digits

/-!
# Reading Written Numbers

A written whole number is read as that number, unless it has too many digits (`IsShort`),
and a written finite value as some number. Both are read to their end, because none of the
characters that follow a value in a document goes on with a number (`Ends`).

## Main results

* `Json.readNumber_writeInteger`: whole numbers are read back.
* `Json.readNumber_of_laid`: what is laid out as a number is read as a number.
* `Json.readNumber_cases`: whole numbers that are read are short.
-/

namespace CommandGate

namespace Json

/-- A whole number that does not have too many digits to be read. -/
def IsShort (n : Int) : Prop :=
  (Nat.toDigits 10 n.natAbs).length ≤ maxIntegerDigits

/-- What may follow a value in a document on one line. -/
def Ends (rest : Text) : Prop :=
  rest = [] ∨ ∃ c more, rest = .scalar c :: more ∧ (c = ',' ∨ c = ']' ∨ c = '\x7d')

variable {cs ds : List Char} {rest : Text}

/-- A text that does not begin with a digit. -/
def NoDigit (rest : Text) : Prop :=
  ∀ c more, rest = .scalar c :: more → isAsciiDigit c = false

/-- What may follow a value begins with no digit. -/
theorem Ends.noDigit (h : Ends rest) : NoDigit rest := by
  rintro c more rfl
  rcases h with h | ⟨d, _, h, hd⟩
  · simp at h
  · obtain rfl : c = d := by simpa using (List.cons.inj h).1
    rcases hd with rfl | rfl | rfl <;> rfl

/-- What may follow a value begins with a comma or a closing mark, and nothing else. -/
theorem Ends.head?_ne (h : Ends rest) {c : Char} (hc : c ≠ ',' ∧ c ≠ ']' ∧ c ≠ '\x7d') :
    rest.head? ≠ some (.scalar c) := by
  rcases h with rfl | ⟨d, more, rfl, hd⟩
  · simp
  · rcases hd with rfl | rfl | rfl <;> simp [Ne.symm hc.1, Ne.symm hc.2.1, Ne.symm hc.2.2]

/-- A text begins with no digit if its first character is none. -/
theorem noDigit_cons {c : Char} (h : isAsciiDigit c = false) : NoDigit (.scalar c :: rest) := by
  rintro d more he
  obtain rfl : c = d := by simpa using (List.cons.inj he).1
  exact h

/-! ### Parts of numbers -/

/-- Where no digit begins a text, none is split off. -/
theorem splitDigits_of_noDigit (h : NoDigit rest) : splitDigits rest = ([], rest) := by
  unfold splitDigits
  split
  · rename_i c more
    rw [if_neg (by rw [h c more rfl]; simp)]
  · rfl

/-- The digits at the beginning are split off. -/
theorem splitDigits_append (hd : AreDigits ds) (hr : NoDigit rest) :
    splitDigits (ds.map .scalar ++ rest) = (ds, rest) := by
  induction ds with
  | nil => exact splitDigits_of_noDigit hr
  | cons d ds ih =>
      obtain ⟨hdigit, hrest⟩ := List.forall_mem_cons.mp hd
      rw [List.map_cons, List.cons_append, splitDigits, if_pos hdigit, ih hrest]

/-- A whole part is split off in full if no digit follows it. -/
theorem splitWhole_append (hw : IsWhole cs) (hr : NoDigit rest) :
    splitWhole (cs.map .scalar ++ rest) = (cs, rest) := by
  rcases hw with rfl | ⟨hdigits, d, ds, rfl, hd⟩
  · rfl
  · rw [← splitDigits_append hdigits hr]
    simp only [splitWhole]
    split
    · rename_i he
      exact absurd (by simpa using (List.cons.inj he).1) hd
    · rfl

/-- A fraction is split off in full if no digit follows it. -/
theorem splitFraction_append (hd : AreDigits ds) (hne : ds ≠ []) (hr : NoDigit rest) :
    splitFraction (.scalar '.' :: (ds.map .scalar ++ rest)) = (ds, rest) := by
  rw [splitFraction, splitDigits_append hd hr]
  cases ds with
  | nil => exact absurd rfl hne
  | cons d ds => rfl

/-- Without a point there is no fraction. -/
theorem splitFraction_of_ne (h : rest.head? ≠ some (.scalar '.')) :
    splitFraction rest = ([], rest) := by
  simp only [splitFraction]
  split
  · exact absurd rfl h
  · rfl

/-- The digits of a fraction are split off again, also where there are none. -/
theorem splitFraction_pointed (hd : AreDigits ds) (hr : NoDigit rest)
    (h : rest.head? ≠ some (.scalar '.')) :
    splitFraction ((pointed ds).map .scalar ++ rest) = (ds, rest) := by
  rw [pointed]
  split_ifs with hne
  · rw [hne]
    exact splitFraction_of_ne h
  · exact splitFraction_append hd hne hr

/-- A fraction, and what follows it, begins with no digit. -/
theorem noDigit_pointed (hr : NoDigit rest) : NoDigit ((pointed ds).map .scalar ++ rest) := by
  rw [pointed]
  split_ifs
  · exact hr
  · exact noDigit_cons rfl

/-- An exponent with a sign and digits is split off in full if no digit follows it. -/
theorem splitExponent_append {sign : Char} (hs : sign = '+' ∨ sign = '-') (hd : AreDigits ds)
    (hne : ds ≠ []) :
    ∃ n, ∀ rest, NoDigit rest →
      splitExponent (.scalar 'e' :: .scalar sign :: (ds.map .scalar ++ rest)) =
        (some n, rest) := by
  obtain ⟨d, ds, rfl⟩ := List.exists_cons_of_ne_nil hne
  rcases hs with rfl | rfl
  · refine ⟨digitsValue (d :: ds), fun rest hr => ?_⟩
    rw [splitExponent]
    dsimp only
    rw [if_pos (.inl rfl)]
    simp only [splitDigits_append hd hr]
    rfl
  · refine ⟨-digitsValue (d :: ds), fun rest hr => ?_⟩
    rw [splitExponent]
    dsimp only
    rw [if_pos (.inl rfl)]
    simp only [splitDigits_append hd hr]
    rfl

/-- Without the letter there is no exponent. -/
theorem splitExponent_of_ne (h : rest.head? ≠ some (.scalar 'e'))
    (h' : rest.head? ≠ some (.scalar 'E')) : splitExponent rest = (none, rest) := by
  simp only [splitExponent]
  split
  · rename_i c more
    rw [if_neg]
    rintro (rfl | rfl)
    · exact h rfl
    · exact h' rfl
  · rfl

/-! ### Numbers -/

/-- The text of a sign. -/
def signText (negative : Bool) : Text :=
  if negative then [.scalar '-'] else []

/-- A minus at the beginning of a text, and the text after it. -/
def signOf : Text → Bool × Text
  | .scalar '-' :: rest => (true, rest)
  | rest => (false, rest)

/-- A number is read part by part: its sign, its whole part, a fraction, and an exponent. -/
theorem readNumber_eq (t : Text) :
    readNumber t =
      match splitWhole (signOf t).2 with
      | ([], _) => .error (.form .value t)
      | (whole, afterWhole) =>
        let (fraction, afterFraction) := splitFraction afterWhole
        let (exponent, rest) := splitExponent afterFraction
        if fraction = [] ∧ exponent = none then
          if maxIntegerDigits < whole.length then .error (.longInteger whole.length)
          else
            let n : Int := digitsValue whole
            .ok (.integer (if (signOf t).1 then -n else n), rest)
        else
          .ok (.number (Decimal.ofDigits (signOf t).1 whole fraction (exponent.getD 0)).toBinary64,
            rest) :=
  rfl

/-- The sign written before a text is split off again. -/
theorem signOf_append (negative : Bool) {text : Text} (h : text.head? ≠ some (.scalar '-')) :
    signOf (signText negative ++ text) = (negative, text) := by
  cases negative with
  | true => rfl
  | false =>
      simp only [signOf]
      rw [signText, if_neg (by simp), List.nil_append]
      split
      · exact absurd rfl h
      · rfl

/-- A digit is different from a character that is none. -/
theorem ne_of_isAsciiDigit {d c : Char} (hd : isAsciiDigit d = true)
    (hc : isAsciiDigit c = false) : d ≠ c := by
  rintro rfl
  rw [hd] at hc
  simp at hc

/-- A whole part does not begin with a minus. -/
theorem head?_whole_append {whole : List Char} (h : IsWhole whole) (rest : Text) :
    (whole.map CodePoint.scalar ++ rest).head? ≠ some (.scalar '-') := by
  obtain ⟨d, ds, rfl, hd⟩ := h.exists_cons
  simpa using ne_of_isAsciiDigit (c := '-') hd rfl

/-- Digits with nothing behind them are a whole number. -/
theorem readNumber_whole (negative : Bool) {whole : List Char} (hw : IsWhole whole)
    (hlen : whole.length ≤ maxIntegerDigits) (hr : Ends rest) :
    readNumber (signText negative ++ (whole.map .scalar ++ rest)) =
      .ok (.integer (if negative then -(digitsValue whole) else digitsValue whole), rest) := by
  rw [readNumber_eq, signOf_append negative (head?_whole_append hw rest),
    splitWhole_append hw hr.noDigit]
  obtain ⟨d, ds, rfl, -⟩ := hw.exists_cons
  dsimp only
  rw [splitFraction_of_ne (hr.head?_ne (by decide))]
  dsimp only
  rw [splitExponent_of_ne (hr.head?_ne (by decide)) (hr.head?_ne (by decide))]
  dsimp only
  rw [if_pos ⟨rfl, rfl⟩, if_neg (by omega)]

/-- **What is laid out as a number is read as a number.** -/
theorem readNumber_of_laid (negative : Bool) (h : Laid cs) :
    ∃ y, ∀ rest, Ends rest →
      readNumber (signText negative ++ (cs.map .scalar ++ rest)) = .ok (.number y, rest) := by
  cases h with
  | @positional whole fraction hw hf hne =>
      refine ⟨(Decimal.ofDigits negative whole fraction 0).toBinary64, fun rest hr => ?_⟩
      rw [List.map_append, List.map_cons, List.append_assoc, List.cons_append, readNumber_eq,
        signOf_append negative (head?_whole_append hw _), splitWhole_append hw (noDigit_cons rfl)]
      obtain ⟨d, ds, rfl, -⟩ := hw.exists_cons
      dsimp only
      rw [splitFraction_append hf hne hr.noDigit]
      dsimp only
      rw [splitExponent_of_ne (hr.head?_ne (by decide)) (hr.head?_ne (by decide))]
      dsimp only
      rw [if_neg (fun hboth => hne hboth.1)]
      rfl
  | @scientific whole fraction digits sign hw hf hs hd hne =>
      obtain ⟨n, hn⟩ := splitExponent_append hs hd hne
      refine ⟨(Decimal.ofDigits negative whole fraction n).toBinary64, fun rest hr => ?_⟩
      have hnoDigit : NoDigit (.scalar 'e' :: .scalar sign :: (digits.map .scalar ++ rest)) :=
        noDigit_cons rfl
      rw [List.map_append, List.map_append, List.map_cons, List.map_cons, List.append_assoc,
        List.append_assoc, List.cons_append, List.cons_append, readNumber_eq,
        signOf_append negative (head?_whole_append hw _),
        splitWhole_append hw (noDigit_pointed hnoDigit)]
      obtain ⟨d, ds, rfl, -⟩ := hw.exists_cons
      dsimp only
      rw [splitFraction_pointed hf hnoDigit (by simp)]
      dsimp only
      rw [hn rest hr.noDigit]
      dsimp only
      rw [if_neg (by simp)]
      rfl

/-! ### Whole numbers -/

/-- The digits of a natural number are a whole part. -/
theorem isWhole_toDigits (n : Nat) : IsWhole (Nat.toDigits 10 n) := by
  rcases Nat.eq_zero_or_pos n with rfl | hn
  · exact .inl (Nat.toDigits_zero 10)
  · exact .inr ⟨areDigits_toDigits n, toDigits_of_pos hn⟩

/-- A whole number is written as its sign and its digits. -/
theorem writeInteger_eq (n : Int) :
    writeInteger n = signText (n < 0) ++ (Nat.toDigits 10 n.natAbs).map .scalar := by
  rw [writeInteger, signText]
  by_cases h : n < 0 <;> simp [h]

/-- **A short whole number is read back.** -/
theorem readNumber_writeInteger {n : Int} (hn : IsShort n) (hr : Ends rest) :
    readNumber (writeInteger n ++ rest) = .ok (.integer n, rest) := by
  rw [writeInteger_eq, List.append_assoc, readNumber_whole _ (isWhole_toDigits _) hn hr,
    digitsValue_toDigits]
  have hvalue : (if decide (n < 0) then -(n.natAbs : Int) else n.natAbs) = n := by
    by_cases h : n < 0
    · rw [if_pos (by simpa using h)]
      omega
    · rw [if_neg (by simpa using h)]
      omega
  rw [hvalue]

/-- Only digits are split off as digits. -/
theorem areDigits_splitDigits (t : Text) : AreDigits (splitDigits t).1 := by
  induction t with
  | nil => simp [splitDigits, AreDigits]
  | cons c t ih =>
      unfold splitDigits
      split
      · rename_i d more he
        obtain ⟨-, rfl⟩ := List.cons.inj he
        split_ifs with hd
        · exact List.forall_mem_cons.mpr ⟨hd, ih⟩
        · simp [AreDigits]
      · simp [AreDigits]

/-- Only digits are split off as a whole part. -/
theorem areDigits_splitWhole (t : Text) : AreDigits (splitWhole t).1 := by
  simp only [splitWhole]
  split
  · exact List.forall_mem_singleton.mpr rfl
  · exact areDigits_splitDigits _

/-- **What is read as a number** is a short whole number or a double-precision number. -/
theorem readNumber_cases {t : Text} {v : Json} (h : readNumber t = .ok (v, rest)) :
    (∃ n, v = .integer n ∧ IsShort n) ∨ ∃ x, v = .number x := by
  rw [readNumber_eq] at h
  have hdigits := areDigits_splitWhole (signOf t).2
  generalize splitWhole (signOf t).2 = whole at h hdigits
  obtain ⟨_ | ⟨d, ds⟩, afterWhole⟩ := whole
  · simp at h
  · dsimp only at h
    by_cases hwhole : (splitFraction afterWhole).1 = [] ∧
        (splitExponent (splitFraction afterWhole).2).1 = none
    · rw [if_pos hwhole] at h
      by_cases hlong : maxIntegerDigits < (d :: ds).length
      · rw [if_pos hlong] at h
        simp at h
      · rw [if_neg hlong] at h
        obtain ⟨hn, -⟩ := Prod.mk.inj (Except.ok.inj h)
        refine .inl ⟨_, hn.symm, ?_⟩
        have hvalue : (if (signOf t).1 = true then -((digitsValue (d :: ds) : Nat) : Int)
            else digitsValue (d :: ds)).natAbs = digitsValue (d :: ds) := by
          split_ifs <;> simp
        rw [IsShort]
        rw [hvalue]
        exact Nat.le_trans (length_toDigits_digitsValue hdigits (by simp)) (Nat.not_lt.mp hlong)
    · rw [if_neg hwhole] at h
      obtain ⟨hx, -⟩ := Prod.mk.inj (Except.ok.inj h)
      exact .inr ⟨_, hx.symm⟩

/-! ### Numbers and words -/

/-- A number is no word. -/
theorem readWord?_of_digit (negative : Bool) {d : Char} (hd : isAsciiDigit d = true) :
    readWord? (signText negative ++ .scalar d :: rest) = none := by
  have hne (c : Char) (hc : isAsciiDigit c = false) : c ≠ d := (ne_of_isAsciiDigit hd hc).symm
  cases negative <;>
    simp [readWord?, words, Text.ofString, signText, hne 'n' rfl, hne 't' rfl, hne 'f' rfl,
      hne 'N' rfl, hne 'I' rfl, hne '-' rfl]

end Json

end CommandGate
