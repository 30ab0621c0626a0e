import CommandGate.Proofs.Json.Grammar

/-!
# Reading Numbers by the Grammar

What the reader takes from the front of a text as a number is a number of the grammar. The
other way round a number is read up to its end where the text does not go on with it
(`Json.GoesOn`), and the fault of a whole number that is too long stands for just such a
number at the front.

## Main results

* `Json.spellsNumber_of_readNumber` and `Json.readNumber_append`: the numbers.
* `Json.readNumber_eq_long_iff`: the whole numbers that are too long.
-/

namespace CommandGate

namespace Json

variable {rest t after : Text} {whole fraction ds : List Char} {n : Int}

/-! ### Runs of digits -/

/-- Digits are split off the front and leave a text that begins with none. -/
theorem splitDigits_spec (t : Text) : t = (splitDigits t).1.map .scalar ++ (splitDigits t).2 ∧
    NoDigit (splitDigits t).2 := by
  fun_induction splitDigits t with
  | case1 c rest hc digits after he ih =>
      rw [he] at ih
      exact ⟨by rw [List.map_cons, List.cons_append, ← ih.1], ih.2⟩
  | case2 c rest hc => exact ⟨rfl, noDigit_cons (by simpa using hc)⟩
  | case3 rest h =>
      refine ⟨rfl, ?_⟩
      rintro c more rfl
      exact absurd rfl (h c more)

/-- A sign is split off the front. -/
theorem signText_signOf (t : Text) : signText (signOf t).1 ++ (signOf t).2 = t := by
  unfold signOf
  split <;> rfl

/-- The whole part of a number; digits that are more than one leave a text that begins with
none. -/
theorem isWhole_of_splitWhole (h : splitWhole t = (whole, after)) (hne : whole ≠ []) :
    t = whole.map .scalar ++ after ∧ IsWhole whole ∧ (1 < whole.length → NoDigit after) := by
  rw [splitWhole.eq_def] at h
  split at h
  · obtain ⟨rfl, rfl⟩ := Prod.mk.inj h
    exact ⟨rfl, isWhole_zero, by simp⟩
  · rename_i hzero
    obtain ⟨htext, hend⟩ := splitDigits_spec t
    have hdigits := areDigits_splitDigits t
    rw [h] at htext hend hdigits
    obtain ⟨d, ds, rfl⟩ := List.exists_cons_of_ne_nil hne
    refine ⟨htext, .inr ⟨hdigits, d, ds, rfl, ?_⟩, fun _ => hend⟩
    rintro rfl
    exact hzero _ htext

/-! ### Fractions -/

/-- What is split off as a fraction is a point with digits after it, or nothing. -/
theorem areDigits_of_splitFraction (h : splitFraction t = (fraction, after)) :
    t = (pointed fraction).map .scalar ++ after ∧ AreDigits fraction := by
  rw [splitFraction.eq_def] at h
  split at h
  · rename_i more
    obtain ⟨htext, -⟩ := splitDigits_spec more
    have hdigits := areDigits_splitDigits more
    split at h
    · obtain ⟨rfl, rfl⟩ := Prod.mk.inj h
      exact ⟨rfl, by simp [AreDigits]⟩
    · rename_i hne he
      obtain ⟨rfl, rfl⟩ := Prod.mk.inj h
      rw [he] at htext hdigits
      refine ⟨?_, hdigits⟩
      rw [pointed, if_neg (fun hnil => hne (by simpa using hnil)), htext]
      rfl
  · obtain ⟨rfl, rfl⟩ := Prod.mk.inj h
    exact ⟨rfl, by simp [AreDigits]⟩

/-- A text that does not go on with a number has no fraction to split off. -/
theorem splitFraction_of_not_goesOn (h : ¬ GoesOn t) : splitFraction t = ([], t) := by
  rw [splitFraction.eq_def]
  split
  · rename_i more
    rw [splitDigits_of_noDigit]
    rintro d rest rfl
    by_contra hd
    exact h (.fraction (by simpa using hd) rest)
  · rfl

/-! ### Exponents -/

/-- The sign of an exponent, and the text after it. -/
def exponentSignOf : Text → Bool × Text
  | .scalar '-' :: rest => (true, rest)
  | .scalar '+' :: rest => (false, rest)
  | rest => (false, rest)

/-- A sign of an exponent is split off as the grammar has it. -/
theorem exists_exponentSign (t : Text) :
    ∃ sign, ExponentSign (exponentSignOf t).1 sign ∧ t = sign ++ (exponentSignOf t).2 := by
  unfold exponentSignOf
  split
  · exact ⟨_, .minus, rfl⟩
  · exact ⟨_, .plus, rfl⟩
  · exact ⟨_, .absent, rfl⟩

/-- The sign of an exponent ends where its digits begin. -/
theorem exponentSignOf_append {negative : Bool} {sign : Text} (hs : ExponentSign negative sign)
    (hd : AreDigits ds) (hne : ds ≠ []) (rest : Text) :
    exponentSignOf (sign ++ (ds.map .scalar ++ rest)) = (negative, ds.map .scalar ++ rest) := by
  cases hs with
  | absent =>
      obtain ⟨d, ds, rfl⟩ := List.exists_cons_of_ne_nil hne
      have hdigit : isAsciiDigit d = true := hd d (by simp)
      unfold exponentSignOf
      split
      · rename_i he
        have hne : d ≠ '-' := ne_of_isAsciiDigit hdigit rfl
        exact absurd (by simpa using (List.cons.inj he).1) hne
      · rename_i he
        have hne : d ≠ '+' := ne_of_isAsciiDigit hdigit rfl
        exact absurd (by simpa using (List.cons.inj he).1) hne
      · rfl
  | plus => rfl
  | minus => rfl

/-- An exponent is read part by part: its letter, its sign, and its digits. -/
theorem splitExponent_eq {e : Char} (he : e = 'e' ∨ e = 'E') (t : Text) :
    splitExponent (.scalar e :: t) =
      match splitDigits (exponentSignOf t).2 with
      | ([], _) => (none, .scalar e :: t)
      | (digits, after) =>
        let n : Int := digitsValue digits
        (some (if (exponentSignOf t).1 then -n else n), after) := by
  unfold splitExponent
  exact if_pos he

/-- What is read as an exponent is one of the grammar, or else nothing is split off. -/
theorem splitExponent_cases (t : Text) :
    splitExponent t = (none, t) ∨
      ∃ n e rest, splitExponent t = (some n, rest) ∧ t = e ++ rest ∧ SpellsExponent n e := by
  by_cases ht : ∃ e more, t = .scalar e :: more ∧ (e = 'e' ∨ e = 'E')
  · obtain ⟨e, more, rfl, he⟩ := ht
    obtain ⟨sign, hsign, hmore⟩ := exists_exponentSign more
    obtain ⟨htext, -⟩ := splitDigits_spec (exponentSignOf more).2
    have hdigits := areDigits_splitDigits (exponentSignOf more).2
    rw [splitExponent_eq he]
    split
    · exact .inl rfl
    · rename_i digits after hne hsplit
      rw [hsplit] at htext hdigits
      refine .inr ⟨_, _, after, rfl, ?_, .marked he hsign hdigits (by simpa using hne)⟩
      rw [hmore, htext]
      simp
  · left
    unfold splitExponent
    split
    · rename_i e more
      exact if_neg fun he => ht ⟨e, more, rfl, he⟩
    · rfl

/-- A text that does not go on with a number has no exponent to split off. -/
theorem splitExponent_of_not_goesOn (h : ¬ GoesOn t) : splitExponent t = (none, t) := by
  rcases splitExponent_cases t with hnone | ⟨n, e, rest, -, rfl, he⟩
  · exact hnone
  · exact absurd (.exponent he rest) h

/-- An exponent is read up to its end where no digit follows. -/
theorem splitExponent_spells {e : Text} (h : SpellsExponent n e) (hr : NoDigit rest) :
    splitExponent (e ++ rest) = (some n, rest) := by
  cases h with
  | @marked e negative sign ds he hs hd hne =>
      rw [List.cons_append, List.append_assoc, splitExponent_eq he,
        exponentSignOf_append hs hd hne, splitDigits_append hd hr]
      obtain ⟨d, ds, rfl⟩ := List.exists_cons_of_ne_nil hne
      rfl

/-- Digits after an exponent belong to an exponent. -/
theorem SpellsExponent.extend {e : Text} (h : SpellsExponent n e) (more : Text) :
    ∃ m f rest, e ++ more = f ++ rest ∧ SpellsExponent m f ∧ NoDigit rest := by
  cases h with
  | @marked e negative sign ds he hs hd hne =>
      obtain ⟨hmore, hend⟩ := splitDigits_spec more
      refine ⟨_, _, _, ?_, .marked he hs (hd.append (areDigits_splitDigits more)) (by simp [hne]),
        hend⟩
      conv_lhs => rw [hmore]
      simp

/-- Where no digit, fraction or exponent can be split off, the text does not go on. -/
theorem not_goesOn_of_split (hd : NoDigit t) (hf : (splitFraction t).1 = [])
    (he : (splitExponent t).1 = none) : ¬ GoesOn t := by
  rintro (⟨hdigit, more⟩ | ⟨hdigit, more⟩ | ⟨hspells, more⟩)
  · rw [hd _ _ rfl] at hdigit
    simp at hdigit
  · simp [splitFraction, splitDigits, hdigit] at hf
  · obtain ⟨m, f, rest, htext, hf, hr⟩ := hspells.extend more
    rw [htext, splitExponent_spells hf hr] at he
    simp at he

/-- A text that begins with a character that is part of no number goes on with none. -/
theorem not_goesOn_of_head (h : ∀ c more, t = .scalar c :: more → isAsciiDigit c = false ∧
    c ≠ '.' ∧ c ≠ 'e' ∧ c ≠ 'E') : ¬ GoesOn t := by
  rintro (⟨hdigit, more⟩ | ⟨hdigit, more⟩ | ⟨⟨he, -, -, -⟩, more⟩)
  · rw [(h _ _ rfl).1] at hdigit
    simp at hdigit
  · exact (h _ _ rfl).2.1 rfl
  · rcases he with rfl | rfl
    · exact (h _ _ rfl).2.2.1 rfl
    · exact (h _ _ rfl).2.2.2 rfl

/-- A text that does not go on with a number begins with no digit. -/
theorem noDigit_of_not_goesOn (h : ¬ GoesOn t) : NoDigit t := by
  rintro c more rfl
  by_contra hc
  exact h (.digit (by simpa using hc) more)

/-! ### Numbers -/

/-- **A number that is read is one of the grammar.** -/
theorem spellsNumber_of_readNumber {v : Json} (h : readNumber t = .ok (v, rest)) :
    ∃ u, t = u ++ rest ∧ SpellsNumber ShortLength v u := by
  have hsign := signText_signOf t
  rw [readNumber_eq] at h
  generalize signOf t = signed at h hsign
  obtain ⟨negative, unsigned⟩ := signed
  obtain rfl := hsign
  split at h
  · simp at h
  · rename_i whole afterWhole hne hwhole
    obtain ⟨rfl, hw, -⟩ := isWhole_of_splitWhole hwhole (by simpa using hne)
    rcases hsplit : splitFraction afterWhole with ⟨fraction, afterFraction⟩
    obtain ⟨rfl, hd⟩ := areDigits_of_splitFraction hsplit
    rw [hsplit] at h
    dsimp only at h ⊢
    rcases splitExponent_cases afterFraction with hnone | ⟨n, e, more, hsome, rfl, he⟩
    · rw [hnone] at h
      by_cases hf : fraction = []
      · dsimp only at h
        rw [if_pos ⟨hf, rfl⟩] at h
        by_cases hlong : maxIntegerDigits < whole.length
        · rw [if_pos hlong] at h
          simp at h
        · rw [if_neg hlong] at h
          obtain ⟨rfl, rfl⟩ := Prod.mk.inj (Except.ok.inj h)
          exact ⟨_, by simp [hf, pointed], .whole negative hw (Nat.not_lt.mp hlong)⟩
      · dsimp only at h
        rw [if_neg (fun hboth => hf hboth.1)] at h
        obtain ⟨rfl, rfl⟩ := Prod.mk.inj (Except.ok.inj h)
        exact ⟨_, by simp, .fraction negative hw hd hf⟩
    · rw [hsome] at h
      dsimp only at h
      rw [if_neg (by simp)] at h
      obtain ⟨rfl, rfl⟩ := Prod.mk.inj (Except.ok.inj h)
      exact ⟨_, by simp, .exponent negative hw hd he⟩

/-- A whole part with what follows it is read on from there. -/
theorem readNumber_append_whole (negative : Bool) (hw : IsWhole whole) (hr : NoDigit rest) :
    readNumber (signText negative ++ (whole.map .scalar ++ rest)) =
      let (fraction, afterFraction) := splitFraction rest
      let (exponent, after) := splitExponent afterFraction
      if fraction = [] ∧ exponent = none then
        if maxIntegerDigits < whole.length then .error (.longInteger whole.length)
        else
          let n : Int := digitsValue whole
          .ok (.integer (if negative then -n else n), after)
      else
        .ok (.number (Decimal.ofDigits negative whole fraction (exponent.getD 0)).toBinary64,
          after) := by
  rw [readNumber_eq, signOf_append negative (head?_whole_append hw rest), splitWhole_append hw hr]
  obtain ⟨d, ds, rfl, -⟩ := hw.exists_cons
  rfl

/-- **A number is read up to its end** where the text does not go on with it. -/
theorem readNumber_append {v : Json} {u : Text} (h : SpellsNumber ShortLength v u)
    (hr : ¬ GoesOn rest) : readNumber (u ++ rest) = .ok (v, rest) := by
  have hnone := splitExponent_of_not_goesOn hr
  cases h with
  | @whole negative whole hw hf =>
      rw [List.append_assoc, readNumber_append_whole negative hw (noDigit_of_not_goesOn hr),
        splitFraction_of_not_goesOn hr]
      dsimp only
      rw [hnone]
      dsimp only
      rw [if_pos ⟨rfl, rfl⟩, if_neg (Nat.not_lt.mpr hf)]
  | @fraction negative whole fraction hw hd hne =>
      rw [List.append_assoc, List.append_assoc, pointed, if_neg hne, List.map_cons,
        List.cons_append, readNumber_append_whole negative hw (noDigit_cons rfl),
        splitFraction_append hd hne (noDigit_of_not_goesOn hr)]
      dsimp only
      rw [hnone]
      dsimp only
      rw [if_neg (fun hboth => hne hboth.1)]
      rfl
  | @exponent negative whole fraction n e hw hd he =>
      have hend : NoDigit (e ++ rest) ∧ (e ++ rest).head? ≠ some (.scalar '.') := by
        cases he with
        | marked he => rcases he with rfl | rfl <;> exact ⟨noDigit_cons rfl, by simp⟩
      rw [List.append_assoc, List.append_assoc, List.append_assoc,
        readNumber_append_whole negative hw (noDigit_pointed hend.1),
        splitFraction_pointed hd hend.1 hend.2]
      dsimp only
      rw [splitExponent_spells he (noDigit_of_not_goesOn hr)]
      dsimp only
      rw [if_neg (by simp)]
      rfl

/-- **The whole numbers that are too long** are a fault of their own. -/
theorem readNumber_eq_long_iff {n : Nat} :
    readNumber t = .error (.longInteger n) ↔ StartsLong n t := by
  constructor
  · intro h
    have hsign := signText_signOf t
    rw [readNumber_eq] at h
    generalize signOf t = signed at h hsign
    obtain ⟨negative, unsigned⟩ := signed
    obtain rfl := hsign
    split at h
    · simp at h
    · rename_i whole afterWhole hne hwhole
      obtain ⟨rfl, hw, hmore⟩ := isWhole_of_splitWhole hwhole (by simpa using hne)
      dsimp only at h
      split_ifs at h with hplain hlong
      obtain rfl : whole.length = n := by simpa using h
      have hdigit : NoDigit afterWhole := hmore (Nat.lt_trans (by decide) hlong)
      rcases hsplit : splitFraction afterWhole with ⟨fraction, afterFraction⟩
      rw [hsplit] at hplain
      obtain ⟨rfl, hexponent⟩ := hplain
      obtain ⟨rfl, -⟩ := areDigits_of_splitFraction hsplit
      exact ⟨negative, whole, _, rfl, hw, rfl, hlong,
        not_goesOn_of_split hdigit (by rw [hsplit]) hexponent⟩
  · rintro ⟨negative, whole, more, rfl, hw, rfl, hlong, hr⟩
    rw [readNumber_append_whole negative hw (noDigit_of_not_goesOn hr),
      splitFraction_of_not_goesOn hr]
    dsimp only
    rw [splitExponent_of_not_goesOn hr]
    dsimp only
    rw [if_pos ⟨rfl, rfl⟩, if_pos hlong]

end Json

end CommandGate
