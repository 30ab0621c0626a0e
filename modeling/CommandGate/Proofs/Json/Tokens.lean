import CommandGate.Proofs.Json.Grammar
import CommandGate.Proofs.Json.Reading
import CommandGate.Proofs.Json.Strings

/-!
# Reading Blanks, Words and Strings

What the reader takes from the front of a text as blanks, as a word or as a string is what
the grammar says, and a string is read whatever comes after it.

## Main results

* `Json.readWord?_eq_some` and `Json.readValue_word`: the words.
* `Json.readString_eq_ok_iff`: the strings.
* `Json.readString_ne_longInteger`: no string is a whole number.
-/

namespace CommandGate

namespace Json

variable {opening rest t u b : Text}

/-! ### Blanks -/

/-- The blanks are the four of the grammar. -/
theorem isSpace_iff {c : CodePoint} : isSpace c = true ↔
    c = .scalar ' ' ∨ c = .scalar '\n' ∨ c = .scalar '\r' ∨ c = .scalar '\t' := by
  simp [isSpace, or_assoc]

/-- A text that begins with no blank. -/
def NoSpace (t : Text) : Prop :=
  ∀ c more, t = c :: more → isSpace c = false

theorem noSpace_nil : NoSpace [] := by
  simp [NoSpace]

/-- A text begins with no blank if its first code point is none. -/
theorem noSpace_cons {c : CodePoint} (h : isSpace c = false) : NoSpace (c :: t) := by
  rintro d more he
  rw [← (List.cons.inj he).1]
  exact h

/-- The blanks at the beginning are skipped. -/
theorem skipSpace_append (hb : AreSpaces b) (ht : NoSpace t) : skipSpace (b ++ t) = t := by
  rw [skipSpace, List.dropWhile_append_of_pos fun c hc => isSpace_iff.mpr (hb c hc)]
  cases t with
  | nil => rfl
  | cons c t => rw [List.dropWhile_cons_of_neg (by rw [ht c t rfl]; simp)]

/-- Only blanks are skipped. -/
theorem exists_spaces (t : Text) : ∃ b, AreSpaces b ∧ t = b ++ skipSpace t :=
  ⟨t.takeWhile isSpace, fun _ hc => isSpace_iff.mp (List.all_eq_true.mp List.all_takeWhile _ hc),
    List.takeWhile_append_dropWhile.symm⟩

theorem areSpaces_nil : AreSpaces [] := by
  simp [AreSpaces]

/-! ### Words -/

/-- A word that is read is one of the grammar. -/
theorem readWord?_eq_some {v : Json} (h : readWord? t = some (v, rest)) :
    ∃ u, t = u ++ rest ∧ Word v u := by
  obtain ⟨⟨word, value⟩, hword, hfound⟩ := List.exists_of_findSome?_eq_some h
  dsimp only at hfound
  split at hfound
  · rename_i hstart
    obtain ⟨more, rfl⟩ := List.isPrefixOf_iff_prefix.mp hstart
    obtain ⟨rfl, hrest⟩ := Prod.mk.inj (Option.some.inj hfound)
    rw [List.drop_left] at hrest
    refine ⟨word, by rw [hrest], ?_⟩
    simp only [words, List.mem_cons, Prod.mk.injEq, List.not_mem_nil, or_false] at hword
    rcases hword with ⟨rfl, rfl⟩ | ⟨rfl, rfl⟩ | ⟨rfl, rfl⟩ | ⟨rfl, rfl⟩ | ⟨rfl, rfl⟩ | ⟨rfl, rfl⟩
    · exact .null
    · exact .yes
    · exact .no
    · exact .nan
    · exact .infinity
    · exact .minusInfinity
  · simp at hfound

/-- A word is read, whatever comes after it. -/
theorem readValue_word {v : Json} (h : Word v u) (budget : Nat) (rest : Text) :
    readValue (budget + 1) (u ++ rest) = .ok (v, rest) := by
  cases h <;> rfl

/-! ### Escapes -/

/-- The escapes that are read are those of the grammar. -/
theorem escapedChar?_eq_some_iff {x : CodePoint} {c : Char} :
    escapedChar? x = some c ↔ ∃ e, x = .scalar e ∧ Escape c e := by
  constructor
  · intro h
    cases x with
    | surrogate n => simp [escapedChar?] at h
    | scalar e =>
        refine ⟨e, rfl, ?_⟩
        rw [escapedChar?] at h
        have hmem : (e, c) ∈ [('"', '"'), ('\\', '\\'), ('/', '/'), ('b', '\x08'), ('f', '\x0c'),
            ('n', '\n'), ('r', '\r'), ('t', '\t')] := by
          obtain ⟨before, after, he, -⟩ := List.lookup_eq_some_iff.mp h
          rw [he]
          exact List.mem_append_right _ List.mem_cons_self
        simp only [List.mem_cons, Prod.mk.injEq, List.not_mem_nil, or_false] at hmem
        rcases hmem with ⟨rfl, rfl⟩ | ⟨rfl, rfl⟩ | ⟨rfl, rfl⟩ | ⟨rfl, rfl⟩ | ⟨rfl, rfl⟩ |
          ⟨rfl, rfl⟩ | ⟨rfl, rfl⟩ | ⟨rfl, rfl⟩
        · exact .quote
        · exact .backslash
        · exact .slash
        · exact .backspace
        · exact .formFeed
        · exact .lineFeed
        · exact .carriageReturn
        · exact .tab
  · rintro ⟨e, rfl, h⟩
    cases h <;> rfl

/-- Hexadecimal digits are ASCII characters. -/
theorem hexDigit?_lt {c : Char} {d : Nat} (h : hexDigit? (.scalar c) = some d) : c.toNat < 128 := by
  have hbelow {low high : Char} (hc : low ≤ c ∧ c ≤ high) (hh : high.toNat < 128) :
      c.toNat < 128 := by
    have hle : c.toNat ≤ high.toNat := hc.2
    omega
  rw [hexDigit?] at h
  split_ifs at h with h₁ h₂ h₃
  · exact hbelow h₁ (by decide)
  · exact hbelow h₂ (by decide)
  · exact hbelow h₃ (by decide)

/-- The hexadecimal digits that are read are those of the grammar. -/
theorem hexDigit?_eq_some_iff {x : CodePoint} {d : Nat} :
    hexDigit? x = some d ↔ ∃ c, x = .scalar c ∧ HexDigit d c := by
  -- the digits are ASCII, and for ASCII the two sides are compared one by one
  have hascii : ∀ n < 128, ∀ d ∈ hexDigit? (.scalar (Char.ofNat n)), d < 16 ∧
      (Char.ofNat n = Nat.digitChar d ∨ Char.ofNat n = (Nat.digitChar d).toUpper) := by
    decide
  constructor
  · intro h
    cases x with
    | surrogate n => simp [hexDigit?] at h
    | scalar c =>
        have hc := hascii c.toNat (hexDigit?_lt h) d
        rw [Char.ofNat_toNat] at hc
        exact ⟨c, rfl, hc h⟩
  · rintro ⟨c, rfl, hd, h⟩
    have hread : ∀ d < 16, hexDigit? (.scalar (Nat.digitChar d)) = some d ∧
        hexDigit? (.scalar (Nat.digitChar d).toUpper) = some d := by decide
    rcases h with rfl | rfl
    · exact (hread d hd).1
    · exact (hread d hd).2

/-- Four hexadecimal digits are read as their number. -/
theorem hexQuad?_eq_some_iff {x₁ x₂ x₃ x₄ : CodePoint} {n : Nat} :
    hexQuad? x₁ x₂ x₃ x₄ = some n ↔ ∃ a b c d y₁ y₂ y₃ y₄, x₁ = .scalar y₁ ∧ x₂ = .scalar y₂ ∧
      x₃ = .scalar y₃ ∧ x₄ = .scalar y₄ ∧ HexDigit a y₁ ∧ HexDigit b y₂ ∧ HexDigit c y₃ ∧
      HexDigit d y₄ ∧ n = a * 4096 + b * 256 + c * 16 + d := by
  have hsum (a b c d : Nat) :
      ((a * 16 + b) * 16 + c) * 16 + d = a * 4096 + b * 256 + c * 16 + d := by omega
  constructor
  · intro h
    simp only [hexQuad?, Option.bind_eq_bind, Option.bind_eq_some_iff, Option.pure_def,
      Option.some.injEq, hsum] at h
    obtain ⟨a, ha, b, hb, c, hc, d, hd, rfl⟩ := h
    obtain ⟨y₁, rfl, hy₁⟩ := hexDigit?_eq_some_iff.mp ha
    obtain ⟨y₂, rfl, hy₂⟩ := hexDigit?_eq_some_iff.mp hb
    obtain ⟨y₃, rfl, hy₃⟩ := hexDigit?_eq_some_iff.mp hc
    obtain ⟨y₄, rfl, hy₄⟩ := hexDigit?_eq_some_iff.mp hd
    exact ⟨a, b, c, d, y₁, y₂, y₃, y₄, rfl, rfl, rfl, rfl, hy₁, hy₂, hy₃, hy₄, rfl⟩
  · rintro ⟨a, b, c, d, y₁, y₂, y₃, y₄, rfl, rfl, rfl, rfl, ha, hb, hc, hd, rfl⟩
    simp only [hexQuad?, hexDigit?_eq_some_iff.mpr ⟨_, rfl, ha⟩,
      hexDigit?_eq_some_iff.mpr ⟨_, rfl, hb⟩, hexDigit?_eq_some_iff.mpr ⟨_, rfl, hc⟩,
      hexDigit?_eq_some_iff.mpr ⟨_, rfl, hd⟩, Option.bind_eq_bind, Option.bind_some,
      Option.pure_def, hsum]

/-! ### Pairs -/

/-- Numbers above the surrogates are those of characters. -/
theorem ofNat_of_large {n : Nat} (h : 0xDFFF < n) : CodePoint.ofNat n = .scalar (Char.ofNat n) := by
  rw [CodePoint.ofNat, dif_neg (by omega)]

/-- A code point that does not start a pair stays by itself. -/
theorem joinSurrogates_single {c : CodePoint} {points : Text} (h : ¬ StartsPair (c :: points)) :
    joinSurrogates (c :: points) = c :: joinSurrogates points := by
  rw [joinSurrogates.eq_def]
  split
  · rename_i high low rest he
    obtain ⟨rfl, rfl⟩ := List.cons.inj he
    exact if_neg fun hpair => h ⟨high, low, rest, rfl, hpair⟩
  · rename_i he
    obtain ⟨rfl, rfl⟩ := List.cons.inj he
    rfl
  · rename_i he
    simp at he

/-- The halves of pairs are joined as the grammar says. -/
theorem joins_iff {points : Text} : Joins t points ↔ joinSurrogates points = t := by
  constructor
  · intro h
    induction h with
    | nil => rfl
    | pair hhigh hlow _ ih =>
        rw [joinSurrogates, if_pos ⟨hhigh, hlow⟩, ih, ofNat_of_large (by omega)]
    | single hc _ ih => rw [joinSurrogates_single hc, ih]
  · rintro rfl
    fun_induction joinSurrogates points with
    | case1 high low rest h ih =>
        rw [ofNat_of_large (by omega)]
        exact .pair h.1 h.2 ih
    | case2 high low rest h ih =>
        refine .single ?_ ih
        rintro ⟨high', low', more, he, hpair⟩
        simp only [List.cons.injEq, CodePoint.surrogate.injEq] at he
        obtain ⟨rfl, rfl, rfl⟩ := he
        exact h hpair
    | case3 c rest h ih =>
        refine .single ?_ ih
        rintro ⟨high, low, more, he, -⟩
        exact h high low more (List.cons.inj he).1 (List.cons.inj he).2
    | case4 => exact .nil

/-! ### Strings -/

/-- A code point is put before text only where text was read. -/
theorem consPoint_eq_ok {c : CodePoint} {r : Except Fault (Text × Text)} {points : Text}
    (h : consPoint c r = .ok (points, rest)) :
    ∃ more, points = c :: more ∧ r = .ok (more, rest) := by
  obtain ⟨⟨more, after⟩, hr, he⟩ := Except.map_eq_ok_iff.mp h
  obtain ⟨rfl, rfl⟩ := Prod.mk.inj he
  exact ⟨more, rfl, hr⟩

/-- The points of a string are read up to its closing quote. -/
theorem spellsPoints_of_readPoints {points : Text}
    (h : readPoints opening t = .ok (points, rest)) :
    ∃ body, t = body ++ .scalar '"' :: rest ∧ SpellsPoints points body := by
  fun_induction readPoints opening t generalizing points rest with
  | case2 after =>
      obtain ⟨rfl, rfl⟩ := Prod.mk.inj (Except.ok.inj h)
      exact ⟨[], rfl, .nil⟩
  | case4 x₁ x₂ x₃ x₄ y more n hn _ ih =>
      obtain ⟨points, rfl, hmore⟩ := consPoint_eq_ok h
      obtain ⟨body, hbody, hspells⟩ := ih hmore
      obtain ⟨a, b, c, d, y₁, y₂, y₃, y₄, rfl, rfl, rfl, rfl, ha, hb, hc, hd, rfl⟩ :=
        hexQuad?_eq_some_iff.mp hn
      exact ⟨_, by rw [hbody]; rfl, .numbered ha hb hc hd hspells⟩
  | case7 e after _ c hc _ ih =>
      obtain ⟨points, rfl, hmore⟩ := consPoint_eq_ok h
      obtain ⟨body, rfl, hspells⟩ := ih hmore
      obtain ⟨e, rfl, he⟩ := escapedChar?_eq_some_iff.mp hc
      exact ⟨_, rfl, .letter he hspells⟩
  | case10 c more hquote hbackslash hcontrol ih =>
      obtain ⟨points, rfl, hmore⟩ := consPoint_eq_ok h
      obtain ⟨body, rfl, hspells⟩ := ih hmore
      exact ⟨_, rfl, .plain (Nat.not_lt.mp hcontrol) hquote hbackslash hspells⟩
  | _ => simp at h

/-- What stands between quotes is read, whatever comes after the closing one. -/
theorem readPoints_append {points body : Text} (h : SpellsPoints points body)
    (opening rest : Text) :
    readPoints opening (body ++ .scalar '"' :: rest) = .ok (points, rest) := by
  induction h with
  | nil =>
      rw [List.nil_append, readPoints.eq_def]
      exact if_pos rfl
  | plain hcontrol hquote hbackslash _ ih =>
      rw [List.cons_append, readPoints.eq_def]
      dsimp only
      rw [if_neg hquote, if_neg hbackslash, if_neg (Nat.not_lt.mpr hcontrol), ih]
      rfl
  | @letter c e points body he _ ih =>
      have hu : ¬ CodePoint.scalar e = .scalar 'u' := by
        cases he <;> decide
      rw [List.cons_append, List.cons_append, readPoints.eq_def]
      dsimp only
      rw [if_neg (by decide), if_pos rfl, if_neg hu,
        escapedChar?_eq_some_iff.mpr ⟨_, rfl, he⟩]
      dsimp only
      rw [ih]
      rfl
  | @numbered a b c d x₁ x₂ x₃ x₄ points body ha hb hc hd _ ih =>
      -- the closing quote comes after the digits, if nothing else does
      obtain ⟨y, more, hmore⟩ := List.exists_cons_of_ne_nil
        (show body ++ CodePoint.scalar '"' :: rest ≠ [] by simp)
      simp only [List.cons_append, hmore] at ih ⊢
      rw [readPoints, if_neg (by decide), if_pos rfl, if_pos rfl,
        hexQuad?_eq_some_iff.mpr
          ⟨a, b, c, d, x₁, x₂, x₃, x₄, rfl, rfl, rfl, rfl, ha, hb, hc, hd, rfl⟩]
      dsimp only
      rw [ih]
      rfl

/-- **The strings that are read** are those of the grammar. -/
theorem readString_eq_ok_iff {s : Text} : readString opening t = .ok (s, rest) ↔
    ∃ u, .scalar '"' :: t = u ++ rest ∧ SpellsString s u := by
  constructor
  · intro h
    obtain ⟨⟨points, after⟩, hpoints, he⟩ := Except.map_eq_ok_iff.mp h
    obtain ⟨hs, rfl⟩ := Prod.mk.inj he
    obtain ⟨body, rfl, hbody⟩ := spellsPoints_of_readPoints hpoints
    exact ⟨_, by simp, .quoted hbody (joins_iff.mpr hs)⟩
  · rintro ⟨u, he, ⟨hbody, hs⟩⟩
    simp only [List.cons_append, List.append_assoc, List.nil_append, List.cons.injEq,
      true_and] at he
    rw [readString, he, readPoints_append hbody]
    change Except.ok (joinSurrogates _, rest) = _
    rw [joins_iff.mp hs]

/-- What is written of a string without surrogates spells it. -/
theorem spellsString_writeString {s : Text} (hs : s.IsScalar) :
    SpellsString s (writeString .line s) := by
  have hread : readString [] (s.flatMap (writePoint .line) ++ .scalar '"' :: []) = .ok (s, []) :=
    readString_writeString hs
  obtain ⟨u, hu, h⟩ := readString_eq_ok_iff.mp hread
  rw [List.append_nil] at hu
  rw [writeString, List.append_assoc, List.singleton_append, hu]
  exact h

/-- A string is no whole number. -/
theorem readString_ne_longInteger (n : Nat) : readString opening t ≠ .error (.longInteger n) := by
  have hpoints : readPoints opening t ≠ .error (.longInteger n) := by
    fun_induction readPoints opening t with
    | case4 x₁ x₂ x₃ x₄ y more m hm _ ih => exact fun h => ih (Except.map_eq_error_iff.mp h)
    | case7 e after _ c hc _ ih => exact fun h => ih (Except.map_eq_error_iff.mp h)
    | case10 c more hquote hbackslash hcontrol ih =>
        exact fun h => ih (Except.map_eq_error_iff.mp h)
    | _ => simp
  exact fun h => hpoints (Except.map_eq_error_iff.mp h)

end Json

end CommandGate
