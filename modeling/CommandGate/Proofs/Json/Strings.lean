import CommandGate.Json.Reader
import CommandGate.Json.Writer
import CommandGate.Proofs.Text.Utf8

/-!
# Reading Written Strings

In the style of logs every code point of a string is written as itself or as an escape that
is read as it. A text without surrogates is read back whole: there is nothing in it to be
joined.

## Main results

* `Json.readString_writeString`: strings without surrogates are read back.
-/

namespace CommandGate

namespace Json

variable {opening rest : Text}

/-! ### Numbered escapes -/

/-- A written hexadecimal digit is read back. -/
theorem hexDigit?_digitChar : ∀ d < 16, hexDigit? (.scalar (Nat.digitChar d)) = some d := by
  decide

/-- Four hexadecimal digits, from the highest one to the lowest. -/
theorem hexDigits_four (n : Nat) :
    hexDigits 4 n = [Nat.digitChar (n / 4096 % 16), Nat.digitChar (n / 256 % 16),
      Nat.digitChar (n / 16 % 16), Nat.digitChar (n % 16)] := by
  simp [hexDigits, Nat.div_div_eq_div_mul]

/-- The four digits of a 16-bit unit are read as it. -/
theorem hexQuad?_digits {n : Nat} (hn : n < 0x10000) :
    hexQuad? (.scalar (Nat.digitChar (n / 4096 % 16))) (.scalar (Nat.digitChar (n / 256 % 16)))
      (.scalar (Nat.digitChar (n / 16 % 16))) (.scalar (Nat.digitChar (n % 16))) = some n := by
  have hmod (m : Nat) : m % 16 < 16 := Nat.mod_lt _ (by decide)
  rw [hexQuad?]
  rw [hexDigit?_digitChar _ (hmod _), hexDigit?_digitChar _ (hmod _),
    hexDigit?_digitChar _ (hmod _), hexDigit?_digitChar _ (hmod _)]
  simp only [Option.bind_eq_bind, Option.bind_some, Option.pure_def, Option.some.injEq]
  omega

/-- A numbered escape of a scalar value below the surrogates is read as it, if something
comes after it. -/
theorem readPoints_unitEscape {n : Nat} (hn : n < 0xD800) (hr : rest ≠ []) :
    readPoints opening (unitEscape n ++ rest) =
      consPoint (.scalar (Char.ofNat n)) (readPoints opening rest) := by
  obtain ⟨y, more, rfl⟩ := List.exists_cons_of_ne_nil hr
  have hpoint : CodePoint.ofNat n = .scalar (Char.ofNat n) := by
    rw [CodePoint.ofNat, dif_neg (by omega)]
  rw [unitEscape]
  rw [hexDigits_four]
  simp only [List.map_cons, List.map_nil, List.cons_append, List.nil_append]
  rw [readPoints, if_neg (by decide), if_pos rfl, if_pos rfl, hexQuad?_digits (by omega)]
  dsimp only
  rw [hpoint]

/-! ### Strings -/

/-- **What is written for a character is read as it**, if something comes after it. -/
theorem readPoints_writePoint (c : Char) (hr : rest ≠ []) :
    readPoints opening (writePoint .line (.scalar c) ++ rest) =
      consPoint (.scalar c) (readPoints opening rest) := by
  -- a letter behind a backslash
  have letter (l d : Char) (hl : l ≠ 'u') (hd : escapedChar? (.scalar l) = some d) :
      readPoints opening (.scalar '\\' :: .scalar l :: rest) =
        consPoint (.scalar d) (readPoints opening rest) := by
    rw [readPoints.eq_def]
    dsimp only
    rw [if_neg (by decide), if_pos rfl, if_neg (by simpa using hl), hd]
  rw [writePoint]
  split_ifs with h₁ h₂ h₃ h₄ h₅ h₆ h₇ h₈
  · rw [h₁]
    exact letter '"' '"' (by decide) rfl
  · rw [h₂]
    exact letter '\\' '\\' (by decide) rfl
  · rw [h₃]
    exact letter 'n' '\n' (by decide) rfl
  · rw [h₄]
    exact letter 'r' '\r' (by decide) rfl
  · rw [h₅]
    exact letter 't' '\t' (by decide) rfl
  · rw [h₆]
    exact letter 'f' '\x0c' (by decide) rfl
  · rw [h₇]
    exact letter 'b' '\x08' (by decide) rfl
  · have hsmall : c.toNat < 0x20 := by
      rcases h₈ with h | ⟨h, -⟩
      · exact h
      · simp [Style.line] at h
    have hescape : numberedEscape (.scalar c) = unitEscape c.toNat := by
      rw [numberedEscape]
      exact if_pos (show c.toNat < 0x10000 by omega)
    rw [hescape, readPoints_unitEscape (by omega) hr, Char.ofNat_toNat]
  · have hlarge : ¬ (CodePoint.scalar c).value < 0x20 := fun h => h₈ (.inl h)
    rw [List.singleton_append, readPoints.eq_def]
    dsimp only
    rw [if_neg h₁, if_neg h₂, if_neg hlarge]

/-- Nothing is joined in a text without surrogates. -/
theorem joinSurrogates_map_scalar (cs : List Char) :
    joinSurrogates (cs.map .scalar) = cs.map .scalar := by
  induction cs with
  | nil => rfl
  | cons c cs ih =>
      rw [List.map_cons, joinSurrogates, ih]
      simp

/-- **A string without surrogates is read back.** -/
theorem readString_writeString {t : Text} (ht : t.IsScalar) :
    readString opening (t.flatMap (writePoint .line) ++ .scalar '"' :: rest) = .ok (t, rest) := by
  obtain ⟨cs, rfl⟩ := ht.exists_chars
  have hpoints : readPoints opening
      ((cs.map CodePoint.scalar).flatMap (writePoint .line) ++ .scalar '"' :: rest) =
        .ok (cs.map .scalar, rest) := by
    clear ht
    induction cs with
    | nil =>
        rw [List.map_nil, List.flatMap_nil, List.nil_append, readPoints.eq_def]
        exact if_pos rfl
    | cons c cs ih =>
        rw [List.map_cons, List.flatMap_cons, List.append_assoc,
          readPoints_writePoint c (by simp), ih]
        rfl
  rw [readString]
  rw [hpoints]
  change Except.ok (joinSurrogates _, rest) = _
  rw [joinSurrogates_map_scalar]

/-- What is written of a string without surrogates has none, and the other way round. -/
theorem isScalar_of_writeString {t : Text} (h : (writeString .line t).IsScalar) : t.IsScalar := by
  intro c hc
  cases c with
  | scalar x => rfl
  | surrogate n =>
      have hitself : writePoint .line (.surrogate n) = [.surrogate n] := by
        have hlarge : ¬ 0xD800 + n.val < 0x20 := by omega
        simp [writePoint, CodePoint.value, Style.line, hlarge]
      have hmem : CodePoint.surrogate n ∈ writeString .line t := by
        rw [writeString]
        refine List.mem_append_left _ (List.mem_append_right _ ?_)
        exact List.mem_flatMap.mpr ⟨_, hc, by rw [hitself]; simp⟩
      exact h _ hmem

end Json

end CommandGate
