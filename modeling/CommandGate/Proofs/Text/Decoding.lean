import CommandGate.Proofs.Text.Utf8

/-!
# The Bytes That Are Read

Reading accepts the encoded forms of texts and nothing else: the bounds of the continuation
bytes keep out every other spelling of a character. So a text is what some bytes are read as
exactly if they are its encoded form, and bytes that are no encoded form are a fault.

## Main results

* `Utf8.decode_eq_ok_iff`: bytes are read as a text exactly if they are its encoded form.
* `Utf8.decode_eq_error_iff`: the bytes that are a fault.
-/

namespace CommandGate

namespace Utf8

variable {offset : Nat} {p : Pending} {b : UInt8} {bytes : Bytes} {t : Text}

/-! ### Single steps -/

/-- The bounds of the next byte of a character under way let continuation bytes through, at
most. -/
structure Pending.Bounded (p : Pending) : Prop where
  low : 0x80 ≤ p.low.toNat
  high : p.high.toNat ≤ 0xBF

/-- What is under way after a continuation byte that does not end the character. -/
def Pending.next (p : Pending) (bits : Nat) : Pending :=
  { p with value := p.value * 64 + bits, owed := p.owed - 1, low := 0x80, high := 0xBF,
           count := p.count + 1 }

/-- A continuation byte puts six bits behind those that were carried. -/
@[simp] theorem Pending.next_value (p : Pending) (bits : Nat) :
    (p.next bits).value = p.value * 64 + bits :=
  rfl

/-- After a continuation byte any other one may follow. -/
theorem Pending.bounded_next (p : Pending) (bits : Nat) : (p.next bits).Bounded :=
  ⟨Nat.le_refl 0x80, Nat.le_refl 0xBF⟩

/-- Inside a character the next byte is a continuation byte between the bounds. -/
theorem exists_continuation (hp : p.Bounded) (h : decodeFrom offset (some p) bytes = .ok t) :
    ∃ bits more, bits < 64 ∧ bytes = .ofNat (0x80 + bits % 64) :: more ∧
      p.low.toNat ≤ 0x80 + bits ∧ 0x80 + bits ≤ p.high.toNat := by
  cases bytes with
  | nil => simp [decodeFrom] at h
  | cons b more =>
      by_cases hb : p.low ≤ b ∧ b ≤ p.high
      · have hlow : p.low.toNat ≤ b.toNat := UInt8.le_iff_toNat_le.mp hb.1
        have hhigh : b.toNat ≤ p.high.toNat := UInt8.le_iff_toNat_le.mp hb.2
        have hleast := hp.low
        have hmost := hp.high
        have hbits : 0x80 + (b.toNat - 0x80) % 64 = b.toNat := by omega
        refine ⟨b.toNat - 0x80, more, by omega, ?_, by omega, by omega⟩
        rw [hbits, UInt8.ofNat_toNat]
      · simp [decodeFrom, hb] at h

/-- A continuation byte that is not the last one goes on with the character. -/
theorem exists_inner (hp : p.Bounded) (ho : 1 < p.owed)
    (h : decodeFrom offset (some p) bytes = .ok t) :
    ∃ bits more, bits < 64 ∧ bytes = .ofNat (0x80 + bits % 64) :: more ∧
      p.low.toNat ≤ 0x80 + bits ∧ 0x80 + bits ≤ p.high.toNat ∧
      decodeFrom (offset + 1) (some (p.next bits)) more = .ok t := by
  obtain ⟨bits, more, hbits, rfl, hlow, hhigh⟩ := exists_continuation hp h
  have hmod : bits % 64 = bits := Nat.mod_eq_of_lt hbits
  rw [decodeFrom_continuation (by omega) (by omega), if_neg (by omega), hmod] at h
  exact ⟨bits, more, hbits, rfl, hlow, hhigh, h⟩

/-- The last continuation byte ends the character. -/
theorem exists_last (hp : p.Bounded) (ho : p.owed = 1)
    (h : decodeFrom offset (some p) bytes = .ok t) :
    ∃ bits more u, bits < 64 ∧ bytes = .ofNat (0x80 + bits % 64) :: more ∧
      p.low.toNat ≤ 0x80 + bits ∧ 0x80 + bits ≤ p.high.toNat ∧
      t = .scalar (Char.ofNat (p.value * 64 + bits)) :: u ∧
      decodeFrom (offset + 1) none more = .ok u := by
  obtain ⟨bits, more, hbits, rfl, hlow, hhigh⟩ := exists_continuation hp h
  have hmod : bits % 64 = bits := Nat.mod_eq_of_lt hbits
  rw [decodeFrom_continuation (by omega) (by omega), if_pos (by omega), hmod] at h
  cases hu : decodeFrom (offset + 1) none more with
  | error e => simp [hu, Except.map] at h
  | ok u =>
      rw [hu] at h
      exact ⟨bits, more, u, hbits, rfl, hlow, hhigh, (Except.ok.inj h).symm, hu⟩

/-! ### First bytes -/

/-- What a first byte opens: the bits that it carries, and the bounds that keep overlong forms,
surrogates and too large numbers out. -/
inductive Opening (b : UInt8) (p : Pending) : Prop
  | two (owed : p.owed = 1) (first : b.toNat = 0xC0 + p.value) (least : 2 ≤ p.value)
      (most : p.value < 0x20)
  | three (owed : p.owed = 2) (first : b.toNat = 0xE0 + p.value) (most : p.value < 0x10)
      (overlong : p.value = 0 → 0xA0 ≤ p.low.toNat)
      (surrogate : p.value = 0xD → p.high.toNat ≤ 0x9F)
  | four (owed : p.owed = 3) (first : b.toNat = 0xF0 + p.value) (most : p.value ≤ 4)
      (overlong : p.value = 0 → 0x90 ≤ p.low.toNat)
      (large : p.value = 4 → p.high.toNat ≤ 0x8F)

/-- What is under way after a first byte is what that byte opens. -/
theorem opening_of_openWith (h : openWith offset b = some p) : p.Bounded ∧ Opening b p := by
  rw [openWith] at h
  split_ifs at h with h₁ h₂ h₃ h₄ h₅ h₆ h₇ <;> obtain rfl := Option.some.inj h
  · exact ⟨⟨by simp, by simp⟩, .two rfl (by dsimp only; omega) (by dsimp only; omega)
      (by dsimp only; omega)⟩
  · exact ⟨⟨by simp, by simp⟩, .three rfl (by dsimp only; omega) (by simp) (by simp) (by simp)⟩
  · exact ⟨⟨by simp, by simp⟩, .three rfl (by dsimp only; omega) (by simp) (by simp) (by simp)⟩
  · exact ⟨⟨by simp, by simp⟩, .three rfl (by dsimp only; omega) (by dsimp only; omega)
      (by dsimp only; omega) (by dsimp only; omega)⟩
  · exact ⟨⟨by simp, by simp⟩, .four rfl (by dsimp only; omega) (by simp) (by simp) (by simp)⟩
  · exact ⟨⟨by simp, by simp⟩, .four rfl (by dsimp only; omega) (by simp) (by simp) (by simp)⟩
  · exact ⟨⟨by simp, by simp⟩, .four rfl (by dsimp only; omega) (by dsimp only; omega)
      (by dsimp only; omega) (by dsimp only; omega)⟩

/-! ### Characters -/

/-- A valid number is that of its character. -/
theorem toNat_ofNat_of_valid {n : Nat} (h : n < 0xD800 ∨ 0xDFFF < n ∧ n < 0x110000) :
    (Char.ofNat n).toNat = n := by
  rw [Char.ofNat, dif_pos h]
  rfl

/-- A byte is given by its number. -/
theorem eq_ofNat {n : Nat} (h : b.toNat = n) : b = .ofNat n := by
  rw [← h, UInt8.ofNat_toNat]

/-- **Between characters the bytes of a character come next**, and it is the one that is read
first. -/
theorem exists_encodeChar (h : decodeFrom offset none (b :: bytes) = .ok t) :
    ∃ c more u next, b :: bytes = encodeChar c ++ more ∧ t = .scalar c :: u ∧
      decodeFrom next none more = .ok u := by
  by_cases hb : b.toNat < 0x80
  · rw [decodeFrom, if_pos hb] at h
    cases hu : decodeFrom (offset + 1) none bytes with
    | error e => simp [hu, Except.map] at h
    | ok u =>
        rw [hu] at h
        have hvalue : (Char.ofNat b.toNat).toNat = b.toNat := toNat_ofNat_of_valid (by omega)
        refine ⟨_, bytes, u, _, ?_, (Except.ok.inj h).symm, hu⟩
        rw [encodeChar]
        dsimp only
        rw [hvalue, if_pos hb, UInt8.ofNat_toNat]
        rfl
  · rw [decodeFrom, if_neg hb] at h
    cases hopen : openWith offset b with
    | none => simp [hopen] at h
    | some p =>
        rw [hopen] at h
        dsimp only at h
        obtain ⟨hp, hopening⟩ := opening_of_openWith hopen
        cases hopening with
        | two owed first least most =>
            obtain ⟨x, more, u, hx, rfl, -, -, rfl, hu⟩ := exists_last hp owed h
            have hvalue : (Char.ofNat (p.value * 64 + x)).toNat = p.value * 64 + x :=
              toNat_ofNat_of_valid (by omega)
            refine ⟨_, more, u, _, ?_, rfl, hu⟩
            rw [encodeChar]
            dsimp only
            rw [hvalue, if_neg (by omega), if_pos (by omega), eq_ofNat first,
              show (p.value * 64 + x) / 64 = p.value by omega,
              show (p.value * 64 + x) % 64 = x % 64 by omega]
            rfl
        | three owed first most overlong surrogate =>
            obtain ⟨x, more, hx, rfl, hlow, hhigh, h⟩ := exists_inner hp (by omega) h
            obtain ⟨y, more, u, hy, rfl, -, -, rfl, hu⟩ :=
              exists_last (p.bounded_next x) (by simp [Pending.next, owed]) h
            generalize hn : (p.next x).value * 64 + y = n at *
            rw [Pending.next_value] at hn
            have hvalue : (Char.ofNat n).toNat = n := toNat_ofNat_of_valid (by omega)
            refine ⟨_, more, u, _, ?_, rfl, hu⟩
            rw [encodeChar]
            dsimp only
            rw [hvalue, if_neg (by omega), if_neg (by omega), if_pos (by omega), eq_ofNat first,
              show n / 4096 = p.value by omega, show n / 64 % 64 = x % 64 by omega,
              show n % 64 = y % 64 by omega]
            rfl
        | four owed first most overlong large =>
            obtain ⟨x, more, hx, rfl, hlow, hhigh, h⟩ := exists_inner hp (by omega) h
            obtain ⟨y, more, hy, rfl, -, -, h⟩ :=
              exists_inner (p.bounded_next x) (by simp [Pending.next, owed]) h
            obtain ⟨z, more, u, hz, rfl, -, -, rfl, hu⟩ :=
              exists_last (Pending.bounded_next _ y) (by simp [Pending.next, owed]) h
            generalize hn : ((p.next x).next y).value * 64 + z = n at *
            rw [Pending.next_value, Pending.next_value] at hn
            have hvalue : (Char.ofNat n).toNat = n := toNat_ofNat_of_valid (by omega)
            refine ⟨_, more, u, _, ?_, rfl, hu⟩
            rw [encodeChar]
            dsimp only
            rw [hvalue, if_neg (by omega), if_neg (by omega), if_neg (by omega), eq_ofNat first,
              show n / 262144 = p.value by omega, show n / 4096 % 64 = x % 64 by omega,
              show n / 64 % 64 = y % 64 by omega, show n % 64 = z % 64 by omega]
            rfl

/-- Every character has bytes. -/
theorem encodeChar_ne_nil (c : Char) : encodeChar c ≠ [] := by
  rw [encodeChar]
  dsimp only
  split_ifs <;> simp

/-- Bytes that are read are the encoded form of what they are read as. -/
theorem exists_chars_of_decodeFrom (h : decodeFrom offset none bytes = .ok t) :
    ∃ cs : List Char, t = cs.map .scalar ∧ bytes = cs.flatMap encodeChar := by
  -- character by character: the bytes that are left grow fewer
  induction hlen : bytes.length using Nat.strongRecOn generalizing offset bytes t with
  | _ n ih =>
      cases bytes with
      | nil => exact ⟨[], by simpa [decodeFrom] using h.symm, rfl⟩
      | cons b bytes =>
          obtain ⟨c, more, u, next, hbytes, rfl, hu⟩ := exists_encodeChar h
          have hpos : 0 < (encodeChar c).length :=
            List.length_pos_iff.mpr (encodeChar_ne_nil c)
          rw [hbytes, List.length_append] at hlen
          obtain ⟨cs, rfl, rfl⟩ := ih more.length (by omega) hu rfl
          exact ⟨c :: cs, rfl, by rw [hbytes, List.flatMap_cons]⟩

/-! ### Whole texts -/

/-- **Bytes are read as a text exactly if they are its encoded form.** -/
theorem decode_eq_ok_iff : decode bytes = .ok t ↔ encode t = .ok bytes := by
  constructor
  · intro h
    obtain ⟨cs, rfl, rfl⟩ := exists_chars_of_decodeFrom h
    exact encode_map_scalar cs
  · intro h
    have hempty : decode [] = .ok [] := rfl
    exact decode_append_encode hempty h

/-- **The bytes that are a fault** are those that are the encoded form of no text. -/
theorem decode_eq_error_iff : (∃ e, decode bytes = .error e) ↔ ¬ ∃ t, encode t = .ok bytes := by
  simp only [← decode_eq_ok_iff]
  cases decode bytes <;> simp

end Utf8

end CommandGate
