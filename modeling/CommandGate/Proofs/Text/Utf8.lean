import CommandGate.Text.Utf8
import Mathlib.Tactic.Common

/-!
# The Encoded Form of Texts

A text has an encoded form exactly if it holds no surrogate (`Text.IsScalar`), and what is
encoded is read back. Reading goes on where it stopped between characters, so the encoded
forms of texts can be put one after another.

## Main results

* `Utf8.encode_map_scalar`: texts without surrogates are encoded character by character.
* `Utf8.decodeFrom_append`: what is read of bytes put behind bytes that are read.
* `Utf8.decodeFrom_flatMap_encodeChar`: what is encoded is read back.
* `Utf8.decode_append_encode`: what is encoded is read behind what was there.
-/

namespace CommandGate

/-- A character is no surrogate. -/
@[simp] theorem CodePoint.isSurrogate_scalar (c : Char) : (scalar c).isSurrogate = false := by
  simp [isSurrogate]

namespace Text

/-- A text without surrogates. -/
def IsScalar (t : Text) : Prop :=
  ∀ c ∈ t, c.isSurrogate = false

@[simp] theorem isScalar_nil : IsScalar [] := by
  simp [IsScalar]

@[simp] theorem isScalar_cons {c : CodePoint} {t : Text} :
    IsScalar (c :: t) ↔ c.isSurrogate = false ∧ IsScalar t :=
  List.forall_mem_cons

@[simp] theorem isScalar_append {t u : Text} : IsScalar (t ++ u) ↔ IsScalar t ∧ IsScalar u :=
  List.forall_mem_append

/-- Text made of characters has no surrogates. -/
@[simp] theorem isScalar_map_scalar (cs : List Char) : IsScalar (cs.map .scalar) := by
  simp [IsScalar]

/-- A string has no surrogates. -/
@[simp] theorem isScalar_ofString (s : String) : IsScalar (ofString s) :=
  isScalar_map_scalar s.toList

/-- Text that is put together from texts without surrogates has none. -/
theorem IsScalar.flatMap {t : Text} {f : CodePoint → Text}
    (h : ∀ c ∈ t, IsScalar (f c)) : IsScalar (t.flatMap f) := by
  intro c hc
  obtain ⟨d, hd, hcd⟩ := List.mem_flatMap.mp hc
  exact h d hd c hcd

/-- A text without surrogates is that of some characters. -/
theorem IsScalar.exists_chars {t : Text} (h : IsScalar t) :
    ∃ cs : List Char, t = cs.map .scalar := by
  induction t with
  | nil => exact ⟨[], rfl⟩
  | cons c t ih =>
      obtain ⟨hc, ht⟩ := isScalar_cons.mp h
      obtain ⟨cs, rfl⟩ := ih ht
      cases c with
      | scalar x => exact ⟨x :: cs, rfl⟩
      | surrogate n => exact absurd hc (by simp [CodePoint.isSurrogate])

end Text

namespace Utf8

/-! ### Writing -/

/-- Text made of characters is encoded as their bytes. -/
theorem encodeFrom_map_scalar (offset : Nat) (cs : List Char) :
    encodeFrom offset (cs.map .scalar) = .ok (cs.flatMap encodeChar) := by
  induction cs generalizing offset with
  | nil => rfl
  | cons c cs ih =>
      rw [List.map_cons, encodeFrom, ih]
      rfl

/-- A text without surrogates is encoded character by character. -/
theorem encode_map_scalar (cs : List Char) :
    encode (cs.map .scalar) = .ok (cs.flatMap encodeChar) :=
  encodeFrom_map_scalar 0 cs

/-- Only text without surrogates can be encoded. -/
theorem isScalar_of_encodeFrom_eq_ok {offset : Nat} {t : Text} {bytes : Bytes}
    (h : encodeFrom offset t = .ok bytes) : t.IsScalar := by
  induction t generalizing offset bytes with
  | nil => simp
  | cons c t ih =>
      cases c with
      | surrogate n => simp [encodeFrom] at h
      | scalar x =>
          rw [encodeFrom] at h
          cases hr : encodeFrom (offset + 1) t with
          | error e => simp [hr, Except.map] at h
          | ok more => exact Text.isScalar_cons.mpr ⟨rfl, ih hr⟩

/-- **The texts with an encoded form** are those without surrogates. -/
theorem encode_eq_ok_iff {t : Text} : (∃ bytes, encode t = .ok bytes) ↔ t.IsScalar := by
  constructor
  · rintro ⟨bytes, h⟩
    exact isScalar_of_encodeFrom_eq_ok h
  · intro h
    obtain ⟨cs, rfl⟩ := h.exists_chars
    exact ⟨_, encode_map_scalar cs⟩

/-! ### Reading on -/

/-- Reading goes on between characters. -/
theorem decodeFrom_append {offset : Nat} {pending : Option Pending} {bytes : Bytes} {t : Text}
    (h : decodeFrom offset pending bytes = .ok t) (more : Bytes) :
    decodeFrom offset pending (bytes ++ more) =
      (decodeFrom (offset + bytes.length) none more).map (t ++ ·) := by
  induction bytes generalizing offset pending t with
  | nil =>
      cases pending with
      | some p => simp [decodeFrom] at h
      | none =>
          obtain rfl : [] = t := by simpa [decodeFrom] using h
          cases hd : decodeFrom offset none more <;> simp [hd, Except.map]
  | cons b bytes ih =>
      -- one byte on, in whatever state that leaves, with the characters read so far in front
      have onwards {next : Option Pending} (front : Text)
          (hr : (decodeFrom (offset + 1) next bytes).map (front ++ ·) = .ok t) :
          (decodeFrom (offset + 1) next (bytes ++ more)).map (front ++ ·) =
            (decodeFrom (offset + (bytes.length + 1)) none more).map (t ++ ·) := by
        cases hd : decodeFrom (offset + 1) next bytes with
        | error e => simp [hd, Except.map] at hr
        | ok u =>
            obtain rfl : front ++ u = t := by simpa [hd, Except.map] using hr
            rw [ih hd, Nat.add_assoc, Nat.add_comm 1]
            cases decodeFrom (offset + (bytes.length + 1)) none more <;> simp [Except.map]
      have silently {next : Option Pending} (hr : decodeFrom (offset + 1) next bytes = .ok t) :
          decodeFrom (offset + 1) next (bytes ++ more) =
            (decodeFrom (offset + (bytes.length + 1)) none more).map (t ++ ·) := by
        rw [ih hr, Nat.add_assoc, Nat.add_comm 1]
      cases pending with
      | none =>
          rw [List.cons_append, List.length_cons]
          by_cases hb : b.toNat < 0x80
          · rw [decodeFrom, if_pos hb] at h ⊢
            exact onwards [.scalar (Char.ofNat b.toNat)] h
          · rw [decodeFrom, if_neg hb] at h ⊢
            cases ho : openWith offset b with
            | none => simp [ho] at h
            | some p =>
                simp only [ho] at h ⊢
                exact silently h
      | some p =>
          rw [List.cons_append, List.length_cons]
          by_cases hb : p.low ≤ b ∧ b ≤ p.high
          · rw [decodeFrom, if_pos hb] at h ⊢
            by_cases hl : p.owed ≤ 1
            · simp only [hl, if_true] at h ⊢
              exact onwards [.scalar _] h
            · simp only [hl, if_false] at h ⊢
              exact silently h
          · simp [decodeFrom, hb] at h

/-! ### Reading what was written -/

/-- The number of a continuation byte is the last six bits that it carries. -/
theorem toNat_continuation (bits : Nat) :
    (UInt8.ofNat (0x80 + bits % 64)).toNat = 0x80 + bits % 64 := by
  rw [UInt8.toNat_ofNat', Nat.mod_eq_of_lt (by omega)]

/-- A continuation byte between the bounds adds its six bits; the last one ends the
character. -/
theorem decodeFrom_continuation {offset : Nat} {p : Pending} {bits : Nat} {rest : Bytes}
    (hlow : p.low.toNat ≤ 0x80 + bits % 64) (hhigh : 0x80 + bits % 64 ≤ p.high.toNat) :
    decodeFrom offset (some p) (.ofNat (0x80 + bits % 64) :: rest) =
      if p.owed ≤ 1 then
        (decodeFrom (offset + 1) none rest).map
          (.scalar (Char.ofNat (p.value * 64 + bits % 64)) :: ·)
      else
        decodeFrom (offset + 1)
          (some { p with value := p.value * 64 + bits % 64, owed := p.owed - 1, low := 0x80,
                         high := 0xBF, count := p.count + 1 }) rest := by
  have hb : p.low ≤ UInt8.ofNat (0x80 + bits % 64) ∧ UInt8.ofNat (0x80 + bits % 64) ≤ p.high := by
    rw [UInt8.le_iff_toNat_le, UInt8.le_iff_toNat_le, toNat_continuation]
    exact ⟨hlow, hhigh⟩
  rw [decodeFrom, if_pos hb, toNat_continuation, Nat.add_sub_cancel_left]

/-- The first byte of a character of more than one byte opens it. -/
theorem decodeFrom_open {offset n : Nat} {p : Pending} {rest : Bytes} (hn : n < 256)
    (hlow : 0x80 ≤ n) (h : openWith offset (.ofNat n) = some p) :
    decodeFrom offset none (.ofNat n :: rest) = decodeFrom (offset + 1) (some p) rest := by
  have hb : ¬ (UInt8.ofNat n).toNat < 0x80 := by
    rw [UInt8.toNat_ofNat', Nat.mod_eq_of_lt hn]
    omega
  rw [decodeFrom, if_neg hb, h]

/-- What the first byte of a character of two bytes opens. -/
theorem openWith_two {offset n : Nat} (hlow : 0x80 ≤ n) (hhigh : n < 0x800) :
    openWith offset (.ofNat (0xC0 + n / 64)) =
      some ⟨n / 64, 1, 0x80, 0xBF, offset, .ofNat (0xC0 + n / 64), 1⟩ := by
  have hb : (UInt8.ofNat (0xC0 + n / 64)).toNat = 0xC0 + n / 64 := by
    rw [UInt8.toNat_ofNat', Nat.mod_eq_of_lt (by omega)]
  rw [openWith, hb, if_pos (by omega), Nat.add_sub_cancel_left]

/-- What the first byte of a character of three bytes opens. The bounds of the next byte
leave out overlong forms and surrogates. -/
theorem openWith_three (offset : Nat) {n : Nat} (hlow : 0x800 ≤ n) (hhigh : n < 0x10000)
    (hs : n < 0xD800 ∨ 0xDFFF < n) :
    ∃ low high : UInt8, low.toNat ≤ 0x80 + n / 64 % 64 ∧ 0x80 + n / 64 % 64 ≤ high.toNat ∧
      openWith offset (.ofNat (0xE0 + n / 4096)) =
        some ⟨n / 4096, 2, low, high, offset, .ofNat (0xE0 + n / 4096), 1⟩ := by
  have hb : (UInt8.ofNat (0xE0 + n / 4096)).toNat = 0xE0 + n / 4096 := by
    rw [UInt8.toNat_ofNat', Nat.mod_eq_of_lt (by omega)]
  rw [openWith, hb, if_neg (by omega), Nat.add_sub_cancel_left]
  by_cases h₀ : n / 4096 = 0
  · exact ⟨0xA0, 0xBF, by simp; omega, by simp; omega, by simp [h₀]⟩
  · rw [if_neg (by omega)]
    by_cases hd : n / 4096 = 0xD
    · exact ⟨0x80, 0x9F, by simp, by simp; omega, by simp [hd]⟩
    · rw [if_neg (by omega), if_pos (by omega)]
      exact ⟨0x80, 0xBF, by simp, by simp; omega, rfl⟩

/-- What the first byte of a character of four bytes opens. The bounds of the next byte leave
out overlong forms and numbers that are too large. -/
theorem openWith_four (offset : Nat) {n : Nat} (hlow : 0x10000 ≤ n) (hhigh : n < 0x110000) :
    ∃ low high : UInt8, low.toNat ≤ 0x80 + n / 4096 % 64 ∧ 0x80 + n / 4096 % 64 ≤ high.toNat ∧
      openWith offset (.ofNat (0xF0 + n / 262144)) =
        some ⟨n / 262144, 3, low, high, offset, .ofNat (0xF0 + n / 262144), 1⟩ := by
  have hb : (UInt8.ofNat (0xF0 + n / 262144)).toNat = 0xF0 + n / 262144 := by
    rw [UInt8.toNat_ofNat', Nat.mod_eq_of_lt (by omega)]
  rw [openWith, hb, if_neg (by omega), if_neg (by omega), if_neg (by omega), if_neg (by omega),
    Nat.add_sub_cancel_left]
  by_cases h₀ : n / 262144 = 0
  · exact ⟨0x90, 0xBF, by simp; omega, by simp; omega, by simp [h₀]⟩
  · rw [if_neg (by omega)]
    by_cases h₄ : n / 262144 = 4
    · exact ⟨0x80, 0x8F, by simp, by simp; omega, by simp [h₄]⟩
    · rw [if_neg (by omega), if_pos (by omega)]
      exact ⟨0x80, 0xBF, by simp, by simp; omega, rfl⟩

/-- **The bytes of a character are read as that character.** -/
theorem decodeFrom_encodeChar (offset : Nat) (c : Char) :
    decodeFrom offset none (encodeChar c) = .ok [.scalar c] := by
  have hc : Char.ofNat c.toNat = c := Char.ofNat_toNat c
  have hvalid : c.toNat < 0xD800 ∨ 0xDFFF < c.toNat ∧ c.toNat < 0x110000 := c.valid
  have last {value offset : Nat} (h : value = c.toNat) :
      (decodeFrom offset none []).map (.scalar (Char.ofNat value) :: ·) = .ok [.scalar c] := by
    rw [h, hc]
    rfl
  rw [encodeChar]
  dsimp only
  generalize c.toNat = n at *
  split_ifs with h₁ h₂ h₃
  · have hb : (UInt8.ofNat n).toNat = n := by
      rw [UInt8.toNat_ofNat', Nat.mod_eq_of_lt (by omega)]
    rw [decodeFrom, if_pos (by omega), hb]
    exact last rfl
  · rw [decodeFrom_open (by omega) (by omega) (openWith_two (by omega) h₂),
      decodeFrom_continuation (by simp) (by simp; omega), if_pos (Nat.le_refl 1)]
    exact last (by dsimp only; omega)
  · obtain ⟨low, high, hl, hh, ho⟩ := openWith_three offset (n := n)
      (by omega) h₃ (by omega)
    rw [decodeFrom_open (by omega) (by omega) ho, decodeFrom_continuation hl hh,
      if_neg (by simp), decodeFrom_continuation (by simp) (by simp; omega), if_pos (by simp)]
    exact last (by dsimp only; omega)
  · obtain ⟨low, high, hl, hh, ho⟩ := openWith_four offset (n := n)
      (by omega) (by omega)
    rw [decodeFrom_open (by omega) (by omega) ho, decodeFrom_continuation hl hh,
      if_neg (by simp), decodeFrom_continuation (by simp) (by simp; omega), if_neg (by simp),
      decodeFrom_continuation (by simp) (by simp; omega), if_pos (by simp)]
    exact last (by dsimp only; omega)

/-- **What is encoded is read back.** -/
theorem decodeFrom_flatMap_encodeChar (offset : Nat) (cs : List Char) :
    decodeFrom offset none (cs.flatMap encodeChar) = .ok (cs.map .scalar) := by
  induction cs generalizing offset with
  | nil => rfl
  | cons c cs ih =>
      rw [List.flatMap_cons, decodeFrom_append (decodeFrom_encodeChar offset c), ih]
      rfl

/-- **What is encoded and put behind bytes that are read** is read after them. -/
theorem decode_append_encode {bytes more : Bytes} {t u : Text} (ht : decode bytes = .ok t)
    (hu : encode u = .ok more) : decode (bytes ++ more) = .ok (t ++ u) := by
  obtain ⟨cs, rfl⟩ := (encode_eq_ok_iff.mp ⟨more, hu⟩).exists_chars
  obtain rfl : cs.flatMap encodeChar = more := by
    rw [encode_map_scalar] at hu
    exact Except.ok.inj hu
  rw [decode]
  rw [decodeFrom_append ht, decodeFrom_flatMap_encodeChar]
  rfl

end Utf8

end CommandGate
