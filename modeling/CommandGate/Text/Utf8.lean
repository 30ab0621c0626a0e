import CommandGate.Text.Quoted

/-!
# UTF-8

`Utf8.decode` reads bytes one at a time. Between characters the next byte chooses how many
continuation bytes are owed and between which bounds the first of them lies; the bounds
keep out overlong forms, surrogates and numbers above `0x10FFFF`. The reading stops at the
first byte that cannot go on, and the fault says where the character began, how many bytes
of it were read, and why it stopped:

* a byte that starts no character,
* a byte that does not continue the character begun,
* the end of the input inside a character.

`Utf8.encode` is the inverse on texts without surrogates; a surrogate has no encoded form,
and the fault names the first run of them.
-/

namespace CommandGate

/-- A sequence of bytes, as files hold them. -/
abbrev Bytes := List UInt8

namespace Utf8

/-- Why bytes are not UTF-8. -/
inductive Reason where
  | badStart
  | badContinuation
  | unfinished
  deriving DecidableEq

/-- Where and why bytes stop being UTF-8: the offset of the character begun, its first
byte, and the number of its bytes that were read (one for a byte that starts none). -/
structure DecodeFault where
  reason : Reason
  start : Nat
  first : UInt8
  count : Nat
  deriving DecidableEq

/-- A character under way: the number so far, the continuation bytes owed, and the bounds of
the next one; then where it started, with which byte, and how many bytes were read. -/
structure Pending where
  value : Nat
  owed : Nat
  low : UInt8
  high : UInt8
  start : Nat
  first : UInt8
  count : Nat

/-- What the first byte of a character of more than one byte opens. -/
def openWith (start : Nat) (b : UInt8) : Option Pending :=
  let n := b.toNat
  if 0xC2 ≤ n ∧ n ≤ 0xDF then some ⟨n - 0xC0, 1, 0x80, 0xBF, start, b, 1⟩
  else if n = 0xE0 then some ⟨0, 2, 0xA0, 0xBF, start, b, 1⟩
  else if n = 0xED then some ⟨0xD, 2, 0x80, 0x9F, start, b, 1⟩
  else if 0xE1 ≤ n ∧ n ≤ 0xEF then some ⟨n - 0xE0, 2, 0x80, 0xBF, start, b, 1⟩
  else if n = 0xF0 then some ⟨0, 3, 0x90, 0xBF, start, b, 1⟩
  else if n = 0xF4 then some ⟨4, 3, 0x80, 0x8F, start, b, 1⟩
  else if 0xF1 ≤ n ∧ n ≤ 0xF3 then some ⟨n - 0xF0, 3, 0x80, 0xBF, start, b, 1⟩
  else none

/-- Reads on from offset `offset`, inside the character `pending` if there is one. -/
def decodeFrom (offset : Nat) : Option Pending → Bytes → Except DecodeFault Text
  | none, [] => .ok []
  | none, b :: rest =>
    if b.toNat < 0x80 then
      (decodeFrom (offset + 1) none rest).map (.scalar (Char.ofNat b.toNat) :: ·)
    else match openWith offset b with
      | some p => decodeFrom (offset + 1) (some p) rest
      | none => .error ⟨.badStart, offset, b, 1⟩
  | some p, [] => .error ⟨.unfinished, p.start, p.first, p.count⟩
  | some p, b :: rest =>
    if p.low ≤ b ∧ b ≤ p.high then
      let value := p.value * 64 + (b.toNat - 0x80)
      if p.owed ≤ 1 then
        (decodeFrom (offset + 1) none rest).map (.scalar (Char.ofNat value) :: ·)
      else
        decodeFrom (offset + 1)
          (some { p with value, owed := p.owed - 1, low := 0x80, high := 0xBF,
                         count := p.count + 1 }) rest
    else .error ⟨.badContinuation, p.start, p.first, p.count⟩

/-- The text that bytes encode. -/
def decode (bytes : Bytes) : Except DecodeFault Text :=
  decodeFrom 0 none bytes

/-- The wording of a reason. -/
def Reason.message : Reason → String
  | badStart => "invalid start byte"
  | badContinuation => "invalid continuation byte"
  | unfinished => "unexpected end of data"

/-- The wording of a fault: one byte is shown, several are located by their offsets. -/
def DecodeFault.message (f : DecodeFault) : String :=
  if f.count = 1 then
    "'utf-8' codec can't decode byte 0x" ++ String.ofList (hexDigits 2 f.first.toNat)
      ++ s!" in position {f.start}: " ++ f.reason.message
  else
    let last := f.start + f.count - 1
    s!"'utf-8' codec can't decode bytes in position {f.start}-{last}: " ++ f.reason.message

/-- The bytes of a scalar value. -/
def encodeChar (c : Char) : Bytes :=
  let n := c.toNat
  let tail (bits : Nat) : UInt8 := .ofNat (0x80 + bits % 64)
  if n < 0x80 then [.ofNat n]
  else if n < 0x800 then [.ofNat (0xC0 + n / 64), tail n]
  else if n < 0x10000 then [.ofNat (0xE0 + n / 4096), tail (n / 64), tail n]
  else [.ofNat (0xF0 + n / 262144), tail (n / 4096), tail (n / 64), tail n]

/-- The first run of surrogates in a text: its offset, its length, and its first member. -/
structure EncodeFault where
  start : Nat
  count : Nat
  first : CodePoint
  deriving DecidableEq

/-- The bytes of a text, the first code point being at offset `offset`. -/
def encodeFrom (offset : Nat) : Text → Except EncodeFault Bytes
  | [] => .ok []
  | .scalar c :: rest => (encodeFrom (offset + 1) rest).map (encodeChar c ++ ·)
  | .surrogate n :: rest =>
    .error ⟨offset, 1 + (rest.takeWhile CodePoint.isSurrogate).length, .surrogate n⟩

/-- The bytes of a text without surrogates. -/
def encode (t : Text) : Except EncodeFault Bytes :=
  encodeFrom 0 t

/-- The wording of a fault: one surrogate is shown, several are located. -/
def EncodeFault.message (f : EncodeFault) : String :=
  if f.count = 1 then
    "'utf-8' codec can't encode character '" ++ String.ofList f.first.numbered
      ++ s!"' in position {f.start}: surrogates not allowed"
  else
    let last := f.start + f.count - 1
    s!"'utf-8' codec can't encode characters in position {f.start}-{last}: surrogates not allowed"

end Utf8

end CommandGate
