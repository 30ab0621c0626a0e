import CommandGate.Json.Display
import CommandGate.Proofs.Json.Grammar

/-!
# Members and How They Are Shown

An object denotes the last value of each of its members. Where a message shows a value, a string
is shown bare and every other value in a spelling of its own; what that spelling begins with
(`Json.BeginsShown`) tells it from words in lower case.

## Main results

* `Json.member?_collect`: of equal names the last value counts.
* `Json.display_eq_cons_iff`: a text that begins otherwise is what a string is shown as, and no
  other value.
-/

namespace CommandGate

namespace Json

/-! ### The last member -/

/-- The value of the last member with a name. -/
def lastMember? (name : Text) (ms : List (Text × Json)) : Option Json :=
  member? name ms.reverse

/-- A member is looked for in the first list, and then in the second one. -/
theorem member?_append (name : Text) (ms more : List (Text × Json)) :
    member? name (ms ++ more) = (member? name ms).or (member? name more) := by
  induction ms with
  | nil => rfl
  | cons m ms ih =>
      rw [List.cons_append, member?, member?, ih]
      split <;> rfl

/-- A member inserted under its name is the one that is found under it. -/
theorem member?_insert (name : Text) (m : Text × Json) (ms : List (Text × Json)) :
    member? name (insert m.1 m.2 ms) = (member? name [m]).or (member? name ms) := by
  rw [member?]
  split
  · rename_i h
    rw [← h, member?_insert_self]
    rfl
  · rename_i h
    exact member?_insert_of_ne (Ne.symm h) m.2 ms

/-- **Of equal names the last value counts.** -/
theorem member?_collect (name : Text) (before ms : List (Text × Json)) :
    member? name (collect before ms) = (lastMember? name ms).or (member? name before) := by
  induction ms generalizing before with
  | nil => rfl
  | cons m ms ih =>
      have hcollect : collect before (m :: ms) = collect (insert m.1 m.2 before) ms := rfl
      rw [hcollect, ih, member?_insert, lastMember?, lastMember?, List.reverse_cons,
        member?_append, Option.or_assoc]

/-! ### Values that are shown -/

/-- The characters that a value inside another can begin with where it is shown: digits, signs
and brackets, quotes, and the first letters of the words. -/
def BeginsShown (c : Char) : Prop :=
  isAsciiDigit c = true ∨ c ∈ ['-', '[', '\x7b', '\'', '"', 'N', 'T', 'F', 'n', 'i']

/-- A text begins with a character that a value can begin with where it is shown. -/
def OpensShown (t : Text) : Prop :=
  ∃ c rest, t = .scalar c :: rest ∧ BeginsShown c

/-- Digits, with or without a sign, begin as shown values do. -/
theorem opensShown_of_digit (negative : Bool) {cs : List Char}
    (h : ∃ d ds, cs = d :: ds ∧ isAsciiDigit d = true) :
    OpensShown (signText negative ++ cs.map .scalar) := by
  obtain ⟨d, ds, rfl, hd⟩ := h
  cases negative with
  | true => exact ⟨'-', _, rfl, .inr (by simp)⟩
  | false => exact ⟨d, _, rfl, .inl hd⟩

/-- Numbers are shown with a digit, a sign, or a letter of their words at the beginning. -/
theorem opensShown_number (x : Binary64) : OpensShown (x.text .plain) := by
  cases x with
  | nan => exact ⟨'n', _, rfl, .inr (by simp)⟩
  | infinity negative =>
      cases negative with
      | true => exact ⟨'-', _, rfl, .inr (by simp)⟩
      | false => exact ⟨'i', _, rfl, .inr (by simp)⟩
  | finite negative m scale =>
      obtain ⟨cs, hlaid, htext⟩ := Binary64.laid_text .plain negative m scale
      have hshown := opensShown_of_digit negative hlaid.exists_cons
      rw [Text.ofString, htext, List.map_append]
      cases negative <;> exact hshown

/-- A string inside another value is shown with a quote at the beginning. -/
theorem opensShown_string (t : Text) : OpensShown t.quoted := by
  refine ⟨t.quoteMark, _, rfl, .inr ?_⟩
  rw [Text.quoteMark]
  split <;> simp

/-- **What a value begins with** where it stands inside another. -/
theorem opensShown_quoted (v : Json) : OpensShown v.quoted := by
  cases v with
  | null => exact ⟨'N', _, rfl, .inr (by simp)⟩
  | bool b =>
      cases b with
      | true => exact ⟨'T', _, rfl, .inr (by simp)⟩
      | false => exact ⟨'F', _, rfl, .inr (by simp)⟩
  | integer n =>
      rw [quoted, writeInteger_eq]
      exact opensShown_of_digit _ (isWhole_toDigits _).exists_cons
  | number x => exact opensShown_number x
  | string t => exact opensShown_string t
  | array items => cases items <;> exact ⟨'[', _, rfl, .inr (by simp)⟩
  | object members => cases members <;> exact ⟨'\x7b', _, rfl, .inr (by simp)⟩

/-- **A text that begins otherwise** is what a string is shown as, and no other value. -/
theorem display_eq_cons_iff {v : Json} {c : Char} {rest : Text} (hc : ¬ BeginsShown c) :
    display v = .scalar c :: rest ↔ v = .string (.scalar c :: rest) := by
  constructor
  · intro h
    by_cases hv : ∃ t, v = .string t
    · obtain ⟨t, rfl⟩ := hv
      rw [← h, display]
    · -- a value that is no string is shown as it stands inside others
      have hquoted : display v = quoted v := by
        cases v with
        | string t => exact absurd ⟨t, rfl⟩ hv
        | _ => rfl
      obtain ⟨d, more, hd, hbegins⟩ := opensShown_quoted v
      rw [hquoted, hd, List.cons.injEq, CodePoint.scalar.injEq] at h
      exact absurd (h.1 ▸ hbegins) hc
  · rintro rfl
    rfl

end Json

end CommandGate
