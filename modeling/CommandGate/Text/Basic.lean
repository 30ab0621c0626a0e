/-!
# Text as Code Points

Console output, file contents and the strings of JSON documents are sequences of code
points. A JSON escape can name one half of a surrogate pair on its own, so a sequence may
hold surrogates that no encoding form accepts; `CodePoint` keeps them apart from the
scalar values, and `Text` is a list of code points.

Every `String` is a text without surrogates (`Text.ofString`, which is also a coercion).
In the other direction `Text.toString?` answers exactly when no surrogate is present.
-/

namespace CommandGate

/-- A **code point**: a scalar value, or one of the 2048 surrogates standing alone. A
surrogate is held by its offset from `U+D800`. -/
inductive CodePoint where
  | scalar (c : Char)
  | surrogate (offset : Fin 2048)
  deriving DecidableEq

namespace CodePoint

/-- The number of a code point. -/
def value : CodePoint → Nat
  | scalar c => c.toNat
  | surrogate n => 0xD800 + n.val

/-- The code point of a number below `0x110000`. -/
def ofNat (n : Nat) : CodePoint :=
  if h : 0xD800 ≤ n ∧ n < 0xE000 then surrogate ⟨n - 0xD800, by omega⟩
  else scalar (Char.ofNat n)

/-- Whether the code point is a surrogate. -/
def isSurrogate : CodePoint → Bool
  | scalar _ => false
  | surrogate _ => true

end CodePoint

/-- A **text**: a sequence of code points. -/
abbrev Text := List CodePoint

namespace Text

/-- The text of a string. -/
def ofString (s : String) : Text :=
  s.toList.map .scalar

instance : Coe String Text :=
  ⟨ofString⟩

/-- The characters of a text, when none of its code points is a surrogate. -/
def chars? : Text → Option (List Char)
  | [] => some []
  | .scalar c :: rest => (chars? rest).map (c :: ·)
  | .surrogate _ :: _ => none

/-- The string of a text, when none of its code points is a surrogate. -/
def toString? (t : Text) : Option String :=
  (chars? t).map String.ofList

/-- The texts in order, with a separator between neighbours. -/
def intercalate (separator : Text) : List Text → Text
  | [] => []
  | [t] => t
  | t :: u :: rest => t ++ separator ++ intercalate separator (u :: rest)

/-- Text made of characters has just those characters. -/
theorem chars?_map_scalar (cs : List Char) : chars? (cs.map .scalar) = some cs := by
  induction cs with
  | nil => rfl
  | cons c cs ih => simp [chars?, ih]

/-- A string is read back from its text. -/
theorem toString?_ofString (s : String) : toString? (ofString s) = some s := by
  simp [toString?, ofString, chars?_map_scalar]

/-- Distinct strings have distinct texts. -/
theorem ofString_injective {s t : String} (h : ofString s = ofString t) : s = t := by
  have := congrArg toString? h
  simpa [toString?_ofString] using this

/-- The texts of two strings are the same exactly if the strings are. -/
theorem ofString_inj {s t : String} : ofString s = ofString t ↔ s = t :=
  ⟨ofString_injective, congrArg ofString⟩

/-- The text of a concatenation. -/
theorem ofString_append (s t : String) : ofString (s ++ t) = ofString s ++ ofString t := by
  simp [ofString]

end Text

end CommandGate
