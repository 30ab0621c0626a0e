import CommandGate.Proofs.Json.Completeness

/-!
# Documents with Long Numbers

A document of the plain grammar, with whole numbers of any length, is read unless one of its
whole numbers is too long; then reading it comes upon the first such number. So the grammar
for short numbers leaves out just the documents in which a whole number is too long.

## Main results

* `Json.document_short_iff`: the documents whose whole numbers are all short.
-/

namespace CommandGate

namespace Json

variable {t u : Text} {p : Phrase} {n : Nat}

/-- Where a piece of a document stands. -/
@[simp] def Phrase.place : Phrase → Place
  | .value _ => .value
  | .object _ => .value
  | .member _ => .members
  | .items _ => .items
  | .members _ => .members

/-- More lengths make more pieces. -/
theorem Spells.mono {fits fits' : Nat → Prop} (hf : ∀ n, fits n → fits' n)
    (h : Spells fits p u) : Spells fits' p u := by
  induction h with
  | word h => exact .word h
  | number h =>
      cases h with
      | whole negative hw hlen => exact .number (.whole negative hw (hf _ hlen))
      | fraction negative hw hd hne => exact .number (.fraction negative hw hd hne)
      | exponent negative hw hd he => exact .number (.exponent negative hw hd he)
  | string h => exact .string h
  | emptyArray hb => exact .emptyArray hb
  | array hb _ ih => exact .array hb ih
  | emptyObject hb => exact .emptyObject hb
  | fullObject hb _ ih => exact .fullObject hb ih
  | object _ ih => exact .object ih
  | member hn h₁ h₂ _ ih => exact .member hn h₁ h₂ ih
  | lastItem _ hb ih => exact .lastItem ih hb
  | nextItem _ h₁ h₂ _ ih ihu => exact .nextItem ih h₁ h₂ ihu
  | lastMember _ hb ih => exact .lastMember ih hb
  | nextMember _ h₁ h₂ _ ih ihu => exact .nextMember ih h₁ h₂ ihu

/-! ### Meeting a number inside -/

/-- A long number among the items is met in the array. -/
theorem Meets.array {b : Text} (hb : AreSpaces b) (h : Meets .items n t) :
    Meets .value n (.scalar '[' :: (b ++ t)) := by
  obtain ⟨before, after, rfl, hreach, hlong⟩ := h
  exact ⟨_, after, by simp, .array hb hreach, hlong⟩

/-- A long number among the members is met in the object. -/
theorem Meets.object {b : Text} (hb : AreSpaces b) (h : Meets .members n t) :
    Meets .value n (.scalar '\x7b' :: (b ++ t)) := by
  obtain ⟨before, after, rfl, hreach, hlong⟩ := h
  exact ⟨_, after, by simp, .object hb hreach, hlong⟩

/-- A long number in the first item is met among the items. -/
theorem Meets.item (h : Meets .value n t) : Meets .items n t := by
  obtain ⟨before, after, rfl, hreach, hlong⟩ := h
  exact ⟨_, after, rfl, .item hreach, hlong⟩

/-- A long number in a later item is met after those before it were read. -/
theorem Meets.laterItem {b₁ b₂ : Text} {v : Json} (hu : Spells ShortLength (.value v) u)
    (h₁ : AreSpaces b₁) (h₂ : AreSpaces b₂) (h : Meets .items n t) :
    Meets .items n (u ++ (b₁ ++ .scalar ',' :: (b₂ ++ t))) := by
  obtain ⟨before, after, rfl, hreach, hlong⟩ := h
  exact ⟨_, after, by simp, .laterItem hu h₁ h₂ hreach, hlong⟩

/-- A long number in the value of the first member is met among the members. -/
theorem Meets.member {name m b₁ b₂ : Text} (hn : SpellsString name m) (h₁ : AreSpaces b₁)
    (h₂ : AreSpaces b₂) (h : Meets .value n t) :
    Meets .members n (m ++ (b₁ ++ .scalar ':' :: (b₂ ++ t))) := by
  obtain ⟨before, after, rfl, hreach, hlong⟩ := h
  exact ⟨_, after, by simp, .member hn h₁ h₂ hreach, hlong⟩

/-- A long number in a later member is met after those before it were read. -/
theorem Meets.laterMember {b₁ b₂ : Text} {m : Text × Json} (hu : Spells ShortLength (.member m) u)
    (h₁ : AreSpaces b₁) (h₂ : AreSpaces b₂) (h : Meets .members n t) :
    Meets .members n (u ++ (b₁ ++ .scalar ',' :: (b₂ ++ t))) := by
  obtain ⟨before, after, rfl, hreach, hlong⟩ := h
  exact ⟨_, after, by simp, .laterMember hu h₁ h₂ hreach, hlong⟩

/-! ### Documents -/

/-- A piece with whole numbers of any length has short ones only, or reading it comes upon one
that is too long, whatever follows that does not go on with a number. -/
theorem Spells.short_or_meets (h : Spells AnyLength p u) :
    Spells ShortLength p u ∨ ∀ rest, ¬ GoesOn rest → ∃ n, Meets p.place n (u ++ rest) := by
  induction h with
  | word h => exact .inl (.word h)
  | number h =>
      cases h with
      | @whole negative whole hw =>
          by_cases hlong : maxIntegerDigits < whole.length
          · refine .inr fun rest hr => ⟨whole.length, [], _, rfl, .here, ?_⟩
            exact ⟨negative, whole, rest, by simp, hw, rfl, hlong, hr⟩
          · exact .inl (.number (.whole negative hw (Nat.not_lt.mp hlong)))
      | fraction negative hw hd hne => exact .inl (.number (.fraction negative hw hd hne))
      | exponent negative hw hd he => exact .inl (.number (.exponent negative hw hd he))
  | string h => exact .inl (.string h)
  | emptyArray hb => exact .inl (.emptyArray hb)
  | array hb _ ih =>
      rcases ih with h | hmeets
      · exact .inl (.array hb h)
      · refine .inr fun rest _ => ?_
        obtain ⟨n, hn⟩ := hmeets _ (not_goesOn_closing (.inr (.inl rfl)) rest)
        exact ⟨n, by simpa using hn.array hb⟩
  | emptyObject hb => exact .inl (.emptyObject hb)
  | fullObject hb _ ih =>
      rcases ih with h | hmeets
      · exact .inl (.fullObject hb h)
      · refine .inr fun rest _ => ?_
        obtain ⟨n, hn⟩ := hmeets _ (not_goesOn_closing (.inr (.inr rfl)) rest)
        exact ⟨n, by simpa using hn.object hb⟩
  | object _ ih => exact ih.imp .object id
  | member hn h₁ h₂ _ ih =>
      rcases ih with h | hmeets
      · exact .inl (.member hn h₁ h₂ h)
      · refine .inr fun rest hr => ?_
        obtain ⟨n, hmeet⟩ := hmeets rest hr
        exact ⟨n, by simpa using hmeet.member hn h₁ h₂⟩
  | lastItem _ hb ih =>
      rcases ih with h | hmeets
      · exact .inl (.lastItem h hb)
      · refine .inr fun rest hr => ?_
        obtain ⟨n, hn⟩ := hmeets _ (not_goesOn_append hb hr)
        exact ⟨n, by simpa using hn.item⟩
  | nextItem _ h₁ h₂ _ ih ihu =>
      rcases ih with h | hmeets
      · rcases ihu with hu | hmeets
        · exact .inl (.nextItem h h₁ h₂ hu)
        · refine .inr fun rest hr => ?_
          obtain ⟨n, hn⟩ := hmeets rest hr
          exact ⟨n, by simpa using hn.laterItem h h₁ h₂⟩
      · refine .inr fun rest _ => ?_
        obtain ⟨n, hn⟩ := hmeets _ (not_goesOn_append h₁ (not_goesOn_closing (.inl rfl) _))
        exact ⟨n, by simpa using hn.item⟩
  | lastMember _ hb ih =>
      rcases ih with h | hmeets
      · exact .inl (.lastMember h hb)
      · refine .inr fun rest hr => ?_
        obtain ⟨n, hn⟩ := hmeets _ (not_goesOn_append hb hr)
        exact ⟨n, by simpa using hn⟩
  | nextMember _ h₁ h₂ _ ih ihu =>
      rcases ih with h | hmeets
      · rcases ihu with hu | hmeets
        · exact .inl (.nextMember h h₁ h₂ hu)
        · refine .inr fun rest hr => ?_
          obtain ⟨n, hn⟩ := hmeets rest hr
          exact ⟨n, by simpa using hn.laterMember h h₁ h₂⟩
      · refine .inr fun rest _ => ?_
        obtain ⟨n, hn⟩ := hmeets _ (not_goesOn_append h₁ (not_goesOn_closing (.inl rfl) _))
        exact ⟨n, by simpa using hn⟩

/-- A document does not meet a whole number that is too long. -/
theorem Document.not_meetsLong (hp : p.place = .value) (h : Document ShortLength p t) (n : Nat) :
    ¬ MeetsLong n t := by
  obtain ⟨b₁, u, b₂, rfl, h₁, h₂, hu⟩ := h
  obtain ⟨v, hv⟩ : ∃ v, Spells ShortLength (.value v) u := by
    cases p with
    | value v => exact ⟨v, hu⟩
    | object ms => exact ⟨_, .object hu⟩
    | member m => simp at hp
    | items vs => simp at hp
    | members ms => simp at hp
  intro hlong
  have hread := parse_eq_ok_iff.mpr ⟨b₁, u, b₂, rfl, h₁, h₂, hv⟩
  rw [parse_eq_long_iff.mpr hlong] at hread
  simp at hread

/-- **The documents whose whole numbers are all short** are those of the plain grammar that are
read without coming upon a whole number that is too long. -/
theorem document_short_iff (hp : p.place = .value) :
    Document ShortLength p t ↔ Document AnyLength p t ∧ ∀ n, ¬ MeetsLong n t := by
  constructor
  · intro h
    refine ⟨?_, h.not_meetsLong hp⟩
    obtain ⟨b₁, u, b₂, ht, h₁, h₂, hu⟩ := h
    exact ⟨b₁, u, b₂, ht, h₁, h₂, hu.mono fun _ _ => trivial⟩
  · rintro ⟨⟨b₁, u, b₂, rfl, h₁, h₂, hu⟩, hshort⟩
    rcases hu.short_or_meets with hu | hmeets
    · exact ⟨b₁, u, b₂, rfl, h₁, h₂, hu⟩
    · have hend : ¬ GoesOn b₂ := by simpa using not_goesOn_append h₂ not_goesOn_nil
      obtain ⟨n, hn⟩ := hmeets b₂ hend
      rw [hp] at hn
      exact absurd ⟨b₁, _, rfl, h₁, hn⟩ (hshort n)

end Json

end CommandGate
