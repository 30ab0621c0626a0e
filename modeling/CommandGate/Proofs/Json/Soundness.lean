import CommandGate.Proofs.Json.Numerals
import CommandGate.Proofs.Json.Steps
import CommandGate.Proofs.Json.Tokens

/-!
# What the Reader Accepts

What the reader takes from the front of a text as a value, as items or as members is a piece
of the grammar, whatever the budget. Where it stops at a whole number that is too long,
nothing is wrong in what comes before.

## Main results

* `Json.spells_of_readValue`: a value that is read is one of the grammar.
* `Json.meets_of_readValue`: a whole number that is too long is met before anything wrong.
-/

namespace CommandGate

namespace Json

variable {budget : Nat} {t rest : Text} {n : Nat}

/-! ### Members -/

/-- What a budget is enough to read belongs to the grammar. -/
structure Accepts (budget : Nat) : Prop where
  value {t rest : Text} {v : Json} : readValue budget t = .ok (v, rest) →
    ∃ u, t = u ++ rest ∧ Spells ShortLength (.value v) u
  items {t rest : Text} {vs : List Json} : readItems budget t = .ok (vs, rest) →
    ∃ u, t = u ++ .scalar ']' :: rest ∧ Spells ShortLength (.items vs) u
  members {t rest : Text} {before ms : List (Text × Json)} :
    readMembers budget before t = .ok (ms, rest) →
    ∃ u added, t = u ++ .scalar '\x7d' :: rest ∧ ms = collect before added ∧
      Spells ShortLength (.members added) u

/-- The name of a member, the colon, and the text that begins with its value. -/
theorem exists_memberName {m : Text × Json} (h : readMember budget t = .ok (m, rest)) :
    ∃ n b₁ b₂ inside, t = n ++ (b₁ ++ .scalar ':' :: (b₂ ++ inside)) ∧ SpellsString m.1 n ∧
      AreSpaces b₁ ∧ AreSpaces b₂ ∧ readValue budget inside = .ok (m.2, rest) := by
  rw [readMember.eq_def] at h
  split at h
  · obtain ⟨⟨name, after⟩, hname, hcolon⟩ := Except.bind_eq_ok_iff.mp h
    obtain ⟨u, htext, hu⟩ := readString_eq_ok_iff.mp hname
    obtain ⟨b₁, h₁, hafter⟩ := exists_spaces after
    rw [valueAfter.eq_def] at hcolon
    dsimp only at hcolon
    split at hcolon
    · rename_i inside hinside
      obtain ⟨⟨v, last⟩, hv, he⟩ := Except.map_eq_ok_iff.mp hcolon
      obtain ⟨rfl, rfl⟩ := Prod.mk.inj he
      obtain ⟨b₂, h₂, hvalue⟩ := exists_spaces inside
      refine ⟨u, b₁, b₂, skipSpace inside, ?_, hu, h₁, h₂, hv⟩
      rw [htext, hafter, hinside]
      conv_lhs => rw [hvalue]
    · simp at hcolon
  · simp at h

/-- A member that is read is a name, a colon and a value of the grammar. -/
theorem Accepts.member (h : Accepts budget) {m : Text × Json}
    (hm : readMember budget t = .ok (m, rest)) :
    ∃ u, t = u ++ rest ∧ Spells ShortLength (.member m) u := by
  obtain ⟨n, b₁, b₂, inside, rfl, hn, h₁, h₂, hv⟩ := exists_memberName hm
  obtain ⟨u, rfl, hu⟩ := h.value hv
  exact ⟨_, by simp, .member hn h₁ h₂ hu⟩

/-! ### Acceptance -/

/-- One step of the reader of values. -/
theorem Accepts.value_succ (h : Accepts budget) {v : Json}
    (hv : readValue (budget + 1) t = .ok (v, rest)) :
    ∃ u, t = u ++ rest ∧ Spells ShortLength (.value v) u := by
  rw [readValue.eq_def] at hv
  dsimp only at hv
  split at hv
  · -- a string
    obtain ⟨⟨s, after⟩, hs, he⟩ := Except.map_eq_ok_iff.mp hv
    obtain ⟨rfl, rfl⟩ := Prod.mk.inj he
    obtain ⟨u, htext, hu⟩ := readString_eq_ok_iff.mp hs
    exact ⟨u, htext, .string hu⟩
  · -- an object
    rename_i inside
    obtain ⟨b, hb, hinside⟩ := exists_spaces inside
    split at hv
    · rename_i after hclose
      obtain ⟨rfl, rfl⟩ := Prod.mk.inj (Except.ok.inj hv)
      rw [hclose] at hinside
      exact ⟨_, by rw [hinside]; simp, .object (.emptyObject hb)⟩
    · obtain ⟨⟨ms, after⟩, hms, he⟩ := Except.map_eq_ok_iff.mp hv
      obtain ⟨rfl, rfl⟩ := Prod.mk.inj he
      obtain ⟨u, added, htext, rfl, hu⟩ := h.members hms
      exact ⟨_, by rw [hinside, htext]; simp, .object (.fullObject hb hu)⟩
  · -- an array
    rename_i inside
    obtain ⟨b, hb, hinside⟩ := exists_spaces inside
    split at hv
    · rename_i after hclose
      obtain ⟨rfl, rfl⟩ := Prod.mk.inj (Except.ok.inj hv)
      rw [hclose] at hinside
      exact ⟨_, by rw [hinside]; simp, .emptyArray hb⟩
    · obtain ⟨⟨vs, after⟩, hvs, he⟩ := Except.map_eq_ok_iff.mp hv
      obtain ⟨rfl, rfl⟩ := Prod.mk.inj he
      obtain ⟨u, htext, hu⟩ := h.items hvs
      exact ⟨_, by rw [hinside, htext]; simp, .array hb hu⟩
  · split at hv
    · rename_i found hfound
      obtain rfl := Except.ok.inj hv
      obtain ⟨u, htext, hu⟩ := readWord?_eq_some hfound
      exact ⟨u, htext, .word hu⟩
    · obtain ⟨u, htext, hu⟩ := spellsNumber_of_readNumber hv
      exact ⟨u, htext, .number hu⟩

/-- One step of the reader of items. -/
theorem Accepts.items_succ (h : Accepts budget) {vs : List Json}
    (hvs : readItems (budget + 1) t = .ok (vs, rest)) :
    ∃ u, t = u ++ .scalar ']' :: rest ∧ Spells ShortLength (.items vs) u := by
  rw [readItems_succ] at hvs
  obtain ⟨⟨v, after⟩, hv, hnext⟩ := Except.bind_eq_ok_iff.mp hvs
  obtain ⟨u, rfl, hu⟩ := h.value hv
  obtain ⟨b₁, h₁, hafter⟩ := exists_spaces after
  rw [itemsAfter.eq_def] at hnext
  dsimp only at hnext
  split at hnext
  · rename_i hclose
    obtain ⟨rfl, rfl⟩ := Prod.mk.inj (Except.ok.inj hnext)
    rw [hclose] at hafter
    exact ⟨_, by rw [hafter]; simp, .lastItem hu h₁⟩
  · rename_i more hcomma
    obtain ⟨⟨values, last⟩, hvalues, he⟩ := Except.map_eq_ok_iff.mp hnext
    obtain ⟨rfl, rfl⟩ := Prod.mk.inj he
    obtain ⟨b₂, h₂, hmore⟩ := exists_spaces more
    obtain ⟨w, hw, hspells⟩ := h.items hvalues
    rw [hcomma, hmore, hw] at hafter
    exact ⟨_, by rw [hafter]; simp, .nextItem hu h₁ h₂ hspells⟩
  · simp at hnext

/-- One step of the reader of members, which adds them to those before. -/
theorem Accepts.members_succ (h : Accepts budget) {before ms : List (Text × Json)}
    (hms : readMembers (budget + 1) before t = .ok (ms, rest)) :
    ∃ u added, t = u ++ .scalar '\x7d' :: rest ∧ ms = collect before added ∧
      Spells ShortLength (.members added) u := by
  rw [readMembers_succ] at hms
  obtain ⟨⟨m, after⟩, hm, hnext⟩ := Except.bind_eq_ok_iff.mp hms
  obtain ⟨u, rfl, hu⟩ := h.member hm
  obtain ⟨b₁, h₁, hafter⟩ := exists_spaces after
  rw [membersAfter.eq_def] at hnext
  dsimp only at hnext
  split at hnext
  · rename_i hclose
    obtain ⟨rfl, rfl⟩ := Prod.mk.inj (Except.ok.inj hnext)
    rw [hclose] at hafter
    exact ⟨_, [m], by rw [hafter]; simp, rfl, .lastMember hu h₁⟩
  · rename_i more hcomma
    obtain ⟨b₂, h₂, hmore⟩ := exists_spaces more
    obtain ⟨w, added, hw, rfl, hspells⟩ := h.members hnext
    rw [hcomma, hmore, hw] at hafter
    exact ⟨_, m :: added, by rw [hafter]; simp, rfl, .nextMember hu h₁ h₂ hspells⟩
  · simp at hnext

/-- Whatever budget reads it, what is read belongs to the grammar. -/
theorem accepts (budget : Nat) : Accepts budget := by
  induction budget with
  | zero =>
      constructor
      · intro t rest v hv
        simp [readValue] at hv
      · intro t rest vs hvs
        simp [readItems] at hvs
      · intro t rest before ms hms
        simp [readMembers] at hms
  | succ budget ih => exact ⟨ih.value_succ, ih.items_succ, ih.members_succ⟩

/-- **A value that is read is one of the grammar.** -/
theorem spells_of_readValue {v : Json} (h : readValue budget t = .ok (v, rest)) :
    ∃ u, t = u ++ rest ∧ Spells ShortLength (.value v) u :=
  (accepts budget).value h

/-! ### Whole numbers that are too long -/

/-- Where a budget stops at a whole number that is too long, one is met before anything
wrong. -/
structure Detects (budget : Nat) : Prop where
  value {t : Text} {n : Nat} : readValue budget t = .error (.longInteger n) → Meets .value n t
  items {t : Text} {n : Nat} : readItems budget t = .error (.longInteger n) → Meets .items n t
  members {t : Text} {before : List (Text × Json)} {n : Nat} :
    readMembers budget before t = .error (.longInteger n) → Meets .members n t

/-- One step of the reader of values, up to a long number. -/
theorem Detects.value_succ (h : Detects budget)
    (hv : readValue (budget + 1) t = .error (.longInteger n)) : Meets .value n t := by
  rw [readValue.eq_def] at hv
  dsimp only at hv
  split at hv
  · exact absurd (Except.map_eq_error_iff.mp hv) (readString_ne_longInteger n)
  · rename_i inside
    obtain ⟨b, hb, hinside⟩ := exists_spaces inside
    split at hv
    · simp at hv
    · obtain ⟨u, w, htext, hu, hw⟩ := h.members (Except.map_eq_error_iff.mp hv)
      exact ⟨_, w, by rw [hinside, htext]; simp, .object hb hu, hw⟩
  · rename_i inside
    obtain ⟨b, hb, hinside⟩ := exists_spaces inside
    split at hv
    · simp at hv
    · obtain ⟨u, w, htext, hu, hw⟩ := h.items (Except.map_eq_error_iff.mp hv)
      exact ⟨_, w, by rw [hinside, htext]; simp, .array hb hu, hw⟩
  · split at hv
    · simp at hv
    · exact ⟨[], t, rfl, .here, readNumber_eq_long_iff.mp hv⟩

/-- One step of the reader of items, up to a long number. -/
theorem Detects.items_succ (h : Detects budget)
    (hvs : readItems (budget + 1) t = .error (.longInteger n)) : Meets .items n t := by
  rw [readItems_succ] at hvs
  rcases Except.bind_eq_error_iff.mp hvs with hv | ⟨⟨v, after⟩, hv, hnext⟩
  · obtain ⟨u, w, rfl, hu, hw⟩ := h.value hv
    exact ⟨u, w, rfl, .item hu, hw⟩
  · obtain ⟨u, rfl, hu⟩ := spells_of_readValue hv
    obtain ⟨b₁, h₁, hafter⟩ := exists_spaces after
    rw [itemsAfter.eq_def] at hnext
    dsimp only at hnext
    split at hnext
    · simp at hnext
    · rename_i more hcomma
      obtain ⟨b₂, h₂, hmore⟩ := exists_spaces more
      obtain ⟨w, x, hw, hreach, hx⟩ := h.items (Except.map_eq_error_iff.mp hnext)
      rw [hcomma, hmore, hw] at hafter
      exact ⟨_, x, by rw [hafter]; simp, .laterItem hu h₁ h₂ hreach, hx⟩
    · simp at hnext

/-- A member that stops at such a number has a name and a colon. -/
theorem Detects.member (h : Detects budget)
    (hm : readMember budget t = .error (.longInteger n)) : Meets .members n t := by
  rw [readMember.eq_def] at hm
  split at hm
  · rcases Except.bind_eq_error_iff.mp hm with hname | ⟨⟨name, after⟩, hname, hcolon⟩
    · exact absurd hname (readString_ne_longInteger n)
    · obtain ⟨u, htext, hu⟩ := readString_eq_ok_iff.mp hname
      obtain ⟨b₁, h₁, hafter⟩ := exists_spaces after
      rw [valueAfter.eq_def] at hcolon
      dsimp only at hcolon
      split at hcolon
      · rename_i inside hinside
        obtain ⟨b₂, h₂, hvalue⟩ := exists_spaces inside
        obtain ⟨w, x, hw, hreach, hx⟩ := h.value (Except.map_eq_error_iff.mp hcolon)
        rw [hinside, hvalue, hw] at hafter
        exact ⟨_, x, by rw [htext, hafter]; simp, .member hu h₁ h₂ hreach, hx⟩
      · simp at hcolon
  · simp at hm

/-- One step of the reader of members, up to a long number. -/
theorem Detects.members_succ (h : Detects budget) {before : List (Text × Json)}
    (hms : readMembers (budget + 1) before t = .error (.longInteger n)) : Meets .members n t := by
  rw [readMembers_succ] at hms
  rcases Except.bind_eq_error_iff.mp hms with hm | ⟨⟨m, after⟩, hm, hnext⟩
  · exact h.member hm
  · obtain ⟨u, rfl, hu⟩ := (accepts budget).member hm
    obtain ⟨b₁, h₁, hafter⟩ := exists_spaces after
    rw [membersAfter.eq_def] at hnext
    dsimp only at hnext
    split at hnext
    · simp at hnext
    · rename_i more hcomma
      obtain ⟨b₂, h₂, hmore⟩ := exists_spaces more
      obtain ⟨w, x, hw, hreach, hx⟩ := h.members hnext
      rw [hcomma, hmore, hw] at hafter
      exact ⟨_, x, by rw [hafter]; simp, .laterMember hu h₁ h₂ hreach, hx⟩
    · simp at hnext

/-- Whatever budget stops at a long number, one is met before anything wrong. -/
theorem detects (budget : Nat) : Detects budget := by
  induction budget with
  | zero =>
      constructor
      · intro t n hv
        simp [readValue] at hv
      · intro t n hvs
        simp [readItems] at hvs
      · intro t before n hms
        simp [readMembers] at hms
  | succ budget ih => exact ⟨ih.value_succ, ih.items_succ, ih.members_succ⟩

/-- **A whole number that is too long is met before anything wrong.** -/
theorem meets_of_readValue (h : readValue budget t = .error (.longInteger n)) :
    Meets .value n t :=
  (detects budget).value h

end Json

end CommandGate
