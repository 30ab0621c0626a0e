import CommandGate.Proofs.Json.Contents
import CommandGate.Proofs.Json.Numbers

/-!
# What Is Read

A value is readable (`Json.IsReadable`) if none of its whole numbers has too many digits to
be read. Every value that is read is readable, and so are the members of an object that was
read, taken one by one.

## Main results

* `Json.isReadable_of_parse`: what a document denotes is readable.
-/

namespace CommandGate

/-! ### Values of computations -/

/-- A mapped result is a value exactly if the result was one. -/
theorem Except.map_eq_ok_iff {ε α β : Type} {f : α → β} {x : Except ε α} {b : β} :
    x.map f = .ok b ↔ ∃ a, x = .ok a ∧ f a = b := by
  cases x <;> simp [Except.map]

/-- Two steps give a value exactly if both do. -/
theorem Except.bind_eq_ok_iff {ε α β : Type} {f : α → Except ε β} {x : Except ε α} {b : β} :
    (x >>= f) = .ok b ↔ ∃ a, x = .ok a ∧ f a = .ok b := by
  cases x <;> simp [Bind.bind, Except.bind]

/-- A mapped result has the faults of the result. -/
theorem Except.map_eq_error_iff {ε α β : Type} {f : α → β} {x : Except ε α} {e : ε} :
    x.map f = .error e ↔ x = .error e := by
  cases x <;> simp [Except.map]

/-- Two steps fail in the first one, or in the second one after a value. -/
theorem Except.bind_eq_error_iff {ε α β : Type} {f : α → Except ε β} {x : Except ε α} {e : ε} :
    (x >>= f) = .error e ↔ x = .error e ∨ ∃ a, x = .ok a ∧ f a = .error e := by
  cases x <;> simp [Bind.bind, Except.bind]

namespace Json

/-- A value that can be read back: its whole numbers are short. -/
abbrev IsReadable (v : Json) : Prop :=
  v.Holds (fun _ => True) IsShort

/-- Members that can be read back. -/
abbrev AreReadable (members : List (Text × Json)) : Prop :=
  MembersHold (fun _ => True) IsShort members

theorem areReadable_nil : AreReadable [] :=
  trivial

/-- Readable members with a readable one inserted are readable. -/
theorem AreReadable.insert {members : List (Text × Json)} (h : AreReadable members) (name : Text)
    {v : Json} (hv : v.IsReadable) : AreReadable (insert name v members) := by
  induction members with
  | nil => exact ⟨⟨trivial, hv⟩, trivial⟩
  | cons m rest ih =>
      obtain ⟨hm, hrest⟩ := h
      rw [Json.insert]
      split
      · exact ⟨⟨trivial, hv⟩, hrest⟩
      · exact ⟨hm, ih hrest⟩

/-- What is found among readable members is readable. -/
theorem AreReadable.member? {name : Text} {v : Json} :
    ∀ {members : List (Text × Json)}, AreReadable members → member? name members = some v →
      v.IsReadable
  | (n, value) :: rest, h, hv => by
      rw [Json.member?] at hv
      split at hv
      · obtain rfl := Option.some.inj hv
        exact h.1.2
      · exact AreReadable.member? h.2 hv

/-! ### One step of the reader -/

/-- What a budget is enough to read is readable. -/
structure ReadsReadable (budget : Nat) : Prop where
  value {t rest : Text} {v : Json} : readValue budget t = .ok (v, rest) → v.IsReadable
  items {t rest : Text} {vs : List Json} : readItems budget t = .ok (vs, rest) →
    ItemsHold (fun _ => True) IsShort vs
  members {t rest : Text} {before ms : List (Text × Json)} : AreReadable before →
    readMembers budget before t = .ok (ms, rest) → AreReadable ms

variable {budget : Nat} {t rest : Text}

/-- The words that are values are readable. -/
theorem isReadable_of_readWord? {v : Json} (h : readWord? t = some (v, rest)) : v.IsReadable := by
  have hall : ∀ w ∈ words, w.2.IsReadable := by simp [words, IsReadable, Holds]
  obtain ⟨⟨word, value⟩, hword, hfound⟩ := List.exists_of_findSome?_eq_some h
  dsimp only at hfound
  split at hfound
  · obtain ⟨rfl, -⟩ := Prod.mk.inj (Option.some.inj hfound)
    exact hall _ hword
  · simp at hfound

/-- Whole numbers are read only if they are short, so that they can be read back. -/
theorem isReadable_of_readNumber {v : Json} (h : readNumber t = .ok (v, rest)) :
    v.IsReadable := by
  rcases readNumber_cases h with ⟨n, rfl, hn⟩ | ⟨x, rfl⟩
  · exact hn
  · trivial

/-- One step of the reader of values. -/
theorem ReadsReadable.value_succ (h : ReadsReadable budget) {v : Json}
    (hv : readValue (budget + 1) t = .ok (v, rest)) : v.IsReadable := by
  rw [readValue.eq_def] at hv
  dsimp only at hv
  split at hv
  · -- a string
    obtain ⟨⟨s, after⟩, -, he⟩ := Except.map_eq_ok_iff.mp hv
    obtain ⟨rfl, -⟩ := Prod.mk.inj he
    trivial
  · -- an object
    split at hv
    · obtain ⟨rfl, -⟩ := Prod.mk.inj (Except.ok.inj hv)
      trivial
    · obtain ⟨⟨ms, after⟩, hms, he⟩ := Except.map_eq_ok_iff.mp hv
      obtain ⟨rfl, -⟩ := Prod.mk.inj he
      exact h.members areReadable_nil hms
  · -- an array
    split at hv
    · obtain ⟨rfl, -⟩ := Prod.mk.inj (Except.ok.inj hv)
      trivial
    · obtain ⟨⟨vs, after⟩, hvs, he⟩ := Except.map_eq_ok_iff.mp hv
      obtain ⟨rfl, -⟩ := Prod.mk.inj he
      exact h.items hvs
  · split at hv
    · rename_i found hfound
      obtain rfl := Except.ok.inj hv
      exact isReadable_of_readWord? hfound
    · exact isReadable_of_readNumber hv

/-- One step of the reader of items. -/
theorem ReadsReadable.items_succ (h : ReadsReadable budget) {vs : List Json}
    (hvs : readItems (budget + 1) t = .ok (vs, rest)) :
    ItemsHold (fun _ => True) IsShort vs := by
  rw [readItems] at hvs
  obtain ⟨⟨v, after⟩, hv, hnext⟩ := Except.bind_eq_ok_iff.mp hvs
  have hread : v.IsReadable := h.value hv
  dsimp only at hnext
  split at hnext
  · obtain ⟨rfl, -⟩ := Prod.mk.inj (Except.ok.inj hnext)
    exact ⟨hread, trivial⟩
  · obtain ⟨⟨more, after⟩, hmore, he⟩ := Except.bind_eq_ok_iff.mp hnext
    obtain ⟨rfl, -⟩ := Prod.mk.inj (Except.ok.inj he)
    exact ⟨hread, h.items hmore⟩
  · simp at hnext

/-- One step of the reader of members. -/
theorem ReadsReadable.members_succ (h : ReadsReadable budget) {before ms : List (Text × Json)}
    (hb : AreReadable before) (hms : readMembers (budget + 1) before t = .ok (ms, rest)) :
    AreReadable ms := by
  rw [readMembers.eq_def] at hms
  dsimp only at hms
  split at hms
  · obtain ⟨⟨name, after⟩, -, hcolon⟩ := Except.bind_eq_ok_iff.mp hms
    dsimp only at hcolon
    split at hcolon
    · obtain ⟨⟨v, after⟩, hv, hnext⟩ := Except.bind_eq_ok_iff.mp hcolon
      have hmembers : AreReadable (insert name v before) := hb.insert name (h.value hv)
      dsimp only at hnext
      split at hnext
      · obtain ⟨rfl, -⟩ := Prod.mk.inj (Except.ok.inj hnext)
        exact hmembers
      · exact h.members hmembers hnext
      · simp at hnext
    · simp at hcolon
  · simp at hms

/-- Whatever the budget, what is read is readable. -/
theorem readsReadable (budget : Nat) : ReadsReadable budget := by
  induction budget with
  | zero =>
      constructor
      · intro t rest v hv
        simp [readValue] at hv
      · intro t rest vs hvs
        simp [readItems] at hvs
      · intro t rest before ms _ hms
        simp [readMembers] at hms
  | succ budget ih => exact ⟨ih.value_succ, ih.items_succ, ih.members_succ⟩

/-- **What a document denotes is readable.** -/
theorem isReadable_of_parse {v : Json} (h : parse t = .ok v) : v.IsReadable := by
  rw [parse] at h
  split at h
  · rename_i value hdocument
    obtain rfl := Except.ok.inj h
    rw [readDocument] at hdocument
    split at hdocument
    · simp at hdocument
    · obtain ⟨⟨value, after⟩, hvalue, he⟩ := Except.bind_eq_ok_iff.mp hdocument
      dsimp only at he
      split at he
      · obtain rfl := Except.ok.inj he
        exact (readsReadable _).value hvalue
      · simp at he
  · simp at h
  · simp at h

end Json

end CommandGate
