import CommandGate.Proofs.Json.Exact
import CommandGate.Proofs.Json.Tokens

/-!
# Standard Documents

The writer writes three words for numbers that no standard document can hold: `NaN`, `Infinity`
and `-Infinity`. `Json.Standard` is the grammar of RFC 8259, which has no other words than `null`,
`true` and `false`; it says nothing of what a text denotes.

That a text is no standard document is seen from what stands outside its strings
(`Json.Leaves`): in a standard document there is neither the letter `N` nor the letter `I` there.

## Main results

* `Json.Standard.passes`: what stands outside the strings of a standard document.
* `Json.tells_writeAt`: what stands outside the strings of a value's document tells whether the
  value's numbers are finite.
* `Json.standard_writeAt`: a value whose numbers are finite has a standard document.
* `Json.isStandard_write_iff`: no other value has.
-/

namespace CommandGate

namespace Json

/-! ### The grammar -/

/-- The pieces of a standard document: a value, a member, and what stands between brackets that
are not empty. -/
inductive Piece where
  | value
  | items
  | member
  | members

/-- **The grammar of standard documents.** Blanks may stand around the punctuation; those before
a closing bracket belong to what stands between the brackets. -/
inductive Standard : Piece → Text → Prop
  | null : Standard .value "null"
  | yes : Standard .value "true"
  | no : Standard .value "false"
  | number {v : Json} {t : Text} (h : SpellsNumber AnyLength v t) : Standard .value t
  | string {s t : Text} (h : SpellsString s t) : Standard .value t
  | emptyArray {b : Text} (hb : AreSpaces b) :
      Standard .value (.scalar '[' :: (b ++ [.scalar ']']))
  | array {b t : Text} (hb : AreSpaces b) (h : Standard .items t) :
      Standard .value (.scalar '[' :: (b ++ (t ++ [.scalar ']'])))
  | emptyObject {b : Text} (hb : AreSpaces b) :
      Standard .value (.scalar '\x7b' :: (b ++ [.scalar '\x7d']))
  | object {b t : Text} (hb : AreSpaces b) (h : Standard .members t) :
      Standard .value (.scalar '\x7b' :: (b ++ (t ++ [.scalar '\x7d'])))
  | member {name n b₁ b₂ t : Text} (hn : SpellsString name n) (h₁ : AreSpaces b₁)
      (h₂ : AreSpaces b₂) (h : Standard .value t) :
      Standard .member (n ++ (b₁ ++ .scalar ':' :: (b₂ ++ t)))
  | lastItem {b t : Text} (h : Standard .value t) (hb : AreSpaces b) : Standard .items (t ++ b)
  | nextItem {b₁ b₂ t u : Text} (h : Standard .value t) (h₁ : AreSpaces b₁) (h₂ : AreSpaces b₂)
      (hu : Standard .items u) : Standard .items (t ++ (b₁ ++ .scalar ',' :: (b₂ ++ u)))
  | lastMember {b t : Text} (h : Standard .member t) (hb : AreSpaces b) :
      Standard .members (t ++ b)
  | nextMember {b₁ b₂ t u : Text} (h : Standard .member t) (h₁ : AreSpaces b₁)
      (h₂ : AreSpaces b₂) (hu : Standard .members u) :
      Standard .members (t ++ (b₁ ++ .scalar ',' :: (b₂ ++ u)))

/-- **A standard document**: a standard value with blanks around it. -/
def IsStandard (t : Text) : Prop :=
  ∃ b₁ u b₂, t = b₁ ++ (u ++ b₂) ∧ AreSpaces b₁ ∧ AreSpaces b₂ ∧ Standard .value u

/-- A value is **finite** if all its double-precision numbers are, at any depth. -/
inductive IsFinite : Json → Prop
  | null : IsFinite .null
  | bool (b : Bool) : IsFinite (.bool b)
  | integer (n : Int) : IsFinite (.integer n)
  | number {x : Binary64} (hx : x.isFinite = true) : IsFinite (.number x)
  | string (t : Text) : IsFinite (.string t)
  | array {items : List Json} (h : ∀ v ∈ items, IsFinite v) : IsFinite (.array items)
  | object {members : List (Text × Json)} (h : ∀ m ∈ members, IsFinite m.2) :
      IsFinite (.object members)

/-! ### What stands outside strings -/

/-- Where a place in a text is: outside the strings, in one, or in one behind a backslash. -/
inductive Region where
  | outside
  | inside
  | escaped

/-- What stands outside the strings of a text that begins in a region. -/
def outside : Region → Text → Text
  | _, [] => []
  | .outside, c :: t => if c = .scalar '"' then outside .inside t else c :: outside .outside t
  | .inside, c :: t =>
    if c = .scalar '"' then outside .outside t
    else if c = .scalar '\\' then outside .escaped t
    else outside .inside t
  | .escaped, _ :: t => outside .inside t

/-- A text **leaves** what stands outside its strings, none of which stays open. -/
def Leaves (t left : Text) : Prop :=
  ∀ rest, outside .outside (t ++ rest) = left ++ outside .outside rest

variable {t u left left' : Text}

/-- What two texts leave stands in their order. -/
theorem Leaves.append (h : Leaves t left) (h' : Leaves u left') :
    Leaves (t ++ u) (left ++ left') := by
  intro rest
  rw [List.append_assoc, h, h', List.append_assoc]

/-- A text leaves one thing only. -/
theorem Leaves.unique (h : Leaves t left) (h' : Leaves t left') : left = left' := by
  have hboth := (h []).symm.trans (h' [])
  rwa [outside, List.append_nil, List.append_nil] at hboth

/-- A text without quotes leaves itself. -/
theorem leaves_self (h : ∀ c ∈ t, c ≠ .scalar '"') : Leaves t t := by
  intro rest
  induction t with
  | nil => rfl
  | cons c t ih =>
      obtain ⟨hc, ht⟩ := List.forall_mem_cons.mp h
      rw [List.cons_append, outside, if_neg hc, ih ht, List.cons_append]

/-- A hexadecimal digit is neither a quote nor a backslash. -/
theorem HexDigit.ne {d : Nat} {c : Char} (h : HexDigit d c) : c ≠ '"' ∧ c ≠ '\\' := by
  have hall : ∀ d < 16, (Nat.digitChar d ≠ '"' ∧ Nat.digitChar d ≠ '\\') ∧
      (Nat.digitChar d).toUpper ≠ '"' ∧ (Nat.digitChar d).toUpper ≠ '\\' := by decide
  obtain ⟨hd, rfl | rfl⟩ := h
  · exact (hall d hd).1
  · exact (hall d hd).2

/-- Inside a string the first quote that is not escaped is its end. -/
theorem outside_points {points body : Text} (h : SpellsPoints points body) (rest : Text) :
    outside .inside (body ++ .scalar '"' :: rest) = outside .outside rest := by
  have skip {c : Char} (hc : c ≠ '"' ∧ c ≠ '\\') (t : Text) :
      outside .inside (.scalar c :: t) = outside .inside t := by
    rw [outside, if_neg (by simpa using hc.1), if_neg (by simpa using hc.2)]
  have escape (c : CodePoint) (t : Text) :
      outside .inside (.scalar '\\' :: c :: t) = outside .inside t := by
    rw [outside, if_neg (by decide), if_pos rfl, outside]
  induction h with
  | nil => rw [List.nil_append, outside, if_pos rfl]
  | plain _ hquote hbackslash _ ih =>
      rw [List.cons_append, outside, if_neg hquote, if_neg hbackslash, ih]
  | letter _ _ ih => rw [List.cons_append, List.cons_append, escape, ih]
  | numbered ha hb hc hd _ ih =>
      simp only [List.cons_append]
      rw [escape, skip ha.ne, skip hb.ne, skip hc.ne, skip hd.ne, ih]

/-- Of a string nothing is left. -/
theorem leaves_string {s : Text} (h : SpellsString s t) : Leaves t [] := by
  obtain ⟨hbody, -⟩ := h
  intro rest
  rw [List.cons_append, List.append_assoc, outside, if_pos rfl]
  exact outside_points hbody rest

/-! ### Marks -/

/-- A **mark**: a letter that stands only in the words for numbers that are not finite. -/
def IsMark (c : CodePoint) : Prop :=
  c = .scalar 'N' ∨ c = .scalar 'I'

/-- A text **tells** something if it holds exactly where no marks stand outside the strings of
the text. -/
def Tells (p : Prop) (t : Text) : Prop :=
  ∃ left, Leaves t left ∧ ((∀ c ∈ left, ¬ IsMark c) ↔ p)

/-- A text **passes** if no marks stand outside its strings. -/
abbrev Passes : Text → Prop :=
  Tells True

section Tells

variable {p q : Prop}

/-- Two texts tell together what each of them tells. -/
theorem Tells.append (h : Tells p t) (h' : Tells q u) : Tells (p ∧ q) (t ++ u) := by
  obtain ⟨left, hleft, hp⟩ := h
  obtain ⟨left', hleft', hq⟩ := h'
  exact ⟨left ++ left', hleft.append hleft', by rw [List.forall_mem_append, hp, hq]⟩

/-- A text tells what is equivalent to what it tells. -/
theorem Tells.congr (h : Tells p t) (hpq : p ↔ q) : Tells q t := by
  rwa [← propext hpq]

/-- What a text tells is one thing only. -/
theorem Tells.iff (h : Tells p t) (h' : Tells q t) : p ↔ q := by
  obtain ⟨left, hleft, hp⟩ := h
  obtain ⟨left', hleft', hq⟩ := h'
  obtain rfl := hleft.unique hleft'
  exact hp.symm.trans hq

/-- Text that passes adds nothing to what the text before it tells. -/
theorem Tells.append_passes (h : Tells p t) (h' : Passes u) : Tells p (t ++ u) :=
  (h.append h').congr (and_iff_left trivial)

/-- Text that passes adds nothing to what the text after it tells. -/
theorem Tells.passes_append (h : Tells p u) (h' : Passes t) : Tells p (t ++ u) :=
  (h'.append h).congr (and_iff_right trivial)

end Tells

/-- A text without quotes and marks. -/
def IsBare (t : Text) : Prop :=
  ∀ c ∈ t, c ≠ .scalar '"' ∧ ¬ IsMark c

/-- Bare text passes: it has no strings, and no marks outside them. -/
theorem IsBare.passes (h : IsBare t) : Passes t :=
  ⟨t, leaves_self fun c hc => (h c hc).1, iff_true_intro fun c hc => (h c hc).2⟩

theorem isBare_append : IsBare (t ++ u) ↔ IsBare t ∧ IsBare u :=
  List.forall_mem_append

/-- Whether characters are bare can be computed. -/
theorem isBare_map_of_all (cs : List Char)
    (h : (cs.all fun c => c ≠ '"' && c ≠ 'N' && c ≠ 'I') = true) : IsBare (cs.map .scalar) := by
  intro c hc
  obtain ⟨d, hd, rfl⟩ := List.mem_map.mp hc
  have hne : (d ≠ '"' ∧ d ≠ 'N') ∧ d ≠ 'I' := by simpa using List.all_eq_true.mp h d hd
  simpa [IsMark] using ⟨hne.1.1, hne.1.2, hne.2⟩

/-- A character that is no quote and no mark adds nothing to what a text tells. -/
theorem Tells.cons {p : Prop} {c : Char} (hc : c ≠ '"' ∧ c ≠ 'N' ∧ c ≠ 'I') (h : Tells p t) :
    Tells p (.scalar c :: t) :=
  h.passes_append (t := [.scalar c]) (IsBare.passes (by simpa [IsBare, IsMark] using hc))

/-- A character that is no quote and no mark. -/
theorem passes_singleton {c : Char} (hc : c ≠ '"' ∧ c ≠ 'N' ∧ c ≠ 'I') :
    Passes [.scalar c] :=
  IsBare.passes (by simpa [IsBare, IsMark] using hc)

/-! ### Numbers -/

theorem isBare_digits {ds : List Char} (h : AreDigits ds) : IsBare (ds.map .scalar) := by
  refine isBare_map_of_all ds (List.all_eq_true.mpr fun d hd => ?_)
  have hne (c : Char) (hc : isAsciiDigit c = false) : d ≠ c := ne_of_isAsciiDigit (h d hd) hc
  simp [hne '"' rfl, hne 'N' rfl, hne 'I' rfl]

theorem isBare_signText (negative : Bool) : IsBare (signText negative) := by
  cases negative with
  | true => exact isBare_map_of_all ['-'] rfl
  | false => exact isBare_map_of_all [] rfl

theorem isBare_pointed {ds : List Char} (h : AreDigits ds) :
    IsBare ((pointed ds).map .scalar) := by
  rw [pointed]
  split_ifs
  · exact isBare_map_of_all [] rfl
  · exact isBare_append.mpr ⟨isBare_map_of_all ['.'] rfl, isBare_digits h⟩

theorem SpellsExponent.isBare {n : Int} {e : Text} (h : SpellsExponent n e) : IsBare e := by
  obtain ⟨he, hs, hd, -⟩ := h
  refine List.forall_mem_cons.mpr ⟨?_, isBare_append.mpr ⟨?_, isBare_digits hd⟩⟩
  · rcases he with rfl | rfl <;> simp [IsMark]
  · cases hs with
    | absent => exact isBare_map_of_all [] rfl
    | plus => exact isBare_map_of_all ['+'] rfl
    | minus => exact isBare_map_of_all ['-'] rfl

/-- There are neither quotes nor marks in a number. -/
theorem SpellsNumber.isBare {fits : Nat → Prop} {v : Json} (h : SpellsNumber fits v t) :
    IsBare t := by
  cases h with
  | whole negative hw _ =>
      exact isBare_append.mpr ⟨isBare_signText negative, isBare_digits hw.areDigits⟩
  | fraction negative hw hd _ =>
      exact isBare_append.mpr ⟨isBare_signText negative,
        isBare_append.mpr ⟨isBare_digits hw.areDigits, isBare_pointed hd⟩⟩
  | exponent negative hw hd he =>
      exact isBare_append.mpr ⟨isBare_signText negative,
        isBare_append.mpr ⟨isBare_digits hw.areDigits,
          isBare_append.mpr ⟨isBare_pointed hd, he.isBare⟩⟩⟩

/-- A whole number is written as the grammar has it, however long it is. -/
theorem spellsNumber_writeInteger (n : Int) : ∃ v, SpellsNumber AnyLength v (writeInteger n) := by
  rw [writeInteger_eq]
  exact ⟨_, .whole _ (isWhole_toDigits _) trivial⟩

/-- What is laid out as a number is one of the grammar. -/
theorem spellsNumber_of_laid (negative : Bool) {cs : List Char} (h : Laid cs) :
    ∃ v, SpellsNumber AnyLength v (signText negative ++ cs.map .scalar) := by
  cases h with
  | @positional whole fraction hw hf hne =>
      have hpointed : '.' :: fraction = pointed fraction := (if_neg hne).symm
      rw [hpointed, List.map_append]
      exact ⟨_, .fraction negative hw hf hne⟩
  | @scientific whole fraction digits sign hw hf hs hd hne =>
      have hsign : ∃ b, ExponentSign b [.scalar sign] := by
        rcases hs with rfl | rfl
        · exact ⟨_, .plus⟩
        · exact ⟨_, .minus⟩
      obtain ⟨b, hb⟩ := hsign
      rw [List.map_append, List.map_append]
      exact ⟨_, .exponent negative hw hf (.marked (.inl rfl) hb hd hne)⟩

/-- **The text of a finite value** is a number of the grammar. -/
theorem spellsNumber_text {x : Binary64} (hx : x.isFinite = true) :
    ∃ v, SpellsNumber AnyLength v (x.text .json : Text) := by
  cases x with
  | nan => simp [Binary64.isFinite] at hx
  | infinity negative => simp [Binary64.isFinite] at hx
  | finite negative m scale =>
      obtain ⟨cs, hlaid, htext⟩ := Binary64.laid_text .json negative m scale
      have hsigned : Text.ofString (Binary64.text .json (.finite negative m scale)) =
          signText negative ++ cs.map .scalar := by
        rw [Text.ofString, htext, List.map_append]
        cases negative <;> rfl
      rw [hsigned]
      exact spellsNumber_of_laid negative hlaid

/-- The text of a number tells whether it is finite. -/
theorem tells_number (x : Binary64) : Tells (x.isFinite = true) (x.text .json : Text) := by
  -- a text with a mark and without quotes
  have marked {word : Text} (hquote : ∀ c ∈ word, c ≠ .scalar '"') {c : CodePoint}
      (hm : IsMark c) (hc : c ∈ word) : Tells False word :=
    ⟨word, leaves_self hquote, iff_false_intro fun h => h c hc hm⟩
  by_cases hx : x.isFinite = true
  · obtain ⟨v, hv⟩ := spellsNumber_text hx
    exact hv.isBare.passes.congr (iff_of_true trivial hx)
  · refine Tells.congr ?_ (iff_of_false not_false hx)
    cases x with
    | finite negative m scale => exact absurd rfl hx
    | nan => exact marked (by decide) (.inl rfl) (by decide)
    | infinity negative =>
        cases negative with
        | false => exact marked (by decide) (.inr rfl) (by decide)
        | true => exact marked (by decide) (.inr rfl) (by decide)

/-! ### Standard documents hold no marks -/

theorem AreSpaces.passes (h : AreSpaces t) : Passes t := by
  refine IsBare.passes fun c hc => ?_
  rcases h c hc with rfl | rfl | rfl | rfl <;> simp [IsMark]

/-- A string passes: whatever marks it has stand inside it. -/
theorem SpellsString.passes {s : Text} (h : SpellsString s t) : Passes t :=
  ⟨[], leaves_string h, by simp⟩

/-- **Outside the strings of a standard document** there are no marks. -/
theorem Standard.passes {p : Piece} (h : Standard p t) : Passes t := by
  induction h with
  | null => exact IsBare.passes (isBare_map_of_all _ rfl)
  | yes => exact IsBare.passes (isBare_map_of_all _ rfl)
  | no => exact IsBare.passes (isBare_map_of_all _ rfl)
  | number h => exact h.isBare.passes
  | string h => exact h.passes
  | emptyArray hb =>
      exact .cons (by decide) (hb.passes.append_passes (passes_singleton (by decide)))
  | array hb _ ih =>
      refine .cons (by decide) (hb.passes.append_passes ?_)
      exact ih.append_passes (passes_singleton (by decide))
  | emptyObject hb =>
      exact .cons (by decide) (hb.passes.append_passes (passes_singleton (by decide)))
  | object hb _ ih =>
      refine .cons (by decide) (hb.passes.append_passes ?_)
      exact ih.append_passes (passes_singleton (by decide))
  | member hn h₁ h₂ _ ih =>
      exact hn.passes.append_passes (h₁.passes.append_passes
        (.cons (by decide) (h₂.passes.append_passes ih)))
  | lastItem _ hb ih => exact ih.append_passes hb.passes
  | nextItem _ h₁ h₂ _ ih ihu =>
      exact ih.append_passes (h₁.passes.append_passes
        (.cons (by decide) (h₂.passes.append_passes ihu)))
  | lastMember _ hb ih => exact ih.append_passes hb.passes
  | nextMember _ h₁ h₂ _ ih ihu =>
      exact ih.append_passes (h₁.passes.append_passes
        (.cons (by decide) (h₂.passes.append_passes ihu)))

/-- Standard documents pass, as no mark belongs to a standard value. -/
theorem IsStandard.passes (h : IsStandard t) : Passes t := by
  obtain ⟨b₁, u, b₂, rfl, h₁, h₂, hu⟩ := h
  exact h₁.passes.append_passes (hu.passes.append_passes h₂.passes)

/-! ### What is written -/

/-- A double-precision number is finite as a value if it is as a number. -/
theorem isFinite_number_iff {x : Binary64} : IsFinite (.number x) ↔ x.isFinite = true :=
  ⟨fun h => by cases h; assumption, .number⟩

/-- An array is finite if its items are. -/
theorem isFinite_array_iff {items : List Json} :
    IsFinite (.array items) ↔ ∀ v ∈ items, v.IsFinite :=
  ⟨fun h => by cases h; assumption, .array⟩

/-- An object is finite if the values of its members are. -/
theorem isFinite_object_iff {members : List (Text × Json)} :
    IsFinite (.object members) ↔ ∀ m ∈ members, m.2.IsFinite :=
  ⟨fun h => by cases h; assumption, .object⟩

mutual

/-- **The document of a value tells whether the value is finite.** -/
theorem tells_writeAt (depth : Nat) :
    ∀ v : Json, v.IsScalar → Tells v.IsFinite (writeAt .line depth v)
  | .null, _ => by
      rw [writeAt]
      exact (IsBare.passes (isBare_map_of_all _ rfl)).congr (iff_of_true trivial .null)
  | .bool true, _ => by
      rw [writeAt]
      exact (IsBare.passes (isBare_map_of_all _ rfl)).congr (iff_of_true trivial (.bool _))
  | .bool false, _ => by
      rw [writeAt]
      exact (IsBare.passes (isBare_map_of_all _ rfl)).congr (iff_of_true trivial (.bool _))
  | .integer n, _ => by
      obtain ⟨v, hv⟩ := spellsNumber_writeInteger n
      rw [writeAt]
      exact hv.isBare.passes.congr (iff_of_true trivial (.integer n))
  | .number x, _ => by
      rw [writeAt]
      exact (tells_number x).congr isFinite_number_iff.symm
  | .string t, h => by
      rw [writeAt]
      exact (spellsString_writeString h).passes.congr (iff_of_true trivial (.string t))
  | .array [], _ => by
      rw [writeAt]
      exact (IsBare.passes (isBare_map_of_all _ rfl)).congr (iff_of_true trivial (.array (by simp)))
  | .array (v :: vs), h => by
      rw [writeAt_array]
      refine .cons (by decide) (.append_passes ?_ (passes_singleton (by decide)))
      exact (tells_itemsText (depth + 1) (v :: vs) h).congr isFinite_array_iff.symm
  | .object [], _ => by
      rw [writeAt]
      exact (IsBare.passes (isBare_map_of_all _ rfl)).congr
        (iff_of_true trivial (.object (by simp)))
  | .object (m :: ms), h => by
      rw [writeAt_object]
      refine .cons (by decide) (.append_passes ?_ (passes_singleton (by decide)))
      exact (tells_membersText (depth + 1) (m :: ms) h).congr isFinite_object_iff.symm

/-- The case of items in `tells_writeAt`. -/
theorem tells_itemsText (depth : Nat) :
    ∀ vs : List Json, ItemsHold Text.IsScalar (fun _ => True) vs →
      Tells (∀ v ∈ vs, v.IsFinite) (itemsText depth vs)
  | [], _ => (IsBare.passes (isBare_map_of_all [] rfl)).congr (by simp)
  | [v], h => by
      rw [itemsText, writeItems, List.append_nil]
      exact (tells_writeAt depth v h.1).congr (by simp)
  | v :: w :: ws, h => by
      rw [itemsText, writeItems_line]
      refine ((tells_writeAt depth v h.1).append
        (.cons (by decide) (.cons (by decide) (tells_itemsText depth (w :: ws) h.2)))).congr ?_
      exact (List.forall_mem_cons (p := IsFinite)).symm

/-- The case of one member in `tells_writeAt`. -/
theorem tells_writeMember (depth : Nat) :
    ∀ m : Text × Json, MemberHolds Text.IsScalar (fun _ => True) m →
      Tells m.2.IsFinite (writeMember .line depth m)
  | (name, v), h => by
      rw [writeMember_line]
      exact .passes_append (.cons (by decide) (.cons (by decide) (tells_writeAt depth v h.2)))
        (spellsString_writeString h.1).passes

/-- The case of members in `tells_writeAt`. -/
theorem tells_membersText (depth : Nat) :
    ∀ ms : List (Text × Json), MembersHold Text.IsScalar (fun _ => True) ms →
      Tells (∀ m ∈ ms, m.2.IsFinite) (membersText depth ms)
  | [], _ => (IsBare.passes (isBare_map_of_all [] rfl)).congr (by simp)
  | [m], h => by
      rw [membersText, writeMembers, List.append_nil]
      exact (tells_writeMember depth m h.1).congr (by simp)
  | m :: k :: ks, h => by
      rw [membersText, writeMembers_line]
      refine ((tells_writeMember depth m h.1).append
        (.cons (by decide) (.cons (by decide) (tells_membersText depth (k :: ks) h.2)))).congr ?_
      exact (List.forall_mem_cons (p := fun n : Text × Json => n.2.IsFinite)).symm

end

/-- The blank after a comma or a colon. -/
theorem areSpaces_blank : AreSpaces [.scalar ' '] := by
  simp [AreSpaces]

mutual

/-- **A finite value has a standard document.** -/
theorem standard_writeAt (depth : Nat) :
    ∀ v : Json, v.IsScalar → v.IsFinite → Standard .value (writeAt .line depth v)
  | .null, _, _ => by
      rw [writeAt]
      exact .null
  | .bool true, _, _ => by
      rw [writeAt]
      exact .yes
  | .bool false, _, _ => by
      rw [writeAt]
      exact .no
  | .integer n, _, _ => by
      obtain ⟨v, hv⟩ := spellsNumber_writeInteger n
      rw [writeAt]
      exact .number hv
  | .number x, _, hf => by
      obtain ⟨v, hv⟩ := spellsNumber_text (isFinite_number_iff.mp hf)
      rw [writeAt]
      exact .number hv
  | .string t, h, _ => by
      rw [writeAt]
      exact .string (spellsString_writeString h)
  | .array [], _, _ => by
      rw [writeAt]
      exact .emptyArray areSpaces_nil
  | .array (v :: vs), h, hf => by
      rw [writeAt_array]
      exact .array areSpaces_nil
        (standard_itemsText (depth + 1) (v :: vs) (List.cons_ne_nil _ _) h
          (isFinite_array_iff.mp hf))
  | .object [], _, _ => by
      rw [writeAt]
      exact .emptyObject areSpaces_nil
  | .object (m :: ms), h, hf => by
      rw [writeAt_object]
      exact .object areSpaces_nil
        (standard_membersText (depth + 1) (m :: ms) (List.cons_ne_nil _ _) h
          (isFinite_object_iff.mp hf))

/-- The case of items in `standard_writeAt`. -/
theorem standard_itemsText (depth : Nat) :
    ∀ vs : List Json, vs ≠ [] → ItemsHold Text.IsScalar (fun _ => True) vs →
      (∀ v ∈ vs, v.IsFinite) → Standard .items (itemsText depth vs)
  | [], hne, _, _ => absurd rfl hne
  | [v], _, h, hf => by
      rw [itemsText, writeItems]
      exact .lastItem (standard_writeAt depth v h.1 (hf v List.mem_cons_self)) areSpaces_nil
  | v :: w :: ws, _, h, hf => by
      obtain ⟨hv, hws⟩ := List.forall_mem_cons.mp hf
      have hnext := Standard.nextItem (standard_writeAt depth v h.1 hv) areSpaces_nil
        areSpaces_blank (standard_itemsText depth (w :: ws) (List.cons_ne_nil _ _) h.2 hws)
      rwa [itemsText, writeItems_line]

/-- The case of one member in `standard_writeAt`. -/
theorem standard_writeMember (depth : Nat) :
    ∀ m : Text × Json, MemberHolds Text.IsScalar (fun _ => True) m → m.2.IsFinite →
      Standard .member (writeMember .line depth m)
  | (name, v), h, hf => by
      have hmember := Standard.member (spellsString_writeString h.1) areSpaces_nil areSpaces_blank
        (standard_writeAt depth v h.2 hf)
      rwa [writeMember_line]

/-- The case of members in `standard_writeAt`. -/
theorem standard_membersText (depth : Nat) :
    ∀ ms : List (Text × Json), ms ≠ [] → MembersHold Text.IsScalar (fun _ => True) ms →
      (∀ m ∈ ms, m.2.IsFinite) → Standard .members (membersText depth ms)
  | [], hne, _, _ => absurd rfl hne
  | [m], _, h, hf => by
      rw [membersText, writeMembers]
      exact .lastMember (standard_writeMember depth m h.1 (hf m List.mem_cons_self)) areSpaces_nil
  | m :: k :: ks, _, h, hf => by
      obtain ⟨hm, hks⟩ := List.forall_mem_cons.mp hf
      have hnext := Standard.nextMember (standard_writeMember depth m h.1 hm) areSpaces_nil
        areSpaces_blank (standard_membersText depth (k :: ks) (List.cons_ne_nil _ _) h.2 hks)
      rwa [membersText, writeMembers_line]

end

mutual

/-- Surrogates in the texts of a value are surrogates in its document. -/
theorem isScalar_of_writeAt (depth : Nat) :
    ∀ v : Json, (writeAt .line depth v).IsScalar → v.IsScalar
  | .null, _ => trivial
  | .bool _, _ => trivial
  | .integer _, _ => trivial
  | .number _, _ => trivial
  | .string t, h => by
      rw [writeAt] at h
      exact isScalar_of_writeString h
  | .array [], _ => trivial
  | .array (v :: vs), h => by
      simp only [writeAt, Text.isScalar_append] at h
      obtain ⟨⟨⟨⟨-, hv⟩, hvs⟩, -⟩, -⟩ := h
      exact ⟨isScalar_of_writeAt (depth + 1) v hv, isScalar_of_writeItems (depth + 1) vs hvs⟩
  | .object [], _ => trivial
  | .object (m :: ms), h => by
      simp only [writeAt, Text.isScalar_append] at h
      obtain ⟨⟨⟨⟨-, hm⟩, hms⟩, -⟩, -⟩ := h
      exact ⟨isScalar_of_writeMember (depth + 1) m hm, isScalar_of_writeMembers (depth + 1) ms hms⟩

/-- The case of items in `isScalar_of_writeAt`. -/
theorem isScalar_of_writeItems (depth : Nat) :
    ∀ vs : List Json, (writeItems .line depth vs).IsScalar →
      ItemsHold Text.IsScalar (fun _ => True) vs
  | [], _ => trivial
  | v :: vs, h => by
      simp only [writeItems, Text.isScalar_append] at h
      exact ⟨isScalar_of_writeAt depth v h.1.2, isScalar_of_writeItems depth vs h.2⟩

/-- The case of one member in `isScalar_of_writeAt`. -/
theorem isScalar_of_writeMember (depth : Nat) :
    ∀ m : Text × Json, (writeMember .line depth m).IsScalar →
      MemberHolds Text.IsScalar (fun _ => True) m
  | (_, v), h => by
      simp only [writeMember, Text.isScalar_append] at h
      exact ⟨isScalar_of_writeString h.1.1, isScalar_of_writeAt depth v h.2⟩

/-- The case of members in `isScalar_of_writeAt`. -/
theorem isScalar_of_writeMembers (depth : Nat) :
    ∀ ms : List (Text × Json), (writeMembers .line depth ms).IsScalar →
      MembersHold Text.IsScalar (fun _ => True) ms
  | [], _ => trivial
  | m :: ms, h => by
      simp only [writeMembers, Text.isScalar_append] at h
      exact ⟨isScalar_of_writeMember depth m h.1.2, isScalar_of_writeMembers depth ms h.2⟩

end

/-- **A value has a standard document exactly if it is finite**, the document holding no
surrogates. -/
theorem isStandard_write_iff {v : Json} (hs : (write .line v).IsScalar) :
    IsStandard (write .line v) ↔ v.IsFinite := by
  have h : v.IsScalar := isScalar_of_writeAt 0 v hs
  constructor
  · intro hstandard
    exact (hstandard.passes.iff (tells_writeAt 0 v h)).mp trivial
  · intro hf
    exact ⟨[], _, [], (List.append_nil _).symm, areSpaces_nil, areSpaces_nil,
      standard_writeAt 0 v h hf⟩

end Json

end CommandGate
