import CommandGate.Proofs.Json.RoundTrip
import CommandGate.Proofs.Json.Soundness

/-!
# What the Reader Must Accept

Every piece of the grammar is read to its end, and a whole number that is too long stops the
reading where nothing before it is wrong. Each needs a budget of twice the length of the text
that is read, which is what a whole document is given. So a text is read exactly if it is a
document, and stops at such a number exactly if it meets one.

## Main results

* `Json.parse_eq_ok_iff`: the texts that denote a value are the documents.
* `Json.parse_eq_long_iff`: the texts that fail with a whole number that is too long.
-/

namespace CommandGate

namespace Json

variable {budget n : Nat} {t u rest b inside : Text}

/-! ### How pieces begin -/

theorem Word.opens {v : Json} (h : Word v t) : Opens t := by
  cases h <;> exact ⟨_, _, rfl, rfl, by decide⟩

/-- A whole number begins as documents do, with its sign or its first digit. -/
theorem opens_whole (negative : Bool) {whole : List Char} (hw : IsWhole whole) (rest : Text) :
    Opens (signText negative ++ (whole.map .scalar ++ rest)) := by
  obtain ⟨d, ds, rfl, hd⟩ := hw.exists_cons
  exact opens_of_digit negative hd

theorem SpellsNumber.opens {fits : Nat → Prop} {v : Json} (h : SpellsNumber fits v t) :
    Opens t := by
  cases h with
  | whole negative hw => simpa using opens_whole negative hw []
  | fraction negative hw => exact opens_whole negative hw _
  | exponent negative hw => exact opens_whole negative hw _

theorem SpellsString.opens {s : Text} (h : SpellsString s t) : Opens t := by
  cases h
  exact ⟨'"', _, rfl, rfl, by decide⟩

/-- A piece begins with something else than a blank, a closing bracket or a byte order mark. -/
theorem Spells.opens {fits : Nat → Prop} {p : Phrase} (h : Spells fits p t) : Opens t := by
  induction h with
  | word h => exact h.opens
  | number h => exact h.opens
  | string h => exact h.opens
  | emptyArray => exact ⟨'[', _, rfl, rfl, by decide⟩
  | array => exact ⟨'[', _, rfl, rfl, by decide⟩
  | emptyObject => exact ⟨'\x7b', _, rfl, rfl, by decide⟩
  | fullObject => exact ⟨'\x7b', _, rfl, rfl, by decide⟩
  | object _ ih => exact ih
  | member hn => exact hn.opens.append _
  | lastItem _ _ ih => exact ih.append _
  | nextItem _ _ _ _ ih => exact ih.append _
  | lastMember _ _ ih => exact ih.append _
  | nextMember _ _ _ _ ih => exact ih.append _

/-- A whole number that is too long begins as other numbers do. -/
theorem StartsLong.opens (h : StartsLong n t) : Opens t := by
  obtain ⟨negative, whole, more, rfl, hw, -⟩ := h
  exact opens_whole negative hw more

/-- A reader that reached something began with what documents begin with. -/
theorem Reaches.opens {place : Place} (h : Reaches place u) (ht : Opens t) : Opens (u ++ t) := by
  induction h with
  | here => exact ht
  | array => exact ⟨'[', _, rfl, rfl, by decide⟩
  | object => exact ⟨'\x7b', _, rfl, rfl, by decide⟩
  | item _ ih => exact ih
  | laterItem h => exact (h.opens.append _).append _
  | member hn => exact (hn.opens.append _).append _
  | laterMember h => exact (h.opens.append _).append _

/-- A text that begins at all is not empty. -/
theorem Opens.length_pos (h : Opens t) : 0 < t.length := by
  obtain ⟨c, more, rfl, -⟩ := h
  exact Nat.succ_pos _

/-- A text that begins as documents do begins with no blank. -/
theorem Opens.noSpace (h : Opens t) : NoSpace t := by
  obtain ⟨c, more, rfl, hc, -⟩ := h
  exact noSpace_cons hc

/-! ### What follows a value -/

/-- Blanks before a text do not let a number go on with it. -/
theorem not_goesOn_append (hb : AreSpaces b) (ht : ¬ GoesOn t) : ¬ GoesOn (b ++ t) := by
  cases b with
  | nil => exact ht
  | cons s b =>
      refine not_goesOn_of_head fun c more he => ?_
      have hs := hb s (by simp)
      rw [(List.cons.inj he).1] at hs
      simp only [CodePoint.scalar.injEq] at hs
      rcases hs with rfl | rfl | rfl | rfl <;> decide

theorem not_goesOn_nil : ¬ GoesOn [] :=
  not_goesOn_of_head (by simp)

/-- Commas and closing brackets do not go on with a number. -/
theorem not_goesOn_closing {c : Char} (h : c = ',' ∨ c = ']' ∨ c = '\x7d') (rest : Text) :
    ¬ GoesOn (.scalar c :: rest) := by
  refine not_goesOn_of_head fun d more he => ?_
  obtain rfl : c = d := by simpa using (List.cons.inj he).1
  rcases h with rfl | rfl | rfl <;> decide

/-! ### Steps of the reader -/

/-- A text that begins as documents do begins with no closing bracket or brace. -/
theorem Opens.head?_ne (h : Opens t) :
    t.head? ≠ some (.scalar ']') ∧ t.head? ≠ some (.scalar '\x7d') := by
  obtain ⟨c, more, rfl, -, hbracket, hbrace, -⟩ := h
  exact ⟨by simpa using hbracket, by simpa using hbrace⟩

/-- The blanks before a mark are skipped, and the mark stays. -/
theorem skipSpace_mark {c : Char} (hb : AreSpaces b) (hc : isSpace (.scalar c) = false) :
    skipSpace (b ++ .scalar c :: rest) = .scalar c :: rest :=
  skipSpace_append hb (noSpace_cons hc)

/-- The blanks before a value are skipped, and the value stays. -/
theorem Opens.skipSpace_append (ho : Opens inside) (hb : AreSpaces b) :
    Json.skipSpace (b ++ inside) = inside :=
  Json.skipSpace_append hb ho.noSpace

/-- A bracket with blanks and items after it is read as its items are. -/
theorem readValue_bracket (hb : AreSpaces b) (ho : Opens inside) :
    readValue (budget + 1) (.scalar '[' :: (b ++ inside)) =
      (readItems budget inside).map fun r => (.array r.1, r.2) := by
  have hskip := ho.skipSpace_append hb
  rw [readValue_openBracket (by rw [hskip]; exact ho.head?_ne.1), hskip]

/-- A brace with blanks and members after it is read as its members are. -/
theorem readValue_brace (hb : AreSpaces b) (ho : Opens inside) :
    readValue (budget + 1) (.scalar '\x7b' :: (b ++ inside)) =
      (readMembers budget [] inside).map fun r => (.object r.1, r.2) := by
  have hskip := ho.skipSpace_append hb
  rw [readValue_openBrace (by rw [hskip]; exact ho.head?_ne.2), hskip]

/-- What begins with a whole number is read as a number. -/
theorem readValue_whole (negative : Bool) {whole : List Char} (hw : IsWhole whole) (rest : Text) :
    readValue (budget + 1) (signText negative ++ (whole.map .scalar ++ rest)) =
      readNumber (signText negative ++ (whole.map .scalar ++ rest)) := by
  obtain ⟨d, ds, rfl, hd⟩ := hw.exists_cons
  exact readValue_of_digit negative hd

/-- A spelled number is read back as long as the text does not go on with it. -/
theorem readValue_spellsNumber {v : Json} (h : SpellsNumber ShortLength v u)
    (hr : ¬ GoesOn rest) : readValue (budget + 1) (u ++ rest) = .ok (v, rest) := by
  rw [← readNumber_append h hr]
  cases h with
  | whole negative hw =>
      rw [List.append_assoc]
      exact readValue_whole negative hw _
  | fraction negative hw =>
      rw [List.append_assoc, List.append_assoc]
      exact readValue_whole negative hw _
  | exponent negative hw =>
      rw [List.append_assoc, List.append_assoc]
      exact readValue_whole negative hw _

/-- A spelled string is read back whatever follows it. -/
theorem readValue_spellsString {s : Text} (h : SpellsString s u) :
    readValue (budget + 1) (u ++ rest) = .ok (.string s, rest) := by
  have hstring := h
  obtain ⟨hbody, -⟩ := h
  rw [List.cons_append, readValue,
    readString_eq_ok_iff.mpr ⟨_, List.cons_append.symm, hstring⟩]
  rfl

/-- The name of a member and the colon are read. -/
theorem readMember_eq {name m b₁ b₂ : Text} (hn : SpellsString name m) (h₁ : AreSpaces b₁)
    (h₂ : AreSpaces b₂) (ho : Opens inside) :
    readMember budget (m ++ (b₁ ++ .scalar ':' :: (b₂ ++ inside))) =
      (readValue budget inside).map fun r => ((name, r.1), r.2) := by
  have hstring := hn
  obtain ⟨hbody, -⟩ := hn
  rw [List.cons_append, readMember,
    readString_eq_ok_iff.mpr ⟨_, List.cons_append.symm, hstring⟩]
  change valueAfter budget name _ = _
  rw [valueAfter_colon (skipSpace_mark h₁ rfl), ho.skipSpace_append h₂]

/-! ### Acceptance -/

/-- That a piece is read to its end. The budgets are what brackets and the lists between them
leave for each other. -/
def IsRead : Phrase → Text → Prop
  | .value v, u => ∀ budget rest, 2 * u.length ≤ budget + 1 → ¬ GoesOn rest →
      readValue budget (u ++ rest) = .ok (v, rest)
  | .object ms, u => ∀ budget rest, 2 * u.length ≤ budget + 1 →
      readValue budget (u ++ rest) = .ok (.object (collect [] ms), rest)
  | .member m, u => ∀ budget rest, 2 * u.length ≤ budget + 1 → ¬ GoesOn rest →
      readMember budget (u ++ rest) = .ok (m, rest)
  | .items vs, u => ∀ budget rest, 2 * u.length ≤ budget →
      readItems budget (u ++ .scalar ']' :: rest) = .ok (vs, rest)
  | .members ms, u => ∀ budget before rest, 2 * u.length ≤ budget →
      readMembers budget before (u ++ .scalar '\x7d' :: rest) = .ok (collect before ms, rest)

/-- A budget for a text that is not empty is not used up. -/
theorem Opens.exists_budget (ho : Opens u) (hb : 2 * u.length ≤ budget + 1) :
    ∃ k, budget = k + 1 := by
  have := ho.length_pos
  exact ⟨budget - 1, by omega⟩

section Next

variable {b₁ b₂ : Text} {v : Json} {m : Text × Json}

/-- After an item and a comma the other items are read. -/
theorem IsRead.items_next (h : IsRead (.value v) u) (h₁ : AreSpaces b₁) (h₂ : AreSpaces b₂)
    (ho : Opens inside) (hb : 2 * u.length ≤ budget + 1) :
    readItems (budget + 1) (u ++ (b₁ ++ .scalar ',' :: (b₂ ++ inside))) =
      (readItems budget inside).map fun r => (v :: r.1, r.2) := by
  have hend : ¬ GoesOn (b₁ ++ .scalar ',' :: (b₂ ++ inside)) :=
    not_goesOn_append h₁ (not_goesOn_closing (by decide) _)
  rw [readItems_succ, h budget _ hb hend]
  change itemsAfter budget v _ = _
  rw [itemsAfter_comma (skipSpace_mark h₁ rfl), ho.skipSpace_append h₂]

/-- After a member and a comma the other members are read. -/
theorem IsRead.members_next (h : IsRead (.member m) u) (h₁ : AreSpaces b₁) (h₂ : AreSpaces b₂)
    (ho : Opens inside) (hb : 2 * u.length ≤ budget + 1) (before : List (Text × Json)) :
    readMembers (budget + 1) before (u ++ (b₁ ++ .scalar ',' :: (b₂ ++ inside))) =
      readMembers budget (insert m.1 m.2 before) inside := by
  have hend : ¬ GoesOn (b₁ ++ .scalar ',' :: (b₂ ++ inside)) :=
    not_goesOn_append h₁ (not_goesOn_closing (by decide) _)
  rw [readMembers_succ, h budget _ hb hend]
  change membersAfter budget (insert m.1 m.2 before) _ = _
  rw [membersAfter_comma (skipSpace_mark h₁ rfl), ho.skipSpace_append h₂]

end Next

/-- **Every piece of the grammar is read to its end.** -/
theorem Spells.isRead {p : Phrase} (h : Spells ShortLength p u) : IsRead p u := by
  induction h with
  | word h =>
      intro budget rest hbudget _
      obtain ⟨k, rfl⟩ := h.opens.exists_budget hbudget
      exact readValue_word h k rest
  | number h =>
      intro budget rest hbudget hr
      obtain ⟨k, rfl⟩ := h.opens.exists_budget hbudget
      exact readValue_spellsNumber h hr
  | string h =>
      intro budget rest hbudget _
      obtain ⟨k, rfl⟩ := h.opens.exists_budget hbudget
      exact readValue_spellsString h
  | @emptyArray b hb =>
      intro budget rest hbudget _
      obtain ⟨k, rfl⟩ : ∃ k, budget = k + 1 := ⟨budget - 1, by simp at hbudget; omega⟩
      simp only [List.cons_append, List.append_assoc, List.nil_append]
      exact readValue_closedBracket (skipSpace_mark hb rfl)
  | @array b t vs hb h ih =>
      intro budget rest hbudget _
      simp only [List.length_cons, List.length_append, List.length_nil] at hbudget
      obtain ⟨k, rfl⟩ : ∃ k, budget = k + 1 := ⟨budget - 1, by omega⟩
      simp only [List.cons_append, List.append_assoc, List.nil_append]
      rw [readValue_bracket hb (h.opens.append _), ih k rest (by omega)]
      rfl
  | @emptyObject b hb =>
      intro budget rest hbudget
      obtain ⟨k, rfl⟩ : ∃ k, budget = k + 1 := ⟨budget - 1, by simp at hbudget; omega⟩
      simp only [List.cons_append, List.append_assoc, List.nil_append]
      exact readValue_closedBrace (skipSpace_mark hb rfl)
  | @fullObject b t ms hb h ih =>
      intro budget rest hbudget
      simp only [List.length_cons, List.length_append, List.length_nil] at hbudget
      obtain ⟨k, rfl⟩ : ∃ k, budget = k + 1 := ⟨budget - 1, by omega⟩
      simp only [List.cons_append, List.append_assoc, List.nil_append]
      rw [readValue_brace hb (h.opens.append _), ih k [] rest (by omega)]
      rfl
  | object _ ih => exact fun budget rest hbudget _ => ih budget rest hbudget
  | @member name m b₁ b₂ t v hn h₁ h₂ h ih =>
      intro budget rest hbudget hr
      simp only [List.length_cons, List.length_append] at hbudget
      simp only [List.cons_append, List.append_assoc]
      rw [readMember_eq hn h₁ h₂ (h.opens.append _), ih budget rest (by omega) hr]
      rfl
  | @lastItem b t v h hb ih =>
      intro budget rest hbudget
      have hpos := h.opens.length_pos
      simp only [List.length_append] at hbudget
      obtain ⟨k, rfl⟩ : ∃ k, budget = k + 1 := ⟨budget - 1, by omega⟩
      rw [List.append_assoc, readItems_succ, ih k _ (by omega)
        (not_goesOn_append hb (not_goesOn_closing (by decide) _))]
      exact itemsAfter_close (skipSpace_mark hb rfl)
  | @nextItem b₁ b₂ t u v vs h h₁ h₂ hu ih ihu =>
      intro budget rest hbudget
      have hpos := h.opens.length_pos
      simp only [List.length_append, List.length_cons] at hbudget
      obtain ⟨k, rfl⟩ : ∃ k, budget = k + 1 := ⟨budget - 1, by omega⟩
      simp only [List.cons_append, List.append_assoc]
      rw [ih.items_next h₁ h₂ (hu.opens.append _) (by omega), ihu k rest (by omega)]
      rfl
  | @lastMember b t m h hb ih =>
      intro budget before rest hbudget
      have hpos := h.opens.length_pos
      simp only [List.length_append] at hbudget
      obtain ⟨k, rfl⟩ : ∃ k, budget = k + 1 := ⟨budget - 1, by omega⟩
      rw [List.append_assoc, readMembers_succ, ih k _ (by omega)
        (not_goesOn_append hb (not_goesOn_closing (by decide) _))]
      exact membersAfter_close (skipSpace_mark hb rfl)
  | @nextMember b₁ b₂ t u m ms h h₁ h₂ hu ih ihu =>
      intro budget before rest hbudget
      have hpos := h.opens.length_pos
      simp only [List.length_append, List.length_cons] at hbudget
      obtain ⟨k, rfl⟩ : ∃ k, budget = k + 1 := ⟨budget - 1, by omega⟩
      simp only [List.cons_append, List.append_assoc]
      rw [ih.members_next h₁ h₂ (hu.opens.append _) (by omega), ihu k _ rest (by omega)]
      rfl

/-! ### Whole numbers that are too long -/

/-- That reading at a place stops at a whole number that is too long, after a text. -/
def IsStopped : Place → Text → Prop
  | .value, u => ∀ budget n t, 2 * u.length + 1 ≤ budget → StartsLong n t →
      readValue budget (u ++ t) = .error (.longInteger n)
  | .items, u => ∀ budget n t, 2 * u.length + 2 ≤ budget → StartsLong n t →
      readItems budget (u ++ t) = .error (.longInteger n)
  | .members, u => ∀ budget before n t, 2 * u.length + 2 ≤ budget → StartsLong n t →
      readMembers budget before (u ++ t) = .error (.longInteger n)

/-- **Reading stops at a whole number that is too long** if nothing is wrong before it. -/
theorem Reaches.isStopped {place : Place} (h : Reaches place u) : IsStopped place u := by
  induction h with
  | here =>
      intro budget n t hbudget ht
      obtain ⟨k, rfl⟩ : ∃ k, budget = k + 1 := ⟨budget - 1, by omega⟩
      rw [List.nil_append, ← readNumber_eq_long_iff.mpr ht]
      obtain ⟨negative, whole, more, rfl, hw, -⟩ := ht
      exact readValue_whole negative hw more
  | @array b u hb h ih =>
      intro budget n t hbudget ht
      simp only [List.length_cons, List.length_append] at hbudget
      obtain ⟨k, rfl⟩ : ∃ k, budget = k + 1 := ⟨budget - 1, by omega⟩
      simp only [List.cons_append, List.append_assoc]
      rw [readValue_bracket hb (h.opens ht.opens), ih k n t (by omega) ht]
      rfl
  | @object b u hb h ih =>
      intro budget n t hbudget ht
      simp only [List.length_cons, List.length_append] at hbudget
      obtain ⟨k, rfl⟩ : ∃ k, budget = k + 1 := ⟨budget - 1, by omega⟩
      simp only [List.cons_append, List.append_assoc]
      rw [readValue_brace hb (h.opens ht.opens), ih k [] n t (by omega) ht]
      rfl
  | item h ih =>
      intro budget n t hbudget ht
      obtain ⟨k, rfl⟩ : ∃ k, budget = k + 1 := ⟨budget - 1, by omega⟩
      rw [readItems_succ, ih k n t (by omega) ht]
      rfl
  | @laterItem b₁ b₂ w u v hw h₁ h₂ h ih =>
      intro budget n t hbudget ht
      have hpos := hw.opens.length_pos
      simp only [List.length_append, List.length_cons] at hbudget
      obtain ⟨k, rfl⟩ : ∃ k, budget = k + 1 := ⟨budget - 1, by omega⟩
      simp only [List.cons_append, List.append_assoc]
      rw [hw.isRead.items_next h₁ h₂ (h.opens ht.opens) (by omega), ih k n t (by omega) ht]
      rfl
  | @member name m b₁ b₂ u hn h₁ h₂ h ih =>
      intro budget before n t hbudget ht
      simp only [List.length_append, List.length_cons] at hbudget
      obtain ⟨k, rfl⟩ : ∃ k, budget = k + 1 := ⟨budget - 1, by omega⟩
      simp only [List.cons_append, List.append_assoc]
      rw [readMembers_succ, readMember_eq hn h₁ h₂ (h.opens ht.opens), ih k n t (by omega) ht]
      rfl
  | @laterMember b₁ b₂ w u m hw h₁ h₂ h ih =>
      intro budget before n t hbudget ht
      have hpos := hw.opens.length_pos
      simp only [List.length_append, List.length_cons] at hbudget
      obtain ⟨k, rfl⟩ : ∃ k, budget = k + 1 := ⟨budget - 1, by omega⟩
      simp only [List.cons_append, List.append_assoc]
      rw [hw.isRead.members_next h₁ h₂ (h.opens ht.opens) (by omega),
        ih k _ n t (by omega) ht]

/-! ### Whole texts -/

/-- A value with blanks around it, up to the end of the text. -/
def readWhole (budget : Nat) (t : Text) : Except Fault Json := do
  let (value, rest) ← readValue budget (skipSpace t)
  match skipSpace rest with
  | [] => return value
  | rest => .error (.form .extraData rest)

/-- **The texts that are read** with a budget that is large enough are the documents. -/
theorem readWhole_eq_ok_iff {v : Json} (hb : 2 * t.length ≤ budget) :
    readWhole budget t = .ok v ↔ Document ShortLength (.value v) t := by
  constructor
  · intro h
    obtain ⟨⟨value, rest⟩, hvalue, hend⟩ := Except.bind_eq_ok_iff.mp h
    obtain ⟨b₁, h₁, ht⟩ := exists_spaces t
    obtain ⟨b₂, h₂, hrest⟩ := exists_spaces rest
    obtain ⟨u, hu, hspells⟩ := spells_of_readValue hvalue
    dsimp only at hend
    split at hend
    · rename_i hnil
      obtain rfl := Except.ok.inj hend
      rw [hnil, List.append_nil] at hrest
      exact ⟨b₁, u, b₂, by rw [← hrest, ← hu]; exact ht, h₁, h₂, hspells⟩
    · simp at hend
  · rintro ⟨b₁, u, b₂, rfl, h₁, h₂, hu⟩
    simp only [List.length_append] at hb
    have hend : ¬ GoesOn b₂ := by simpa using not_goesOn_append h₂ not_goesOn_nil
    have hskip : skipSpace b₂ = [] := by simpa using skipSpace_append h₂ noSpace_nil
    rw [readWhole, (hu.opens.append _).skipSpace_append h₁,
      hu.isRead budget b₂ (by omega) hend]
    dsimp only [Bind.bind, Except.bind]
    rw [hskip]
    rfl

/-- **The texts that stop at a whole number that is too long** are those that meet one. -/
theorem readWhole_eq_long_iff (hb : 2 * t.length ≤ budget) :
    readWhole budget t = .error (.longInteger n) ↔ MeetsLong n t := by
  constructor
  · intro h
    obtain ⟨b, hb, ht⟩ := exists_spaces t
    rcases Except.bind_eq_error_iff.mp h with hvalue | ⟨⟨value, rest⟩, -, hend⟩
    · exact ⟨b, _, ht, hb, meets_of_readValue hvalue⟩
    · dsimp only at hend
      split at hend <;> simp [pure, Except.pure] at hend
  · rintro ⟨b, u, rfl, hspaces, before, after, rfl, hreach, hlong⟩
    have hpos := hlong.opens.length_pos
    simp only [List.length_append] at hb
    rw [readWhole, (hreach.opens hlong.opens).skipSpace_append hspaces,
      hreach.isStopped budget n after (by omega) hlong]
    rfl

/-- A text that begins with blanks or a value begins with no byte order mark. -/
theorem head?_ne_mark (hb : AreSpaces b) (ho : Opens u) :
    (b ++ u).head? ≠ some (.scalar '\uFEFF') := by
  cases b with
  | nil =>
      obtain ⟨c, more, rfl, -, -, -, hc⟩ := ho
      simpa using hc
  | cons s b =>
      have hs := hb s (by simp)
      rintro he
      obtain rfl : s = .scalar '\uFEFF' := by simpa using he
      simp at hs

/-- A document is read as a whole text is, unless it begins with a byte order mark. -/
theorem readDocument_eq (t : Text) : readDocument t =
    if t.head? = some (.scalar '\uFEFF') then .error (.form .byteOrderMark t)
    else readWhole (2 * t.length + 1) t := by
  rw [readDocument.eq_def]
  rfl

/-- Unified lines do not change which value is found in a document. -/
theorem parse_eq_ok_iff_readDocument {v : Json} : parse t = .ok v ↔ readDocument t = .ok v := by
  rw [parse]
  split <;> simp [*]

/-- Unified lines do not change which whole number is found to be too long. -/
theorem parse_eq_long_iff_readDocument :
    parse t = .error (.longInteger n) ↔ readDocument t = .error (.longInteger n) := by
  rw [parse]
  split <;> simp [*]

/-- **The texts that denote a value** are the documents. -/
theorem parse_eq_ok_iff {v : Json} : parse t = .ok v ↔ Document ShortLength (.value v) t := by
  have hwhole : readWhole (2 * t.length + 1) t = .ok v ↔ Document ShortLength (.value v) t :=
    readWhole_eq_ok_iff (by omega)
  rw [parse_eq_ok_iff_readDocument, readDocument_eq]
  split
  · rename_i hmark
    simp only [reduceCtorEq, false_iff]
    rintro ⟨b₁, u, b₂, rfl, h₁, -, hu⟩
    exact head?_ne_mark h₁ (hu.opens.append b₂) hmark
  · exact hwhole

/-- **The texts that fail with a whole number that is too long** are those that meet one before
anything wrong. -/
theorem parse_eq_long_iff : parse t = .error (.longInteger n) ↔ MeetsLong n t := by
  have hwhole : readWhole (2 * t.length + 1) t = .error (.longInteger n) ↔ MeetsLong n t :=
    readWhole_eq_long_iff (by omega)
  rw [parse_eq_long_iff_readDocument, readDocument_eq]
  split
  · rename_i hmark
    simp only [Except.error.injEq, reduceCtorEq, false_iff]
    rintro ⟨b, u, rfl, hb, before, after, rfl, hreach, hlong⟩
    exact head?_ne_mark hb (hreach.opens hlong.opens) hmark
  · exact hwhole

end Json

end CommandGate
