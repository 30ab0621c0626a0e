import CommandGate.Proofs.Json.Completeness
import CommandGate.Tutorial

/-!
# Line Ends in Documents

The lines of a file may end in a carriage return, or in one with a line feed; before a
document is read they are made to end in line feeds. All three are blanks, and none of them
can stand inside a string, so it makes no difference: the reader takes the same from a text
either way, and leaves what it leaves with its lines made to end in line feeds too.

## Main results

* `Json.document_unifyLines`: a text is a document exactly if it is one with unified lines.
* `Json.meetsLong_unifyLines`: so too for meeting a whole number that is too long.
-/

namespace CommandGate

namespace Json

open Tutorial (unifyLines)

variable {c : CodePoint} {t u : Text}

/-! ### Unified texts -/

/-- A code point that is no carriage return stays as it is. -/
theorem unifyLines_cons (h : c ≠ .scalar '\r') (t : Text) :
    unifyLines (c :: t) = c :: unifyLines t := by
  rw [unifyLines]
  · rintro rest rfl
    exact absurd rfl h
  · rintro rfl
    exact h rfl

/-- A carriage return becomes a line feed, whatever follows it. -/
theorem exists_unifyLines_return (t : Text) :
    ∃ u, unifyLines (.scalar '\r' :: t) = .scalar '\n' :: u := by
  cases t with
  | nil => exact ⟨[], rfl⟩
  | cons d rest =>
      by_cases hd : d = .scalar '\n'
      · rw [hd]
        exact ⟨_, rfl⟩
      · refine ⟨unifyLines (d :: rest), ?_⟩
        rw [unifyLines]
        rintro more he
        exact hd (List.cons.inj he).1

/-- Apart from line feeds a unified text begins with what the text begins with. -/
theorem exists_of_unifyLines_cons (h : unifyLines t = c :: u) (hc : c ≠ .scalar '\n') :
    ∃ rest, t = c :: rest ∧ u = unifyLines rest := by
  cases t with
  | nil => simp [unifyLines] at h
  | cons d rest =>
      by_cases hd : d = .scalar '\r'
      · obtain ⟨w, hw⟩ := exists_unifyLines_return rest
        rw [hd, hw] at h
        exact absurd (List.cons.inj h).1.symm hc
      · rw [unifyLines_cons hd] at h
        obtain ⟨rfl, rfl⟩ := List.cons.inj h
        exact ⟨rest, rfl, rfl⟩

/-- Unified lines do not make a text longer. -/
theorem length_unifyLines_le (t : Text) : (unifyLines t).length ≤ t.length := by
  fun_induction unifyLines t <;> simp <;> omega

/-- Only the empty text is empty with its lines unified. -/
theorem unifyLines_eq_nil_iff : unifyLines t = [] ↔ t = [] := by
  fun_cases unifyLines t <;> simp

/-- A text in which no line ends is unified only if it stands there already. -/
theorem exists_of_unifyLines_append (hu : LineFree u) {rest : Text}
    (h : unifyLines t = u ++ rest) : ∃ more, t = u ++ more ∧ rest = unifyLines more := by
  induction u generalizing t with
  | nil => exact ⟨t, rfl, h.symm⟩
  | cons c u ih =>
      obtain ⟨hc, hu⟩ := List.forall_mem_cons.mp hu
      obtain ⟨more, rfl, hmore⟩ := exists_of_unifyLines_cons h hc.1
      obtain ⟨last, rfl, hlast⟩ := ih hu hmore.symm
      exact ⟨last, rfl, hlast⟩

/-- Text without line breaks stays as it is before text with unified lines. -/
theorem unifyLines_append (hu : LineFree u) (t : Text) :
    unifyLines (u ++ t) = u ++ unifyLines t := by
  induction u with
  | nil => rfl
  | cons c u ih =>
      obtain ⟨hc, hu⟩ := List.forall_mem_cons.mp hu
      rw [List.cons_append, unifyLines_cons hc.2, ih hu]
      rfl

/-! ### Results -/

/-- Two results are alike: values that are related, or faults of form, or the fault of a whole
number of the same length. -/
inductive Alike {α β : Type} (R : α → β → Prop) : Except Fault α → Except Fault β → Prop
  | value {a : α} {b : β} (h : R a b) : Alike R (.ok a) (.ok b)
  | form (c d : Complaint) (t u : Text) : Alike R (.error (.form c t)) (.error (.form d u))
  | long (n : Nat) : Alike R (.error (.longInteger n)) (.error (.longInteger n))

/-- The same is found, and the lines of the text that is left are unified. -/
def LeavesUnified {α : Type} (found found' : α × Text) : Prop :=
  found' = (found.1, unifyLines found.2)

/-- Results that are alike stay so when they are used alike. -/
theorem Alike.bind {α β α' β' : Type} {R : α → α' → Prop} {S : β → β' → Prop}
    {r : Except Fault α} {r' : Except Fault α'} {k : α → Except Fault β}
    {k' : α' → Except Fault β'} (h : Alike R r r') (hk : ∀ a a', R a a' → Alike S (k a) (k' a')) :
    Alike S (r >>= k) (r' >>= k') := by
  cases h with
  | value h => exact hk _ _ h
  | form c d t u => exact .form c d t u
  | long n => exact .long n

/-- What is made of what was found may change, and the text that is left stays unified. -/
theorem Alike.map {α β : Type} {r r' : Except Fault (α × Text)} (f : α → β)
    (h : Alike LeavesUnified r r') : Alike LeavesUnified (r.map fun found => (f found.1, found.2))
      (r'.map fun found => (f found.1, found.2)) := by
  cases h with
  | value h =>
      rw [h]
      exact .value rfl
  | form c d t u => exact .form c d t u
  | long n => exact .long n

/-! ### Blanks, words and strings -/

/-- Carriage returns and line feeds are both blanks, so the same text is left after the blanks. -/
theorem skipSpace_unifyLines (t : Text) : skipSpace (unifyLines t) = unifyLines (skipSpace t) := by
  fun_induction unifyLines t with
  | case1 rest ih => simpa [skipSpace, isSpace] using ih
  | case2 rest _ ih => simpa [skipSpace, isSpace] using ih
  | case3 c rest h₁ h₂ ih =>
      have hc : c ≠ .scalar '\r' := h₂
      by_cases hs : isSpace c = true
      · simpa [skipSpace, hs] using ih
      · simp [skipSpace, hs, unifyLines_cons hc]
  | case4 => rfl

/-- No line ends in a string. -/
theorem SpellsString.lineFree {s : Text} (h : SpellsString s u) : LineFree u := by
  have hpoints {points body : Text} (h : SpellsPoints points body) : LineFree body := by
    induction h with
    | nil => simp [LineFree]
    | plain hcontrol _ _ _ ih =>
        refine List.forall_mem_cons.mpr ⟨⟨?_, ?_⟩, ih⟩ <;> rintro rfl <;>
          exact absurd hcontrol (by decide)
    | letter he _ ih =>
        refine List.forall_mem_cons.mpr ⟨by decide, List.forall_mem_cons.mpr ⟨?_, ih⟩⟩
        cases he <;> decide
    | numbered ha hb hc hd _ ih =>
        have digit {d : Nat} {c : Char} (h : HexDigit d c) :
            CodePoint.scalar c ≠ .scalar '\n' ∧ CodePoint.scalar c ≠ .scalar '\r' := by
          have hread : hexDigit? (.scalar c) = some d := hexDigit?_eq_some_iff.mpr ⟨c, rfl, h⟩
          constructor <;> intro he <;> rw [he] at hread <;> simp [hexDigit?] at hread
        exact List.forall_mem_cons.mpr ⟨by decide, List.forall_mem_cons.mpr ⟨by decide,
          List.forall_mem_cons.mpr ⟨digit ha, List.forall_mem_cons.mpr ⟨digit hb,
          List.forall_mem_cons.mpr ⟨digit hc, List.forall_mem_cons.mpr ⟨digit hd, ih⟩⟩⟩⟩⟩⟩
  obtain ⟨hbody, -⟩ := h
  exact List.forall_mem_cons.mpr ⟨by decide,
    List.forall_mem_append.mpr ⟨hpoints hbody, List.forall_mem_singleton.mpr (by decide)⟩⟩

/-- What is no string before its lines are unified is none afterwards. -/
theorem readString_unifyLines (opening opening' t : Text) :
    Alike LeavesUnified (readString opening t) (readString opening' (unifyLines t)) := by
  -- faults of strings are faults of form
  have hform {opening t : Text} {f : Fault} (h : readString opening t = .error f) :
      ∃ c rest, f = .form c rest := by
    cases f with
    | form c rest => exact ⟨c, rest, rfl⟩
    | longInteger n => exact absurd h (readString_ne_longInteger n)
  cases h : readString opening t with
  | ok found =>
      obtain ⟨s, rest⟩ := found
      obtain ⟨u, htext, hu⟩ := readString_eq_ok_iff.mp h
      have hunified : readString opening' (unifyLines t) = .ok (s, unifyLines rest) := by
        refine readString_eq_ok_iff.mpr ⟨u, ?_, hu⟩
        rw [← unifyLines_append hu.lineFree, ← htext]
        exact (unifyLines_cons (by decide) t).symm
      rw [hunified]
      exact .value rfl
  | error f =>
      obtain ⟨c, rest, rfl⟩ := hform h
      cases h' : readString opening' (unifyLines t) with
      | error f' =>
          obtain ⟨c', rest', rfl⟩ := hform h'
          exact .form c c' rest rest'
      | ok found =>
          obtain ⟨s, rest'⟩ := found
          obtain ⟨u, htext, hu⟩ := readString_eq_ok_iff.mp h'
          rw [← unifyLines_cons (c := .scalar '"') (by decide)] at htext
          obtain ⟨more, hmore, -⟩ := exists_of_unifyLines_append hu.lineFree htext
          rw [readString_eq_ok_iff.mpr ⟨u, hmore, hu⟩] at h
          simp at h

/-- The words that are values have no line breaks in them, and are read alike. -/
theorem readWord?_unifyLines (t : Text) :
    readWord? (unifyLines t) = (readWord? t).map fun found => (found.1, unifyLines found.2) := by
  have hword : ∀ w ∈ words, LineFree w.1 := by simp [words, LineFree, Text.ofString]
  rw [readWord?, readWord?]
  generalize words = known at hword
  induction known with
  | nil => rfl
  | cons w known ih =>
      obtain ⟨hw, hknown⟩ := List.forall_mem_cons.mp hword
      rw [List.findSome?_cons, List.findSome?_cons, ih hknown]
      dsimp only
      by_cases hstart : w.1 <+: t
      · obtain ⟨more, rfl⟩ := hstart
        simp [unifyLines_append hw]
      · have hunified : ¬ w.1 <+: unifyLines t := by
          rintro ⟨rest, hrest⟩
          obtain ⟨more, rfl, -⟩ := exists_of_unifyLines_append hw hrest.symm
          exact hstart (List.prefix_append _ _)
        rw [if_neg (by simpa using hunified), if_neg (by simpa using hstart)]

/-! ### Numbers -/

/-- No character but a line feed begins a text through the unifying of its lines. -/
theorem head?_unifyLines {c : Char} (h : (unifyLines t).head? = some (.scalar c))
    (hc : c ≠ '\n') : t.head? = some (.scalar c) := by
  obtain ⟨u, hu⟩ := List.head?_eq_some_iff.mp h
  obtain ⟨rest, rfl, -⟩ := exists_of_unifyLines_cons hu (by simpa using hc)
  rfl

theorem NoDigit.unifyLines (h : NoDigit t) : NoDigit (unifyLines t) := by
  intro c more he
  by_contra hc
  have hdigit : isAsciiDigit c = true := by simpa using hc
  obtain ⟨rest, rfl, -⟩ := exists_of_unifyLines_cons he
    (by simpa using ne_of_isAsciiDigit (c := '\n') hdigit rfl)
  exact hc (h c rest rfl)

theorem lineFree_digits {ds : List Char} (h : AreDigits ds) : LineFree (ds.map .scalar) := by
  intro c hc
  obtain ⟨d, hd, rfl⟩ := List.mem_map.mp hc
  exact ⟨by simpa using ne_of_isAsciiDigit (c := '\n') (h d hd) rfl,
    by simpa using ne_of_isAsciiDigit (c := '\r') (h d hd) rfl⟩

theorem splitDigits_unifyLines (t : Text) :
    splitDigits (unifyLines t) = ((splitDigits t).1, unifyLines (splitDigits t).2) := by
  obtain ⟨htext, hrest⟩ := splitDigits_spec t
  have hdigits := areDigits_splitDigits t
  conv_lhs => rw [htext]
  rw [unifyLines_append (lineFree_digits hdigits), splitDigits_append hdigits hrest.unifyLines]

theorem splitWhole_unifyLines (t : Text) :
    splitWhole (unifyLines t) = ((splitWhole t).1, unifyLines (splitWhole t).2) := by
  have hother {t : Text} (h : t.head? ≠ some (.scalar '0')) : splitWhole t = splitDigits t := by
    rw [splitWhole.eq_def]
    split
    · exact absurd rfl h
    · rfl
  by_cases h : t.head? = some (.scalar '0')
  · obtain ⟨rest, rfl⟩ := List.head?_eq_some_iff.mp h
    rw [unifyLines_cons (by decide)]
    rfl
  · rw [hother h, hother fun hu => h (head?_unifyLines hu (by decide)), splitDigits_unifyLines]

theorem splitFraction_unifyLines (t : Text) :
    splitFraction (unifyLines t) = ((splitFraction t).1, unifyLines (splitFraction t).2) := by
  by_cases h : t.head? = some (.scalar '.')
  · obtain ⟨rest, rfl⟩ := List.head?_eq_some_iff.mp h
    rw [unifyLines_cons (by decide), splitFraction, splitFraction, splitDigits_unifyLines]
    rcases splitDigits rest with ⟨_ | ⟨d, ds⟩, after⟩
    · exact congrArg (Prod.mk []) (unifyLines_cons (by decide) rest).symm
    · rfl
  · rw [splitFraction_of_ne h,
      splitFraction_of_ne fun hu => h (head?_unifyLines hu (by decide))]

theorem exponentSignOf_unifyLines (t : Text) : exponentSignOf (unifyLines t) =
    ((exponentSignOf t).1, unifyLines (exponentSignOf t).2) := by
  have hother {t : Text} (hm : t.head? ≠ some (.scalar '-')) (hp : t.head? ≠ some (.scalar '+')) :
      exponentSignOf t = (false, t) := by
    unfold exponentSignOf
    split
    · exact absurd rfl hm
    · exact absurd rfl hp
    · rfl
  by_cases hm : t.head? = some (.scalar '-')
  · obtain ⟨rest, rfl⟩ := List.head?_eq_some_iff.mp hm
    rw [unifyLines_cons (by decide)]
    rfl
  · by_cases hp : t.head? = some (.scalar '+')
    · obtain ⟨rest, rfl⟩ := List.head?_eq_some_iff.mp hp
      rw [unifyLines_cons (by decide)]
      rfl
    · rw [hother hm hp, hother (fun hu => hm (head?_unifyLines hu (by decide)))
        fun hu => hp (head?_unifyLines hu (by decide))]

theorem splitExponent_unifyLines (t : Text) :
    splitExponent (unifyLines t) = ((splitExponent t).1, unifyLines (splitExponent t).2) := by
  have hmarked {e : Char} (he : e = 'e' ∨ e = 'E') (rest : Text) :
      splitExponent (unifyLines (.scalar e :: rest)) =
        ((splitExponent (.scalar e :: rest)).1,
          unifyLines (splitExponent (.scalar e :: rest)).2) := by
    have hcons : unifyLines (.scalar e :: rest) = .scalar e :: unifyLines rest :=
      unifyLines_cons (by rcases he with rfl | rfl <;> decide) rest
    rw [hcons, splitExponent_eq he, splitExponent_eq he, exponentSignOf_unifyLines,
      splitDigits_unifyLines]
    dsimp only
    rcases splitDigits (exponentSignOf rest).2 with ⟨_ | ⟨d, ds⟩, after⟩
    · exact congrArg (Prod.mk none) hcons.symm
    · rfl
  by_cases hl : t.head? = some (.scalar 'e')
  · obtain ⟨rest, rfl⟩ := List.head?_eq_some_iff.mp hl
    exact hmarked (.inl rfl) rest
  · by_cases hu : t.head? = some (.scalar 'E')
    · obtain ⟨rest, rfl⟩ := List.head?_eq_some_iff.mp hu
      exact hmarked (.inr rfl) rest
    · rw [splitExponent_of_ne hl hu, splitExponent_of_ne
        (fun h => hl (head?_unifyLines h (by decide))) fun h => hu (head?_unifyLines h (by decide))]

theorem signOf_unifyLines (t : Text) :
    signOf (unifyLines t) = ((signOf t).1, unifyLines (signOf t).2) := by
  by_cases hm : t.head? = some (.scalar '-')
  · obtain ⟨rest, rfl⟩ := List.head?_eq_some_iff.mp hm
    rw [unifyLines_cons (by decide)]
    rfl
  · have hplain := signOf_append false hm
    have hunified := signOf_append false fun hu => hm (head?_unifyLines hu (by decide))
    simp only [signText, Bool.false_eq_true, if_false, List.nil_append] at hplain hunified
    rw [hplain, hunified]

/-- Numbers are read alike, those that are too long among them. -/
theorem readNumber_unifyLines (t : Text) :
    Alike LeavesUnified (readNumber t) (readNumber (unifyLines t)) := by
  rw [readNumber_eq, readNumber_eq, signOf_unifyLines, splitWhole_unifyLines]
  dsimp only
  rcases splitWhole (signOf t).2 with ⟨_ | ⟨d, ds⟩, afterWhole⟩
  · exact .form _ _ _ _
  · dsimp only
    rw [splitFraction_unifyLines]
    dsimp only
    rw [splitExponent_unifyLines]
    dsimp only
    split_ifs
    · exact .long _
    all_goals exact .value rfl

/-! ### Values -/

/-- A budget is used in the same way on a text with unified lines. -/
structure ReadsUnified (budget : Nat) : Prop where
  value (t : Text) : Alike LeavesUnified (readValue budget t) (readValue budget (unifyLines t))
  items (t : Text) : Alike LeavesUnified (readItems budget t) (readItems budget (unifyLines t))
  members (before : List (Text × Json)) (t : Text) :
    Alike LeavesUnified (readMembers budget before t) (readMembers budget before (unifyLines t))

variable {budget : Nat}

/-- The next mark after the blanks is the same. -/
theorem skipSpace_unifyLines_mark {c : Char} {after : Text} (h : skipSpace t = .scalar c :: after)
    (hc : c ≠ '\r') : skipSpace (unifyLines t) = .scalar c :: unifyLines after := by
  rw [skipSpace_unifyLines, h, unifyLines_cons (by simpa using hc)]

/-- A character that does not come after the blanks does not come after them in unified lines. -/
theorem head?_skipSpace_unifyLines {c : Char} (h : (skipSpace t).head? ≠ some (.scalar c))
    (hc : c ≠ '\n') : (skipSpace (unifyLines t)).head? ≠ some (.scalar c) := by
  rw [skipSpace_unifyLines]
  exact fun hu => h (head?_unifyLines hu hc)

/-- Objects are read alike if the budget that is left reads their members so. -/
theorem ReadsUnified.brace (h : ReadsUnified budget) (t : Text) :
    Alike LeavesUnified (readValue (budget + 1) (.scalar '\x7b' :: t))
      (readValue (budget + 1) (.scalar '\x7b' :: unifyLines t)) := by
  by_cases hclose : (skipSpace t).head? = some (.scalar '\x7d')
  · obtain ⟨after, hafter⟩ := List.head?_eq_some_iff.mp hclose
    rw [readValue_closedBrace hafter,
      readValue_closedBrace (skipSpace_unifyLines_mark hafter (by decide))]
    exact .value rfl
  · rw [readValue_openBrace hclose,
      readValue_openBrace (head?_skipSpace_unifyLines hclose (by decide)), skipSpace_unifyLines]
    exact (h.members [] _).map Json.object

/-- Arrays are read alike if the budget that is left reads their items so. -/
theorem ReadsUnified.bracket (h : ReadsUnified budget) (t : Text) :
    Alike LeavesUnified (readValue (budget + 1) (.scalar '[' :: t))
      (readValue (budget + 1) (.scalar '[' :: unifyLines t)) := by
  by_cases hclose : (skipSpace t).head? = some (.scalar ']')
  · obtain ⟨after, hafter⟩ := List.head?_eq_some_iff.mp hclose
    rw [readValue_closedBracket hafter,
      readValue_closedBracket (skipSpace_unifyLines_mark hafter (by decide))]
    exact .value rfl
  · rw [readValue_openBracket hclose,
      readValue_openBracket (head?_skipSpace_unifyLines hclose (by decide)), skipSpace_unifyLines]
    exact (h.items _).map Json.array

/-- One step of the reader of values. -/
theorem ReadsUnified.value_succ (h : ReadsUnified budget) (t : Text) :
    Alike LeavesUnified (readValue (budget + 1) t) (readValue (budget + 1) (unifyLines t)) := by
  by_cases hq : t.head? = some (.scalar '"')
  · obtain ⟨rest, rfl⟩ := List.head?_eq_some_iff.mp hq
    rw [unifyLines_cons (by decide), readValue, readValue]
    exact (readString_unifyLines _ _ rest).map Json.string
  by_cases ho : t.head? = some (.scalar '\x7b')
  · obtain ⟨rest, rfl⟩ := List.head?_eq_some_iff.mp ho
    rw [unifyLines_cons (by decide)]
    exact h.brace rest
  by_cases ha : t.head? = some (.scalar '[')
  · obtain ⟨rest, rfl⟩ := List.head?_eq_some_iff.mp ha
    rw [unifyLines_cons (by decide)]
    exact h.bracket rest
  have hother {c : Char} (hc : c ≠ '\n') (h : t.head? ≠ some (.scalar c)) :
      (unifyLines t).head? ≠ some (.scalar c) := fun hu => h (head?_unifyLines hu hc)
  rw [readValue_plain hq ho ha, readValue_plain (hother (by decide) hq) (hother (by decide) ho)
    (hother (by decide) ha), readWord?_unifyLines]
  cases readWord? t with
  | some found => exact .value rfl
  | none => exact readNumber_unifyLines t

/-- One step of the reader of items. -/
theorem ReadsUnified.items_succ (h : ReadsUnified budget) (t : Text) :
    Alike LeavesUnified (readItems (budget + 1) t) (readItems (budget + 1) (unifyLines t)) := by
  rw [readItems_succ, readItems_succ]
  refine (h.value t).bind ?_
  rintro ⟨v, rest⟩ _ rfl
  change Alike _ (itemsAfter budget v rest) (itemsAfter budget v (unifyLines rest))
  by_cases hclose : (skipSpace rest).head? = some (.scalar ']')
  · obtain ⟨after, hafter⟩ := List.head?_eq_some_iff.mp hclose
    rw [itemsAfter_close hafter, itemsAfter_close (skipSpace_unifyLines_mark hafter (by decide))]
    exact .value rfl
  by_cases hcomma : (skipSpace rest).head? = some (.scalar ',')
  · obtain ⟨more, hmore⟩ := List.head?_eq_some_iff.mp hcomma
    rw [itemsAfter_comma hmore, itemsAfter_comma (skipSpace_unifyLines_mark hmore (by decide)),
      skipSpace_unifyLines]
    exact (h.items _).map (List.cons v)
  · rw [itemsAfter_other hclose hcomma, itemsAfter_other
      (head?_skipSpace_unifyLines hclose (by decide))
      (head?_skipSpace_unifyLines hcomma (by decide))]
    exact .form _ _ _ _

/-- Single members are read alike. -/
theorem ReadsUnified.member (h : ReadsUnified budget) (t : Text) :
    Alike LeavesUnified (readMember budget t) (readMember budget (unifyLines t)) := by
  by_cases hq : t.head? = some (.scalar '"')
  · obtain ⟨rest, rfl⟩ := List.head?_eq_some_iff.mp hq
    rw [unifyLines_cons (by decide), readMember, readMember]
    refine (readString_unifyLines _ _ rest).bind ?_
    rintro ⟨name, after⟩ _ rfl
    change Alike _ (valueAfter budget name after) (valueAfter budget name (unifyLines after))
    by_cases hcolon : (skipSpace after).head? = some (.scalar ':')
    · obtain ⟨more, hmore⟩ := List.head?_eq_some_iff.mp hcolon
      rw [valueAfter_colon hmore, valueAfter_colon (skipSpace_unifyLines_mark hmore (by decide)),
        skipSpace_unifyLines]
      exact (h.value _).map (Prod.mk name)
    · rw [valueAfter_other hcolon,
        valueAfter_other (head?_skipSpace_unifyLines hcolon (by decide))]
      exact .form _ _ _ _
  · rw [readMember_other hq, readMember_other fun hu => hq (head?_unifyLines hu (by decide))]
    exact .form _ _ _ _

/-- One step of the reader of members. -/
theorem ReadsUnified.members_succ (h : ReadsUnified budget) (before : List (Text × Json))
    (t : Text) : Alike LeavesUnified (readMembers (budget + 1) before t)
      (readMembers (budget + 1) before (unifyLines t)) := by
  rw [readMembers_succ, readMembers_succ]
  refine (h.member t).bind ?_
  rintro ⟨m, rest⟩ _ rfl
  change Alike _ (membersAfter budget (insert m.1 m.2 before) rest)
    (membersAfter budget (insert m.1 m.2 before) (unifyLines rest))
  by_cases hclose : (skipSpace rest).head? = some (.scalar '\x7d')
  · obtain ⟨after, hafter⟩ := List.head?_eq_some_iff.mp hclose
    rw [membersAfter_close hafter,
      membersAfter_close (skipSpace_unifyLines_mark hafter (by decide))]
    exact .value rfl
  by_cases hcomma : (skipSpace rest).head? = some (.scalar ',')
  · obtain ⟨more, hmore⟩ := List.head?_eq_some_iff.mp hcomma
    rw [membersAfter_comma hmore, membersAfter_comma (skipSpace_unifyLines_mark hmore (by decide)),
      skipSpace_unifyLines]
    exact h.members _ _
  · rw [membersAfter_other hclose hcomma, membersAfter_other
      (head?_skipSpace_unifyLines hclose (by decide))
      (head?_skipSpace_unifyLines hcomma (by decide))]
    exact .form _ _ _ _

/-- Every budget is used in the same way on a text with unified lines. -/
theorem readsUnified (budget : Nat) : ReadsUnified budget := by
  induction budget with
  | zero =>
      constructor
      · exact fun t => .form _ _ _ _
      · exact fun t => .form _ _ _ _
      · exact fun before t => .form _ _ _ _
  | succ budget ih => exact ⟨ih.value_succ, ih.items_succ, ih.members_succ⟩

/-! ### Whole texts -/

/-- **A text is read as it is with its lines unified.** -/
theorem readWhole_unifyLines (budget : Nat) (t : Text) :
    Alike Eq (readWhole budget t) (readWhole budget (unifyLines t)) := by
  rw [readWhole, readWhole, skipSpace_unifyLines]
  refine ((readsUnified budget).value (skipSpace t)).bind ?_
  rintro ⟨v, rest⟩ _ rfl
  dsimp only
  rw [skipSpace_unifyLines]
  cases hrest : skipSpace rest with
  | nil => exact .value rfl
  | cons c more =>
      obtain ⟨d, last, hlast⟩ := List.exists_cons_of_ne_nil
        (show unifyLines (c :: more) ≠ [] by simp [unifyLines_eq_nil_iff])
      rw [hlast]
      exact .form _ _ _ _

variable {r r' : Except Fault Json}

/-- Results alike with equal values have the same values. -/
theorem Alike.eq_ok_iff (h : Alike Eq r r') {v : Json} : r = .ok v ↔ r' = .ok v := by
  cases h with
  | value h => rw [h]
  | form => simp
  | long => simp

/-- Results alike with equal values stop at the same long numbers. -/
theorem Alike.eq_long_iff (h : Alike Eq r r') {n : Nat} :
    r = .error (.longInteger n) ↔ r' = .error (.longInteger n) := by
  cases h <;> simp

/-- **A text is a document** exactly if it is one with its lines unified. -/
theorem document_unifyLines {v : Json} :
    Document ShortLength (.value v) (unifyLines t) ↔ Document ShortLength (.value v) t := by
  have hlength := length_unifyLines_le t
  have hplain : readWhole (2 * t.length) t = .ok v ↔ Document ShortLength (.value v) t :=
    readWhole_eq_ok_iff (Nat.le_refl _)
  have hunified : readWhole (2 * t.length) (unifyLines t) = .ok v ↔
      Document ShortLength (.value v) (unifyLines t) := readWhole_eq_ok_iff (by omega)
  rw [← hplain, ← hunified]
  exact (readWhole_unifyLines _ t).eq_ok_iff.symm

/-- **A text meets a whole number that is too long** exactly if it does with its lines
unified. -/
theorem meetsLong_unifyLines {n : Nat} : MeetsLong n (unifyLines t) ↔ MeetsLong n t := by
  have hlength := length_unifyLines_le t
  have hplain : readWhole (2 * t.length) t = .error (.longInteger n) ↔ MeetsLong n t :=
    readWhole_eq_long_iff (Nat.le_refl _)
  have hunified : readWhole (2 * t.length) (unifyLines t) = .error (.longInteger n) ↔
      MeetsLong n (unifyLines t) := readWhole_eq_long_iff (by omega)
  rw [← hplain, ← hunified]
  exact (readWhole_unifyLines _ t).eq_long_iff.symm

end Json

end CommandGate
