import CommandGate.Proofs.Json.Reading
import CommandGate.Proofs.Json.Strings

/-!
# Reading Written Documents

A document in the style of logs is read back as the value that was written, apart from two
things: a double-precision number comes back as the number that its text denotes, and an
object whose names are not distinct comes back as reading makes it (`Json.echo`). The texts
in the value may hold no surrogates, and the value must be readable.

## Main results

* `Json.parse_write`: what a written document is read as.
-/

namespace CommandGate

namespace Json

/-- The number that a number's text denotes. -/
def reread (x : Binary64) : Binary64 :=
  match readValue 1 (x.text .json : String) with
  | .ok (.number y, _) => y
  | _ => x

mutual

/-- The value that the document of a value denotes. -/
def echo : Json → Json
  | .null => .null
  | .bool b => .bool b
  | .integer n => .integer n
  | .number x => .number (reread x)
  | .string t => .string t
  | .array items => .array (echoItems items)
  | .object members => .object (echoMembers [] members)

/-- What `echo` makes of items. -/
def echoItems : List Json → List Json
  | [] => []
  | v :: vs => echo v :: echoItems vs

/-- What `echo` makes of a member. -/
def echoMember : Text × Json → Text × Json
  | (name, v) => (name, echo v)

/-- What `echo` makes of members, added to those before. -/
def echoMembers (before : List (Text × Json)) : List (Text × Json) → List (Text × Json)
  | [] => before
  | m :: ms => echoMembers (insert m.1 (echoMember m).2 before) ms

end

/-- The items of an array as they stand between its brackets. -/
def itemsText (depth : Nat) : List Json → Text
  | [] => []
  | v :: vs => writeAt .line depth v ++ writeItems .line depth vs

/-- The members of an object as they stand between its braces. -/
def membersText (depth : Nat) : List (Text × Json) → Text
  | [] => []
  | m :: ms => writeMember .line depth m ++ writeMembers .line depth ms

variable {depth budget : Nat} {rest : Text}

/-! ### The style of logs -/

/-- On one line, items after another one are written after a comma and a blank. -/
theorem writeItems_line (v : Json) (vs : List Json) :
    writeItems .line depth (v :: vs) = .scalar ',' :: .scalar ' ' :: itemsText depth (v :: vs) := by
  rw [writeItems, List.append_assoc]
  rfl

/-- On one line, members after another one are written after a comma and a blank. -/
theorem writeMembers_line (m : Text × Json) (ms : List (Text × Json)) :
    writeMembers .line depth (m :: ms) =
      .scalar ',' :: .scalar ' ' :: membersText depth (m :: ms) := by
  rw [writeMembers, List.append_assoc]
  rfl

/-- On one line, an array with items has nothing but them between its brackets. -/
theorem writeAt_array (v : Json) (vs : List Json) :
    writeAt .line depth (.array (v :: vs)) =
      .scalar '[' :: (itemsText (depth + 1) (v :: vs) ++ [.scalar ']']) := by
  rw [writeAt]
  simp [itemsText, Style.lineBreak, Style.line, Text.ofString]

/-- On one line, an object with members has nothing but them between its braces. -/
theorem writeAt_object (m : Text × Json) (ms : List (Text × Json)) :
    writeAt .line depth (.object (m :: ms)) =
      .scalar '\x7b' :: (membersText (depth + 1) (m :: ms) ++ [.scalar '\x7d']) := by
  rw [writeAt]
  simp [membersText, Style.lineBreak, Style.line, Text.ofString]

/-- On one line, a member is its name, a colon with a blank, and its value. -/
theorem writeMember_line (name : Text) (v : Json) :
    writeMember .line depth (name, v) =
      writeString .line name ++ (.scalar ':' :: .scalar ' ' :: writeAt .line depth v) := by
  rw [writeMember]
  simp [Text.ofString]

/-! ### Numbers -/

/-- What begins with a sign or a digit is read as a number. -/
theorem readValue_of_digit (negative : Bool) {d : Char} (hd : isAsciiDigit d = true) :
    readValue (budget + 1) (signText negative ++ .scalar d :: rest) =
      readNumber (signText negative ++ .scalar d :: rest) := by
  have hhead : ∃ c more, signText negative ++ .scalar d :: rest = .scalar c :: more ∧
      c ≠ '"' ∧ c ≠ '\x7b' ∧ c ≠ '[' := by
    cases negative with
    | true => exact ⟨'-', _, rfl, by decide⟩
    | false =>
        exact ⟨d, _, rfl, ne_of_isAsciiDigit hd rfl, ne_of_isAsciiDigit hd rfl,
          ne_of_isAsciiDigit hd rfl⟩
  have hword : readWord? (signText negative ++ .scalar d :: rest) = none :=
    readWord?_of_digit negative hd
  obtain ⟨c, more, he, h₁, h₂, h₃⟩ := hhead
  rw [he] at hword ⊢
  rw [readValue.eq_def]
  dsimp only
  split
  · rename_i hc
    exact absurd (by simpa using (List.cons.inj hc).1) h₁
  · rename_i hc
    exact absurd (by simpa using (List.cons.inj hc).1) h₂
  · rename_i hc
    exact absurd (by simpa using (List.cons.inj hc).1) h₃
  · rw [hword]

/-- The text of a number is a word, or begins with a sign or a digit and is read as a
number whatever follows it. -/
theorem text_number_cases (x : Binary64) :
    ((x.text .json : Text) ∈ ["NaN", "Infinity", "-Infinity"].map Text.ofString) ∨
      ∃ negative d ds y, isAsciiDigit d = true ∧
        (x.text .json : Text) = signText negative ++ (d :: ds).map .scalar ∧
        ∀ rest, Ends rest →
          readNumber (signText negative ++ ((d :: ds).map .scalar ++ rest)) =
            .ok (.number y, rest) := by
  cases x with
  | nan => exact .inl (by simp [Binary64.text, NumberWords.json])
  | infinity negative =>
      left
      cases negative <;> simp [Binary64.text, NumberWords.json]
  | finite negative m scale =>
      obtain ⟨cs, hlaid, htext⟩ := Binary64.laid_text .json negative m scale
      obtain ⟨y, hy⟩ := readNumber_of_laid negative hlaid
      obtain ⟨d, ds, rfl, hd⟩ := hlaid.exists_cons
      refine .inr ⟨negative, d, ds, y, hd, ?_, hy⟩
      rw [Text.ofString, htext, List.map_append, signText]
      cases negative <;> rfl

/-- A written double-precision number is read as one, though it need not be the same. -/
theorem exists_readValue_number (x : Binary64) :
    ∃ y, ∀ budget rest, Ends rest →
      readValue (budget + 1) ((x.text .json : Text) ++ rest) = .ok (.number y, rest) := by
  rcases text_number_cases x with hword | ⟨negative, d, ds, y, hd, htext, hy⟩
  · simp only [List.map_cons, List.map_nil, List.mem_cons, List.not_mem_nil, or_false] at hword
    rcases hword with h | h | h
    · exact ⟨.nan, fun budget rest _ => by rw [h]; rfl⟩
    · exact ⟨.infinity false, fun budget rest _ => by rw [h]; rfl⟩
    · exact ⟨.infinity true, fun budget rest _ => by rw [h]; rfl⟩
  · refine ⟨y, fun budget rest hr => ?_⟩
    have hnumber := hy rest hr
    rw [List.map_cons, List.cons_append] at hnumber
    rw [htext, List.append_assoc, List.map_cons, List.cons_append, readValue_of_digit _ hd,
      hnumber]

/-- A number is read as the number that its text denotes. -/
theorem readValue_number (x : Binary64) (hr : Ends rest) :
    readValue (budget + 1) ((x.text .json : Text) ++ rest) = .ok (.number (reread x), rest) := by
  obtain ⟨y, hy⟩ := exists_readValue_number x
  have hwhole := hy 0 [] (.inl rfl)
  rw [List.append_nil] at hwhole
  have hreread : reread x = y := by
    rw [reread]
    rw [hwhole]
  rw [hreread]
  exact hy budget rest hr

/-! ### How documents begin -/

/-- A text that begins with something else than a blank, a closing bracket or a byte order
mark. -/
def Opens (t : Text) : Prop :=
  ∃ c more, t = .scalar c :: more ∧ isSpace (.scalar c) = false ∧ c ≠ ']' ∧ c ≠ '\x7d' ∧
    c ≠ '\uFEFF'

/-- Nothing is skipped before a text that begins as documents do. -/
theorem Opens.skipSpace {t : Text} (h : Opens t) : skipSpace t = t := by
  obtain ⟨c, more, rfl, hc, -⟩ := h
  rw [Json.skipSpace, List.dropWhile_cons_of_neg (by rw [hc]; simp)]

/-- One blank before a text that begins as documents do is skipped. -/
theorem Opens.skipSpace_blank {t : Text} (h : Opens t) :
    Json.skipSpace (.scalar ' ' :: t) = t := by
  rw [Json.skipSpace, List.dropWhile_cons_of_pos rfl]
  exact h.skipSpace

/-- A digit begins a document, with or without a sign before it. -/
theorem opens_of_digit (negative : Bool) {d : Char} (hd : isAsciiDigit d = true) :
    Opens (signText negative ++ .scalar d :: rest) := by
  cases negative with
  | true => exact ⟨'-', _, rfl, rfl, by decide⟩
  | false =>
      refine ⟨d, rest, rfl, ?_, ne_of_isAsciiDigit hd rfl, ne_of_isAsciiDigit hd rfl,
        ne_of_isAsciiDigit hd rfl⟩
      have hne (c : Char) (hc : isAsciiDigit c = false) : d ≠ c := ne_of_isAsciiDigit hd hc
      simp [isSpace, hne ' ' rfl, hne '\n' rfl, hne '\r' rfl, hne '\t' rfl]

/-- A document begins with something else than a blank or a closing bracket. -/
theorem opens_writeAt (v : Json) : Opens (writeAt .line depth v) := by
  cases v with
  | null => exact ⟨'n', _, rfl, rfl, by decide⟩
  | bool b => cases b <;> exact ⟨_, _, rfl, rfl, by decide⟩
  | integer n =>
      rw [writeAt, writeInteger_eq]
      obtain ⟨d, ds, he, hd⟩ := (isWhole_toDigits n.natAbs).exists_cons
      rw [he, List.map_cons]
      exact opens_of_digit _ hd
  | number x =>
      rw [writeAt]
      rcases text_number_cases x with hword | ⟨negative, d, ds, y, hd, htext, -⟩
      · simp only [List.map_cons, List.map_nil, List.mem_cons, List.not_mem_nil,
          or_false] at hword
        rcases hword with h | h | h <;> rw [h] <;> exact ⟨_, _, rfl, rfl, by decide⟩
      · rw [htext, List.map_cons]
        exact opens_of_digit _ hd
  | string t =>
      rw [writeAt]
      exact ⟨'"', _, rfl, rfl, by decide⟩
  | array items =>
      cases items with
      | nil => exact ⟨'[', _, rfl, rfl, by decide⟩
      | cons v vs =>
          rw [writeAt_array]
          exact ⟨'[', _, rfl, rfl, by decide⟩
  | object members =>
      cases members with
      | nil => exact ⟨'\x7b', _, rfl, rfl, by decide⟩
      | cons m ms =>
          rw [writeAt_object]
          exact ⟨'\x7b', _, rfl, rfl, by decide⟩

/-! ### Steps of the reader -/

/-- A text that begins as documents do is no closing bracket or brace with something after it. -/
theorem Opens.ne {t : Text} (h : Opens t) (more : Text) :
    t ≠ .scalar ']' :: more ∧ t ≠ .scalar '\x7d' :: more := by
  obtain ⟨c, rest, rfl, -, h₁, h₂, -⟩ := h
  exact ⟨fun he => h₁ (by simpa using (List.cons.inj he).1),
    fun he => h₂ (by simpa using (List.cons.inj he).1)⟩

/-- A text begins as before whatever is put after it. -/
theorem Opens.append {t : Text} (h : Opens t) (rest : Text) : Opens (t ++ rest) := by
  obtain ⟨c, more, rfl, hc⟩ := h
  exact ⟨c, more ++ rest, rfl, hc⟩

variable {inside after more : Text} {items : List Json} {members before : List (Text × Json)}

/-- An array is read once its items are. -/
theorem readValue_array (ho : Opens inside)
    (h : readItems budget inside = .ok (items, after)) :
    readValue (budget + 1) (.scalar '[' :: inside) = .ok (.array items, after) := by
  rw [readValue.eq_def]
  simp only [ho.skipSpace]
  split
  · exact absurd rfl (ho.ne _).1
  · rw [h]
    rfl

/-- Blanks may stand before the first member of an object. -/
theorem readValue_object {t : Text} (ht : skipSpace t = inside) (ho : Opens inside)
    (h : readMembers budget [] inside = .ok (members, after)) :
    readValue (budget + 1) (.scalar '\x7b' :: t) = .ok (.object members, after) := by
  rw [readValue.eq_def]
  simp only [ht]
  split
  · exact absurd rfl (ho.ne _).2
  · rw [h]
    rfl

/-- A string is read back, whatever follows it. -/
theorem readValue_string {t rest : Text} (ht : t.IsScalar) :
    readValue (budget + 1) (writeString .line t ++ rest) = .ok (.string t, rest) := by
  have htext : writeString .line t ++ rest =
      .scalar '"' :: (t.flatMap (writePoint .line) ++ .scalar '"' :: rest) := by
    simp [writeString]
  rw [htext]
  change (readString _ _).map _ = _
  rw [readString_writeString ht]
  rfl

/-- The last item is the one with the closing bracket after it. -/
theorem readItems_last {t : Text} {v : Json}
    (h : readValue budget t = .ok (v, .scalar ']' :: after)) :
    readItems (budget + 1) t = .ok ([v], after) := by
  rw [readItems, h]
  rfl

/-- An item with a comma after it is read before the others. -/
theorem readItems_next {t : Text} {v : Json} (ho : Opens more)
    (h : readValue budget t = .ok (v, .scalar ',' :: .scalar ' ' :: more))
    (hnext : readItems budget more = .ok (items, after)) :
    readItems (budget + 1) t = .ok (v :: items, after) := by
  rw [readItems, h]
  change readItems budget (skipSpace (.scalar ' ' :: more)) >>=
    (fun read => pure (v :: read.1, read.2)) = _
  rw [ho.skipSpace_blank, hnext]
  rfl

/-- The name of a member and the colon are read. -/
theorem readMembers_eq {name : Text} (hn : name.IsScalar) (ho : Opens inside) :
    readMembers (budget + 1) before
        (writeString .line name ++ (.scalar ':' :: .scalar ' ' :: inside)) =
      (do
        let (value, rest) ← readValue budget inside
        match skipSpace rest with
        | .scalar '\x7d' :: after => return (insert name value before, after)
        | .scalar ',' :: more => readMembers budget (insert name value before) (skipSpace more)
        | rest => .error (.form .comma rest)) := by
  have htext : writeString .line name ++ (.scalar ':' :: .scalar ' ' :: inside) =
      .scalar '"' :: (name.flatMap (writePoint .line) ++
        .scalar '"' :: .scalar ':' :: .scalar ' ' :: inside) := by
    simp [writeString]
  rw [htext, readMembers]
  dsimp only
  rw [readString_writeString hn]
  change (do
    let (value, rest) ← readValue budget (skipSpace (.scalar ' ' :: inside))
    match skipSpace rest with
    | .scalar '\x7d' :: after => return (insert name value before, after)
    | .scalar ',' :: more => readMembers budget (insert name value before) (skipSpace more)
    | rest => .error (.form .comma rest)) = _
  rw [ho.skipSpace_blank]

/-- The last member is the one with the closing brace after it. -/
theorem readMembers_last {name : Text} {v : Json} (hn : name.IsScalar) (ho : Opens inside)
    (h : readValue budget inside = .ok (v, .scalar '\x7d' :: after)) :
    readMembers (budget + 1) before
        (writeString .line name ++ (.scalar ':' :: .scalar ' ' :: inside)) =
      .ok (insert name v before, after) := by
  rw [readMembers_eq hn ho, h]
  rfl

/-- A member with a comma after it is added before the others are read. -/
theorem readMembers_next {name : Text} {v : Json} (hn : name.IsScalar) (ho : Opens inside)
    (h : readValue budget inside = .ok (v, .scalar ',' :: .scalar ' ' :: more))
    (hmore : Opens more)
    (hnext : readMembers budget (insert name v before) more = .ok (members, after)) :
    readMembers (budget + 1) before
        (writeString .line name ++ (.scalar ':' :: .scalar ' ' :: inside)) =
      .ok (members, after) := by
  rw [readMembers_eq hn ho, h]
  change readMembers budget (insert name v before) (skipSpace (.scalar ' ' :: more)) = _
  rw [hmore.skipSpace_blank, hnext]

/-! ### Reading back -/

/-- Written items begin as documents do. -/
theorem opens_itemsText (v : Json) (vs : List Json) : Opens (itemsText depth (v :: vs)) :=
  (opens_writeAt v).append _

/-- Written members begin as documents do, with the quote of a name. -/
theorem opens_membersText (m : Text × Json) (ms : List (Text × Json)) :
    Opens (membersText depth (m :: ms)) := by
  obtain ⟨name, v⟩ := m
  rw [membersText, writeMember_line]
  exact ⟨'"', _, rfl, rfl, by decide⟩

/-- A budget above twice the length of a text that is not empty is not used up. -/
theorem exists_budget {t : Text} (ho : Opens t) (hb : 2 * t.length ≤ budget) :
    ∃ b, budget = b + 1 := by
  obtain ⟨c, more, rfl, -⟩ := ho
  rw [List.length_cons] at hb
  exact ⟨budget - 1, by omega⟩

mutual

/-- A value is read back, whatever follows it. -/
theorem readValue_writeAt (depth : Nat) :
    ∀ (v : Json) (budget : Nat) (rest : Text), (writeAt .line depth v).IsScalar →
      v.IsReadable → 2 * (writeAt .line depth v).length ≤ budget →
      Ends rest → readValue budget (writeAt .line depth v ++ rest) = .ok (echo v, rest)
  | .null, budget, rest, _, _, hb, _ => by
      obtain ⟨b, rfl⟩ := exists_budget (opens_writeAt .null) hb
      rfl
  | .bool true, budget, rest, _, _, hb, _ => by
      obtain ⟨b, rfl⟩ := exists_budget (opens_writeAt (.bool true)) hb
      rfl
  | .bool false, budget, rest, _, _, hb, _ => by
      obtain ⟨b, rfl⟩ := exists_budget (opens_writeAt (.bool false)) hb
      rfl
  | .integer n, budget, rest, _, hn, hb, hr => by
      obtain ⟨b, rfl⟩ := exists_budget (opens_writeAt (.integer n)) hb
      have hnumber : readNumber (writeInteger n ++ rest) = .ok (.integer n, rest) :=
        readNumber_writeInteger (by simpa [Holds] using hn) hr
      obtain ⟨d, ds, he, hd⟩ := (isWhole_toDigits n.natAbs).exists_cons
      rw [writeAt]
      rw [writeInteger_eq, he, List.map_cons, List.append_assoc, List.cons_append] at hnumber ⊢
      rw [readValue_of_digit _ hd, hnumber, echo]
  | .number x, budget, rest, _, _, hb, hr => by
      obtain ⟨b, rfl⟩ := exists_budget (opens_writeAt (.number x)) hb
      exact readValue_number x hr
  | .string t, budget, rest, ht, _, hb, _ => by
      obtain ⟨b, rfl⟩ := exists_budget (opens_writeAt (.string t)) hb
      rw [writeAt] at ht ⊢
      exact readValue_string (isScalar_of_writeString ht)
  | .array [], budget, rest, _, _, hb, _ => by
      obtain ⟨b, rfl⟩ := exists_budget (opens_writeAt (.array [])) hb
      rfl
  | .array (v :: vs), budget, rest, hs, hn, hb, _ => by
      obtain ⟨b, rfl⟩ := exists_budget (opens_writeAt (.array (v :: vs))) hb
      rw [writeAt_array] at hs hb ⊢
      rw [Text.isScalar_cons, Text.isScalar_append] at hs
      rw [List.length_cons, List.length_append, List.length_singleton] at hb
      rw [List.cons_append, List.append_assoc, List.singleton_append]
      have hitems := readItems_itemsText (depth + 1) (v :: vs) b rest (by simp) hs.2.1
        (by simpa [Holds] using hn) (by omega)
      exact readValue_array ((opens_itemsText v vs).append _) hitems
  | .object [], budget, rest, _, _, hb, _ => by
      obtain ⟨b, rfl⟩ := exists_budget (opens_writeAt (.object [])) hb
      rfl
  | .object (m :: ms), budget, rest, hs, hn, hb, _ => by
      obtain ⟨b, rfl⟩ := exists_budget (opens_writeAt (.object (m :: ms))) hb
      rw [writeAt_object] at hs hb ⊢
      rw [Text.isScalar_cons, Text.isScalar_append] at hs
      rw [List.length_cons, List.length_append, List.length_singleton] at hb
      rw [List.cons_append, List.append_assoc, List.singleton_append]
      have hmembers := readMembers_membersText (depth + 1) (m :: ms) [] b rest (by simp) hs.2.1
        (by simpa [Holds] using hn) (by omega)
      have hopens : Opens (membersText (depth + 1) (m :: ms) ++ .scalar '\x7d' :: rest) :=
        (opens_membersText m ms).append _
      exact readValue_object hopens.skipSpace hopens hmembers

/-- Items are read back up to the closing bracket. -/
theorem readItems_itemsText (depth : Nat) :
    ∀ (items : List Json) (budget : Nat) (rest : Text), items ≠ [] →
      (itemsText depth items).IsScalar → ItemsHold (fun _ => True) IsShort items →
      2 * (itemsText depth items).length < budget →
      readItems budget (itemsText depth items ++ .scalar ']' :: rest) = .ok (echoItems items, rest)
  | [], _, _, hne, _, _, _ => absurd rfl hne
  | [v], budget, rest, _, hs, hn, hb => by
      obtain ⟨b, rfl⟩ : ∃ b, budget = b + 1 := ⟨budget - 1, by omega⟩
      simp only [itemsText, writeItems, List.append_nil] at hs hb ⊢
      exact readItems_last (readValue_writeAt depth v b (.scalar ']' :: rest) hs hn.1 (by omega)
        (.inr ⟨']', rest, rfl, .inr (.inl rfl)⟩))
  | v :: w :: ws, budget, rest, _, hs, hn, hb => by
      obtain ⟨b, rfl⟩ : ∃ b, budget = b + 1 := ⟨budget - 1, by omega⟩
      rw [itemsText, writeItems_line] at hs hb ⊢
      rw [Text.isScalar_append, Text.isScalar_cons, Text.isScalar_cons] at hs
      rw [List.length_append, List.length_cons, List.length_cons] at hb
      rw [List.append_assoc, List.cons_append, List.cons_append]
      have hvalue := readValue_writeAt depth v b
        (.scalar ',' :: .scalar ' ' :: (itemsText depth (w :: ws) ++ .scalar ']' :: rest))
        hs.1 hn.1 (by omega) (.inr ⟨',', _, rfl, .inl rfl⟩)
      have hnext := readItems_itemsText depth (w :: ws) b rest (by simp) hs.2.2.2 hn.2 (by omega)
      exact readItems_next ((opens_itemsText w ws).append _) hvalue hnext

/-- The value of a member is read back. -/
theorem readValue_member (depth : Nat) :
    ∀ (m : Text × Json) (budget : Nat) (rest : Text), (writeAt .line depth m.2).IsScalar →
      MemberHolds (fun _ => True) IsShort m → 2 * (writeAt .line depth m.2).length ≤ budget →
      Ends rest → readValue budget (writeAt .line depth m.2 ++ rest) = .ok ((echoMember m).2, rest)
  | (_, v), budget, rest, hs, hn, hb, hr => readValue_writeAt depth v budget rest hs hn.2 hb hr

/-- Members are read back up to the closing brace. -/
theorem readMembers_membersText (depth : Nat) :
    ∀ (members before : List (Text × Json)) (budget : Nat) (rest : Text), members ≠ [] →
      (membersText depth members).IsScalar → AreReadable members →
      2 * (membersText depth members).length < budget →
      readMembers budget before (membersText depth members ++ .scalar '\x7d' :: rest) =
        .ok (echoMembers before members, rest)
  | [], _, _, _, hne, _, _, _ => absurd rfl hne
  | [m], before, budget, rest, _, hs, hn, hb => by
      obtain ⟨b, rfl⟩ : ∃ b, budget = b + 1 := ⟨budget - 1, by omega⟩
      rw [membersText, writeMembers, List.append_nil, writeMember_line] at hs hb ⊢
      rw [Text.isScalar_append, Text.isScalar_cons, Text.isScalar_cons] at hs
      rw [List.length_append, List.length_cons, List.length_cons] at hb
      rw [List.append_assoc, List.cons_append, List.cons_append]
      have hvalue := readValue_member depth m b (.scalar '\x7d' :: rest) hs.2.2.2 hn.1 (by omega)
        (.inr ⟨'\x7d', rest, rfl, .inr (.inr rfl)⟩)
      exact readMembers_last (isScalar_of_writeString hs.1) ((opens_writeAt m.2).append _) hvalue
  | m :: k :: ks, before, budget, rest, _, hs, hn, hb => by
      obtain ⟨b, rfl⟩ : ∃ b, budget = b + 1 := ⟨budget - 1, by omega⟩
      rw [membersText, writeMembers_line, writeMember_line] at hs hb ⊢
      simp only [Text.isScalar_append, Text.isScalar_cons] at hs
      simp only [List.length_append, List.length_cons] at hb
      simp only [List.append_assoc, List.cons_append]
      have hvalue := readValue_member depth m b
        (.scalar ',' :: .scalar ' ' :: (membersText depth (k :: ks) ++ .scalar '\x7d' :: rest))
        hs.1.2.2.2 hn.1 (by omega) (.inr ⟨',', _, rfl, .inl rfl⟩)
      have hnext := readMembers_membersText depth (k :: ks) (insert m.1 (echoMember m).2 before) b
        rest (by simp) hs.2.2.2 hn.2 (by omega)
      exact readMembers_next (isScalar_of_writeString hs.1.1) ((opens_writeAt m.2).append _) hvalue
        ((opens_membersText k ks).append _) hnext

end

/-- **What a written document is read as.** -/
theorem parse_write {v : Json} (hs : (write .line v).IsScalar)
    (hn : v.IsReadable) : parse (write .line v) = .ok (echo v) := by
  have hopens : Opens (write .line v) := opens_writeAt v
  have hmark : (write .line v).head? ≠ some (.scalar '\uFEFF') := by
    obtain ⟨c, more, he, -, -, -, hc⟩ := hopens
    rw [he]
    simpa using hc
  have hdocument : readDocument (write .line v) = .ok (echo v) := by
    have hread := readValue_writeAt 0 v (2 * (write .line v).length + 1) [] hs hn
      (by simp [write]) (.inl rfl)
    rw [List.append_nil, ← write] at hread
    rw [readDocument]
    rw [if_neg hmark, hopens.skipSpace, hread]
    rfl
  rw [parse]
  rw [hdocument]

end Json

end CommandGate
