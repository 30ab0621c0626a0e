import CommandGate.Json.Reader

/-!
# Steps of the Reader

The reader of items and the reader of members take one step and go on from there. What they
do next, and what the reader of values does behind an opening bracket, depends only on the
next mark after the blanks. The equations here say so, one for each mark, so that nothing
else about the reader has to be unfolded.

## Main results

* `Json.readItems_succ` and `Json.readMembers_succ`: one step, and what comes after it.
-/

namespace CommandGate

namespace Json

variable {budget : Nat} {t rest after inside : Text} {v : Json} {members : List (Text × Json)}

/-! ### One step of the reader -/

/-- A colon and the value that a member with a name has after it. -/
def valueAfter (budget : Nat) (name rest : Text) : Except Fault ((Text × Json) × Text) :=
  match skipSpace rest with
  | .scalar ':' :: rest => (readValue budget (skipSpace rest)).map fun r => ((name, r.1), r.2)
  | rest => .error (.form .colon rest)

/-- A member at the beginning of a text: its name, a colon, and its value. -/
def readMember (budget : Nat) : Text → Except Fault ((Text × Json) × Text)
  | .scalar '"' :: rest =>
    readString (.scalar '"' :: rest) rest >>= fun r => valueAfter budget r.1 r.2
  | t => .error (.form .memberName t)

/-- The items from one that was read up to the closing bracket. -/
def itemsAfter (budget : Nat) (value : Json) (rest : Text) : Except Fault (List Json × Text) :=
  match skipSpace rest with
  | .scalar ']' :: after => .ok ([value], after)
  | .scalar ',' :: more => (readItems budget (skipSpace more)).map fun r => (value :: r.1, r.2)
  | rest => .error (.form .comma rest)

/-- The members from one that was read and added up to the closing brace. -/
def membersAfter (budget : Nat) (members : List (Text × Json)) (rest : Text) :
    Except Fault (List (Text × Json) × Text) :=
  match skipSpace rest with
  | .scalar '\x7d' :: after => .ok (members, after)
  | .scalar ',' :: more => readMembers budget members (skipSpace more)
  | rest => .error (.form .comma rest)

/-- The reader of items reads a value, and goes on after it. -/
theorem readItems_succ (budget : Nat) (t : Text) :
    readItems (budget + 1) t =
      readValue budget t >>= fun r => itemsAfter budget r.1 r.2 := by
  rw [readItems]
  rfl

/-! ### A member -/

/-- After the colon stands the value of a member. -/
theorem valueAfter_colon {name : Text} (h : skipSpace rest = .scalar ':' :: inside) :
    valueAfter budget name rest =
      (readValue budget (skipSpace inside)).map fun r => ((name, r.1), r.2) := by
  rw [valueAfter, h]
  rfl

/-- Without a colon after its name, a member is refused at that point. -/
theorem valueAfter_other {name : Text} (h : (skipSpace rest).head? ≠ some (.scalar ':')) :
    valueAfter budget name rest = .error (.form .colon (skipSpace rest)) := by
  rw [valueAfter.eq_def]
  generalize skipSpace rest = following at h
  split
  · exact absurd rfl h
  · rfl

/-- Without a quote where its name should begin, a member is refused at that point. -/
theorem readMember_other (h : t.head? ≠ some (.scalar '"')) :
    readMember budget t = .error (.form .memberName t) := by
  rw [readMember.eq_def]
  split
  · exact absurd rfl h
  · rfl

/-- The reader of members reads one, inserts it, and goes on after it. -/
theorem readMembers_succ (budget : Nat) (before : List (Text × Json)) (t : Text) :
    readMembers (budget + 1) before t =
      readMember budget t >>= fun r => membersAfter budget (insert r.1.1 r.1.2 before) r.2 := by
  by_cases hq : t.head? = some (.scalar '"')
  · obtain ⟨more, rfl⟩ := List.head?_eq_some_iff.mp hq
    rw [readMembers, readMember]
    cases readString (.scalar '"' :: more) more with
    | error f => rfl
    | ok r =>
        dsimp only [Bind.bind, Except.bind]
        by_cases hcolon : (skipSpace r.2).head? = some (.scalar ':')
        · obtain ⟨inside, hinside⟩ := List.head?_eq_some_iff.mp hcolon
          rw [valueAfter_colon hinside, hinside]
          change (readValue budget (skipSpace inside) >>= fun v =>
            membersAfter budget (insert r.1 v.1 before) v.2) = _
          cases readValue budget (skipSpace inside) <;> rfl
        · rw [valueAfter_other hcolon]
          generalize skipSpace r.2 = following at hcolon
          split
          · exact absurd rfl hcolon
          · rfl
  · rw [readMember_other hq, readMembers.eq_def]
    dsimp only
    split
    · exact absurd rfl hq
    · rfl

/-! ### What the next mark decides -/

/-- Values that begin with no quote and no opening bracket are words and numbers. -/
theorem readValue_plain (hq : t.head? ≠ some (.scalar '"')) (ho : t.head? ≠ some (.scalar '\x7b'))
    (ha : t.head? ≠ some (.scalar '[')) :
    readValue (budget + 1) t = match readWord? t with
      | some found => .ok found
      | none => readNumber t := by
  rw [readValue.eq_def]
  dsimp only
  split
  · exact absurd rfl hq
  · exact absurd rfl ho
  · exact absurd rfl ha
  · rfl

/-- A bracket that is not closed at once has items after it. -/
theorem readValue_openBracket (h : (skipSpace t).head? ≠ some (.scalar ']')) :
    readValue (budget + 1) (.scalar '[' :: t) =
      (readItems budget (skipSpace t)).map fun r => (.array r.1, r.2) := by
  rw [readValue]
  split
  · rename_i hclose
    rw [hclose] at h
    exact absurd rfl h
  · rfl

/-- A bracket that is closed at once is the empty array. -/
theorem readValue_closedBracket (h : skipSpace t = .scalar ']' :: after) :
    readValue (budget + 1) (.scalar '[' :: t) = .ok (.array [], after) := by
  rw [readValue]
  simp only [h]

/-- A brace that is not closed at once has members after it. -/
theorem readValue_openBrace (h : (skipSpace t).head? ≠ some (.scalar '\x7d')) :
    readValue (budget + 1) (.scalar '\x7b' :: t) =
      (readMembers budget [] (skipSpace t)).map fun r => (.object r.1, r.2) := by
  rw [readValue]
  split
  · rename_i hclose
    rw [hclose] at h
    exact absurd rfl h
  · rfl

/-- A brace that is closed at once is the empty object. -/
theorem readValue_closedBrace (h : skipSpace t = .scalar '\x7d' :: after) :
    readValue (budget + 1) (.scalar '\x7b' :: t) = .ok (.object [], after) := by
  rw [readValue]
  simp only [h]

/-- A closing bracket ends the items. -/
theorem itemsAfter_close (h : skipSpace rest = .scalar ']' :: after) :
    itemsAfter budget v rest = .ok ([v], after) := by
  rw [itemsAfter, h]
  rfl

/-- After a comma the items go on. -/
theorem itemsAfter_comma (h : skipSpace rest = .scalar ',' :: inside) :
    itemsAfter budget v rest =
      (readItems budget (skipSpace inside)).map fun r => (v :: r.1, r.2) := by
  rw [itemsAfter, h]
  rfl

/-- Anything else than a comma or a closing bracket is refused after an item. -/
theorem itemsAfter_other (hc : (skipSpace rest).head? ≠ some (.scalar ']'))
    (hn : (skipSpace rest).head? ≠ some (.scalar ',')) :
    itemsAfter budget v rest = .error (.form .comma (skipSpace rest)) := by
  rw [itemsAfter.eq_def]
  generalize skipSpace rest = following at hc hn
  split
  · exact absurd rfl hc
  · exact absurd rfl hn
  · rfl

theorem membersAfter_close (h : skipSpace rest = .scalar '\x7d' :: after) :
    membersAfter budget members rest = .ok (members, after) := by
  rw [membersAfter, h]
  rfl

theorem membersAfter_comma (h : skipSpace rest = .scalar ',' :: inside) :
    membersAfter budget members rest = readMembers budget members (skipSpace inside) := by
  rw [membersAfter, h]
  rfl

/-- Anything else than a comma or a closing brace is refused after a member. -/
theorem membersAfter_other (hc : (skipSpace rest).head? ≠ some (.scalar '\x7d'))
    (hn : (skipSpace rest).head? ≠ some (.scalar ',')) :
    membersAfter budget members rest = .error (.form .comma (skipSpace rest)) := by
  rw [membersAfter.eq_def]
  generalize skipSpace rest = following at hc hn
  split
  · exact absurd rfl hc
  · exact absurd rfl hn
  · rfl

end Json

end CommandGate
