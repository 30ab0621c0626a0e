import CommandGate.Proofs.Json.Reading
import CommandGate.Telemetry
import Mathlib.Tactic.SplitIfs

/-!
# What Is Left for the Schema

The members of a record are checked against the schema of records after the name, the payload
and the level of the event have passed their own checks. These ask for more than the schema does,
and the members are those that the schema knows, so nothing but the status can be against it. The
four arguments can then be looked at one after another (`Telemetry.Record.of_eq_bind`).

## Main results

* `Telemetry.Record.schema_admits_iff`: only the status can be against the schema.
* `Telemetry.Record.toJson_eq`: what is recorded of an event.
-/

namespace CommandGate

namespace Telemetry

namespace Record

variable {e : Event} {time : Binary64} {name : Text} {members : List (Text × Json)} {level : Level}
variable {status : Json} {r : Record}

/-! ### Arguments that pass their own checks -/

/-- A name that passes is a string that is not blank. -/
theorem eventOf_eq_ok {j : Json} (h : eventOf j = .ok name) :
    j = .string name ∧ name.isBlank = false := by
  cases j with
  | string t =>
      rw [eventOf] at h
      split_ifs at h with hblank
      obtain rfl := Except.ok.inj h
      exact ⟨rfl, by simpa using hblank⟩
  | _ => cases h

/-- A payload that passes is recorded as an object. -/
theorem payloadOf_eq_ok {j : Json} (h : payloadOf j = .ok members) :
    (if j.isVacant then .object [] else j) = Json.object members := by
  unfold payloadOf at h
  split_ifs at h with hvacant
  · obtain rfl := Except.ok.inj h
    rw [if_pos hvacant]
  · cases j with
    | object ms =>
        obtain rfl := Except.ok.inj h
        rw [if_neg hvacant]
    | _ => cases h

/-- A level that passes is the name of one. -/
theorem levelOf_eq_ok {j : Json} (h : levelOf j = .ok level) : j = .string level.name := by
  cases j with
  | string t =>
      simp only [levelOf] at h
      split at h
      · rename_i l hfind
        obtain rfl := Except.ok.inj h
        have hname := List.find?_some hfind
        rw [of_decide_eq_true hname]
      · cases h
  | _ => cases h

/-! ### The schema -/

/-- The type of strings is that of the values that are strings. -/
theorem admits_string_iff {j : Json} :
    (Json.Keyword.type .string).admits j = true ↔ ∃ t, j = .string t := by
  cases j <;> simp [Json.Keyword.admits, Json.Kind.admits]

/-- A name that is not blank is as the schema asks. -/
theorem admits_name (h : name.isBlank = false) :
    (Json.Keyword.minLength 1).admits (.string name) = true := by
  cases name with
  | nil => cases h
  | cons c rest => simp [Json.Keyword.admits]

/-- So is the name of a level. -/
theorem admits_level (level : Level) :
    (Json.Keyword.enum ["info", "warn", "error"]).admits (.string level.name) = true := by
  cases level <;> decide

/-- **Only the status can be against the schema**, once the other arguments have passed their own
checks. -/
theorem schema_admits_iff (hname : eventOf e.name = .ok name)
    (hpayload : payloadOf e.payload = .ok members) (hlevel : levelOf e.level = .ok level) :
    schema.admits (.object (e.members time)) = true ↔
      e.status.isVacant = true ∨ ∃ t, e.status = .string t := by
  obtain ⟨hname, hblank⟩ := eventOf_eq_ok hname
  have htime : (Json.Keyword.type .number).admits (.number time) = true := rfl
  have hstring : (Json.Keyword.type .string).admits (.string name) = true := rfl
  have hobject : (Json.Keyword.type .object).admits (.object members) = true := rfl
  rw [Event.members, hname, payloadOf_eq_ok hpayload, levelOf_eq_ok hlevel]
  split_ifs with hvacant
  · simp [Json.Schema.admits, schema, Json.member?, Text.ofString_inj, hvacant, htime, hstring,
      hobject, admits_name hblank, admits_level]
  · simp [Json.Schema.admits, schema, Json.member?, Text.ofString_inj, hvacant, htime, hstring,
      hobject, admits_name hblank, admits_level, admits_string_iff]

/-! ### One argument after another -/

/-- The status of an event, as the schema leaves it: a string, or something vacant. -/
def statusOf (status : Json) : Except RecordFault (Option Text) :=
  if status.isVacant then .ok none
  else match status with
    | .string t => .ok (some t)
    | _ => .error (.status status)

/-- A status that can be recorded is the one that is given. -/
theorem statusOf_eq_ok (h : status.isVacant = true ∨ ∃ t, status = .string t) :
    statusOf status = .ok (givenStatus status) := by
  unfold statusOf
  cases status with
  | string t => cases t <;> rfl
  | _ =>
      rw [if_pos (h.resolve_right nofun)]
      rfl

/-- Any other status is a fault. -/
theorem statusOf_eq_error (h : ¬ (status.isVacant = true ∨ ∃ t, status = .string t)) :
    statusOf status = .error (.status status) := by
  unfold statusOf
  rw [if_neg fun hvacant => h (.inl hvacant)]
  cases status with
  | string t => exact absurd (.inr ⟨t, rfl⟩) h
  | _ => rfl

/-- **The arguments of an event are looked at one after another.** -/
theorem of_eq_bind (time : Binary64) (e : Event) :
    Record.of time e = do
      let event ← eventOf e.name
      let payload ← payloadOf e.payload
      let level ← levelOf e.level
      let status ← statusOf e.status
      return { time, event, payload, level, status } := by
  rw [Record.of]
  cases hname : eventOf e.name with
  | error fault => rfl
  | ok name =>
      cases hpayload : payloadOf e.payload with
      | error fault => rfl
      | ok members =>
          cases hlevel : levelOf e.level with
          | error fault => rfl
          | ok level =>
              have hadmits : schema.admits (.object (e.members time)) = true ↔ _ :=
                schema_admits_iff hname hpayload hlevel
              by_cases hgiven : e.status.isVacant = true ∨ ∃ t, e.status = .string t
              · rw [statusOf_eq_ok hgiven]
                exact if_pos (hadmits.mpr hgiven)
              · rw [statusOf_eq_error hgiven]
                exact if_neg (mt hadmits.mp hgiven)

/-! ### What is recorded -/

/-- The status of a record is written unless none is given. -/
theorem toList_givenStatus (h : status.isVacant = true ∨ ∃ t, status = .string t) :
    ((givenStatus status).map fun t => (Text.ofString "status", Json.string t)).toList =
      if status.isVacant then [] else [(Text.ofString "status", status)] := by
  cases status with
  | string t => cases t <;> rfl
  | _ =>
      rw [if_pos (h.resolve_right nofun)]
      rfl

/-- **What is recorded of an event** are its members, which are as the schema asks. -/
theorem toJson_eq (h : Record.of time e = .ok r) :
    r.toJson = .object (e.members time) ∧ schema.admits (.object (e.members time)) = true := by
  rw [Record.of] at h
  obtain ⟨name, hname, h⟩ := Except.bind_eq_ok_iff.mp h
  obtain ⟨members, hpayload, h⟩ := Except.bind_eq_ok_iff.mp h
  obtain ⟨level, hlevel, h⟩ := Except.bind_eq_ok_iff.mp h
  split_ifs at h with hadmits
  obtain rfl := Except.ok.inj h
  have hgiven := (schema_admits_iff hname hpayload hlevel).mp hadmits
  refine ⟨?_, hadmits⟩
  rw [toJson, toList_givenStatus hgiven, Event.members, payloadOf_eq_ok hpayload,
    (eventOf_eq_ok hname).1, levelOf_eq_ok hlevel]

end Record

end Telemetry

end CommandGate
