import CommandGate.Proofs.Json.RoundTrip
import CommandGate.Proofs.Telemetry.Recording

/-!
# Logs

A log is well formed (`Telemetry.WellFormed`) if it is the UTF-8 form of lines, each of them
ended by one line feed and free of other line breaks, and each of them the document of a
record. The line of a record is one that can be added to such a log, whatever texts and
numbers its particulars hold: the writer escapes line breaks, and what it writes is read back
as an object of the same names.

## Main results

* `Telemetry.Record.isRecordLine`: the line of a record is a line of a log.
* `Telemetry.appendLine_extends`: appending it extends a log and keeps it well formed.
-/

namespace CommandGate

namespace Telemetry

open FileTree

/-- A JSON number, whole or of double precision. -/
def IsNumber : Json → Prop
  | .integer _ => True
  | .number _ => True
  | _ => False

/-- The members of a record as a log holds it, in any order. -/
structure IsRecord (members : List (Text × Json)) : Prop where
  names : ∀ m ∈ members,
    m.1 ∈ ["ts", "event", "payload", "level", "status"].map Text.ofString
  time : ∃ v, Json.member? "ts" members = some v ∧ IsNumber v
  event : ∃ t, Json.member? "event" members = some (.string t) ∧ t.isBlank = false
  payload : ∃ ms, Json.member? "payload" members = some (.object ms)
  level : ∃ l : Level, Json.member? "level" members = some (.string l.name)
  status : ∀ v, Json.member? "status" members = some v → ∃ t, v = .string t ∧ t ≠ []

/-- A line of a log, without its end. -/
def IsRecordLine (line : Text) : Prop :=
  Json.LineFree line ∧ ∃ members, Json.parse line = .ok (.object members) ∧ IsRecord members

/-- The bytes of a well-formed log. -/
def WellFormed (bytes : Bytes) : Prop :=
  ∃ lines : List Text, Utf8.decode bytes = .ok (lines.flatMap fun line => line ++ "\n") ∧
    ∀ line ∈ lines, IsRecordLine line

theorem wellFormed_nil : WellFormed [] :=
  ⟨[], rfl, by simp⟩

/-- A line of a log may be added to a well-formed log. -/
theorem WellFormed.append {bytes more : Bytes} {line : Text} (h : WellFormed bytes)
    (hl : IsRecordLine line) (he : Utf8.encode (line ++ "\n") = .ok more) :
    WellFormed (bytes ++ more) := by
  obtain ⟨lines, hlines, hall⟩ := h
  refine ⟨lines ++ [line], ?_, ?_⟩
  · rw [Utf8.decode_append_encode hlines he, List.flatMap_append, List.flatMap_singleton]
  · intro l hm
    rcases List.mem_append.mp hm with hm | hm
    · exact hall l hm
    · rwa [List.mem_singleton.mp hm]

namespace Record

/-- What is true of every record that is made of an event with readable particulars. -/
structure Proper (r : Record) : Prop where
  event : r.event.isBlank = false
  payload : Json.AreReadable r.payload
  status : ∀ t ∈ r.status, t ≠ []

/-- A record that is made of an event with readable particulars is proper. -/
theorem proper_of {time : Binary64} {e : Event} {r : Record} (h : Record.of time e = .ok r)
    (hp : e.payload.IsReadable) : r.Proper := by
  rw [of_eq_bind] at h
  obtain ⟨event, hevent, h⟩ := Except.bind_eq_ok_iff.mp h
  obtain ⟨payload, hpayload, h⟩ := Except.bind_eq_ok_iff.mp h
  obtain ⟨level, -, h⟩ := Except.bind_eq_ok_iff.mp h
  obtain ⟨status, hstatus, h⟩ := Except.bind_eq_ok_iff.mp h
  obtain rfl := Except.ok.inj h
  refine ⟨?_, ?_, ?_⟩
  · exact (eventOf_eq_ok hevent).2
  · simp only [payloadOf] at hpayload
    split at hpayload
    · obtain rfl := Except.ok.inj hpayload
      exact Json.areReadable_nil
    · split at hpayload
      · rename_i members hm
        obtain rfl := Except.ok.inj hpayload
        rw [hm] at hp
        exact hp
      · simp at hpayload
  · simp only [statusOf] at hstatus
    split at hstatus
    · obtain rfl := Except.ok.inj hstatus
      simp
    · rename_i hv
      split at hstatus
      · rename_i t ht
        obtain rfl := Except.ok.inj hstatus
        rw [ht] at hv
        rintro _ ⟨⟩ rfl
        exact hv rfl
      · simp at hstatus

variable {r : Record}

/-- What the document of a record is read as. -/
theorem echo_toJson (r : Record) :
    r.toJson.echo = .object
      ([(Text.ofString "ts", .number (Json.reread r.time)),
        (Text.ofString "event", .string r.event),
        (Text.ofString "payload", .object (Json.echoMembers [] r.payload)),
        (Text.ofString "level", .string r.level.name)] ++
        (r.status.map fun t => (Text.ofString "status", Json.string t)).toList) := by
  rw [toJson]
  cases r.status <;> rfl

/-- The members that the document of a record is read as are those of a record. -/
theorem Proper.isRecord (h : r.Proper) :
    ∃ members, r.toJson.echo = .object members ∧ IsRecord members := by
  refine ⟨_, echo_toJson r, ?_⟩
  have hstatus := h.status
  cases hs : r.status with
  | none =>
      exact {
        names := by simp
        time := ⟨_, rfl, trivial⟩
        event := ⟨_, rfl, h.event⟩
        payload := ⟨_, rfl⟩
        level := ⟨r.level, rfl⟩
        status := by
          intro v hv
          cases hv }
  | some t =>
      rw [hs] at hstatus
      exact {
        names := by simp
        time := ⟨_, rfl, trivial⟩
        event := ⟨_, rfl, h.event⟩
        payload := ⟨_, rfl⟩
        level := ⟨r.level, rfl⟩
        status := by
          intro v hv
          obtain rfl : Json.string t = v := Option.some.inj hv
          exact ⟨t, rfl, hstatus t rfl⟩ }

/-- A record with readable particulars is readable. -/
theorem Proper.isReadable_toJson (h : r.Proper) : r.toJson.IsReadable := by
  have hp := h.payload
  rw [toJson, Json.IsReadable]
  cases r.status <;> simp [Json.Holds, Json.MembersHold, Json.MemberHolds, hp]

/-- **The line of a record** is a line of a log if it has an encoded form. -/
theorem Proper.isRecordLine (h : r.Proper) (hs : r.line.IsScalar) :
    IsRecordLine (Json.write .line r.toJson) := by
  have hread := h.isReadable_toJson
  rw [line, Text.isScalar_append] at hs
  obtain ⟨members, hecho, hrecord⟩ := h.isRecord
  exact ⟨Json.lineFree_write hread, members, by rw [Json.parse_write hs.1 hread, hecho], hrecord⟩

end Record

/-! ### Trees with a log -/

variable {log : Path} {t u v : FileTree}

/-- The log has grown from one tree to another: what was in it is at the beginning of what is
in it, and if it was well formed, it is. -/
structure Extends (log : Path) (t u : FileTree) : Prop where
  bytes : t.bytesAt log.place <+: u.bytesAt log.place
  wellFormed : WellFormed (t.bytesAt log.place) → WellFormed (u.bytesAt log.place)

/-- A log that stays as it is has grown by nothing. -/
theorem Extends.of_eq (h : u.bytesAt log.place = t.bytesAt log.place) : Extends log t u := by
  refine ⟨?_, fun hw => ?_⟩
  · simp only [h, List.prefix_rfl]
  · rwa [h]

theorem Extends.refl (t : FileTree) : Extends log t t :=
  .of_eq rfl

/-- What a log has grown to can grow on. -/
theorem Extends.trans (h : Extends log t u) (h' : Extends log u v) : Extends log t v :=
  ⟨h.bytes.trans h'.bytes, fun hw => h'.wellFormed (h.wellFormed hw)⟩

/-- **Appending the line of a record** to a log extends it. -/
theorem appendLine_extends {r : Record} (h : r.Proper) (log : Path) (t : FileTree) :
    Extends log t (appendLine log r.line t).1 := by
  rcases (appendLine_rewrites log r.line t).bytesAt_place with hsame | ⟨more, hmore, hbytes⟩
  · exact .of_eq hsame
  · rcases hmore with rfl | hmore
    · rw [List.append_nil] at hbytes
      exact .of_eq hbytes
    · have hline := h.isRecordLine (Utf8.encode_eq_ok_iff.mp ⟨more, hmore⟩)
      constructor
      · rw [hbytes]
        exact List.prefix_append _ _
      · rw [hbytes]
        exact fun hw => hw.append hline hmore

end Telemetry

end CommandGate
