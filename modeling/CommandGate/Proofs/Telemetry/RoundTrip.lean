import CommandGate.Proofs.FileTree.Files
import CommandGate.Proofs.Json.Exact
import CommandGate.Proofs.Session.Invocations
import CommandGate.Proofs.Telemetry.Log

/-!
# Reading Records Back

A record is one document on one line. Where the log can be written (`Telemetry.CanWrite`),
recording an event puts the document of its record and a line feed behind what the log held,
and the document is read back as the arguments of the event: the members of the payload come
back in their order and nested as they were, and the time is written as numbers are in
messages.

## Main results

* `Telemetry.Record.parse_document`: what the document of a record is read as.
* `Telemetry.appendLine_of_canWrite`: a log that can be written has the whole line at its end.
* `Telemetry.record_roundTrip`: an event is recorded and read back.
-/

namespace CommandGate

/-- Finite numbers are written in messages as they are in documents. -/
theorem Binary64.text_eq_of_isFinite {x : Binary64} (h : x.isFinite = true)
    (words words' : NumberWords) : x.text words = x.text words' := by
  cases x with
  | nan => simp [isFinite] at h
  | infinity negative => simp [isFinite] at h
  | finite negative m scale => rfl

/-- A number's document denotes the number that its text denotes. -/
theorem Json.parse_number (x : Binary64) :
    Json.parse (x.text .json) = .ok (.number (Json.reread x)) := by
  have hscalar : (Json.write .line (.number x)).IsScalar := Json.isScalar_write _ trivial
  have hwrite : Json.write .line (.number x) = Text.ofString (x.text .json) := by
    rw [Json.write, Json.writeAt]
  rw [← hwrite, Json.parse_write hscalar trivial, Json.echo]

namespace Telemetry

open FileTree

/-! ### The document of a record -/

namespace Record

variable {r : Record}

/-- The document of a record. -/
def document (r : Record) : Text :=
  Json.write .line r.toJson

/-- The members of a record as JSON, but for its time. -/
def particulars (r : Record) : List (Text × Json) :=
  (Text.ofString "event", .string r.event) ::
    ([(Text.ofString "payload", .object r.payload),
      (Text.ofString "level", .string r.level.name)] ++
      (r.status.map fun t => (Text.ofString "status", Json.string t)).toList)

/-- The document of a record begins with its time. -/
theorem document_eq (r : Record) :
    r.document = "\x7b\"ts\": " ++ Text.ofString (r.time.text .json) ++ ", " ++
      (Json.membersText 1 r.particulars ++ "\x7d") := by
  have hjson : r.toJson = .object ((Text.ofString "ts", .number r.time) :: r.particulars) := rfl
  have hrest : Json.writeMembers .line 1 r.particulars =
      .scalar ',' :: .scalar ' ' :: Json.membersText 1 r.particulars :=
    Json.writeMembers_line _ _
  have hts : Json.writeString .line "ts" = Text.ofString "\"ts\"" := rfl
  rw [document, hjson, Json.write, Json.writeAt_object, Json.membersText, hrest,
    Json.writeMember_line, hts, Json.writeAt]
  simp [Text.ofString]

/-- **What the document of a record is read as** if the payload is exact: the record itself,
the time being the number that its text denotes. -/
theorem Proper.parse_document (h : r.Proper) (hs : r.line.IsScalar)
    (hpayload : (Json.object r.payload).Exact) :
    Json.parse r.document =
      .ok (.object ((Text.ofString "ts", .number (Json.reread r.time)) :: r.particulars)) := by
  rw [line, Text.isScalar_append] at hs
  have hecho : Json.echoMembers [] r.payload = r.payload := by
    have hobject := hpayload.echo_eq
    rw [Json.echo] at hobject
    exact Json.object.inj hobject
  rw [document, Json.parse_write hs.1 h.isReadable_toJson, echo_toJson, hecho]
  rfl

end Record

/-! ### Logs that can be written -/

variable {log : Path} {t : FileTree}

/-- A log **can be written** if its folder can be made, and the log be opened in it. -/
def CanWrite (log : Path) (t : FileTree) : Prop :=
  (t.makeFolders log.parent).2 = .ok () ∧
    ∃ opened, (t.makeFolders log.parent).1.append log [] = .ok opened

/-- **A log that can be written has the whole line at its end**, behind what it held. -/
theorem appendLine_of_canWrite (h : CanWrite log t) {line : Text} {bytes : Bytes}
    (he : Utf8.encode line = .ok bytes) :
    ∃ written, appendLine log line t = (written, .ok ()) ∧
      written.read log = .ok (t.bytesAt log.place ++ bytes) := by
  obtain ⟨hmade, opened, hopened⟩ := h
  have hfolders : t.makeFolders log.parent = ((t.makeFolders log.parent).1, .ok ()) :=
    Prod.ext rfl hmade
  obtain ⟨written, hwritten⟩ := update_of_update hopened (· ++ bytes)
  have hbytes : opened.bytesAt log.place = t.bytesAt log.place := by
    rw [bytesAt_of_read (read_update hopened), List.append_nil]
    exact (makeFolders_addsFolders t log.parent).bytesAt_eq _
  refine ⟨written, ?_, ?_⟩
  · rw [appendLine, hfolders]
    simp only [hopened, he]
    rw [append, hwritten]
  · rw [read_update hwritten, hbytes]

/-! ### Recording and reading back -/

/-- The argument for a status that may be absent. -/
def statusArgument (status : Option Text) : Json :=
  (status.map Json.string).getD .null

/-- The argument for a status is read as that status. -/
theorem Record.statusOf_statusArgument {status : Option Text} (h : ∀ t ∈ status, t ≠ []) :
    Record.statusOf (statusArgument status) = .ok status := by
  cases status with
  | none => rfl
  | some t =>
      have hne : t.isEmpty = false := by simpa using h t rfl
      simp [statusArgument, Record.statusOf, Json.isVacant, hne]

/-- **A record is at the end of a log that can be written**, and its document is read as the
record. -/
theorem record_of_canWrite {s : Surroundings} {w : World} {e : Event} {r : Record}
    (hon : enabled s.environment = true) (hof : Record.of s.clock e = .ok r) (hproper : r.Proper)
    (hpayload : (Json.object r.payload).Exact) (hline : r.line.IsScalar)
    (hlog : CanWrite s.settings.logFile w.tree) :
    ∃ (bytes : Bytes) (written : FileTree),
      record s e w = .ok () { w with tree := written } ∧
      written.bytesAt s.settings.logFile.place =
        w.tree.bytesAt s.settings.logFile.place ++ bytes ∧
      Utf8.encode (r.document ++ "\n") = .ok bytes ∧
      Json.parse r.document =
        .ok (.object ((Text.ofString "ts", .number (Json.reread r.time)) :: r.particulars)) := by
  obtain ⟨bytes, hbytes⟩ := Utf8.encode_eq_ok_iff.mpr hline
  obtain ⟨written, happend, hread⟩ := appendLine_of_canWrite hlog hbytes
  refine ⟨bytes, written, ?_, bytesAt_of_read hread, hbytes,
    hproper.parse_document hline hpayload⟩
  rw [record, if_pos hon, hof]
  dsimp only
  rw [World.change_apply, happend]

/-- **An event is recorded and read back.** Take an event whose name is not blank, whose
payload is an exact object, and whose status, if there is one, is not empty, all of them
without surrogates. If telemetry is enabled and the log can be written, recording the event
puts one line behind what the log held. The line is the document of an object with the time,
the name, the payload, the level and the status in this order, and what it is read as has the
arguments as they were; the time is written as the clock is in messages. -/
theorem record_roundTrip {s : Surroundings} {w : World} {name : Text}
    {members : List (Text × Json)} {status : Option Text} (level : Level)
    (hname : name.isBlank = false) (hscalar : name.IsScalar)
    (hpayload : (Json.object members).Exact) (hstatus : ∀ t ∈ status, t ≠ [] ∧ t.IsScalar)
    (hclock : s.clock.isFinite = true) (hon : enabled s.environment = true)
    (hlog : CanWrite s.settings.logFile w.tree) :
    ∃ (document more : Text) (time : Json) (bytes : Bytes) (written : FileTree),
      record s ⟨.string name, .object members, .string level.name, statusArgument status⟩ w =
        .ok () { w with tree := written } ∧
      written.read s.settings.logFile =
        .ok (w.tree.bytesAt s.settings.logFile.place ++ bytes) ∧
      Utf8.encode (document ++ "\n") = .ok bytes ∧
      Json.LineFree document ∧
      Json.parse document = .ok (.object
        ([(Text.ofString "ts", time),
          (Text.ofString "event", .string name),
          (Text.ofString "payload", .object members),
          (Text.ofString "level", .string level.name)] ++
          (status.map fun t => (Text.ofString "status", Json.string t)).toList)) ∧
      document = "\x7b\"ts\": " ++ Text.ofString (s.clock.text .plain) ++ ", " ++ more ∧
      Json.parse (s.clock.text .plain) = .ok time := by
  let r : Record := ⟨s.clock, name, members, level, status⟩
  have hof : Record.of s.clock
      ⟨.string name, .object members, .string level.name, statusArgument status⟩ = .ok r :=
    Record.of_eq hname (Record.statusOf_statusArgument fun t ht => (hstatus t ht).1)
  have hproper : r.Proper := Record.proper_of hof hpayload.isReadable
  have hline : r.line.IsScalar :=
    Record.isScalar_line hscalar hpayload.isScalar fun t ht => (hstatus t ht).2
  obtain ⟨bytes, hbytes⟩ := Utf8.encode_eq_ok_iff.mpr hline
  obtain ⟨written, happend, hread⟩ := appendLine_of_canWrite hlog hbytes
  have htext : s.clock.text .plain = s.clock.text .json :=
    Binary64.text_eq_of_isFinite hclock _ _
  have hrecord : record s
      ⟨.string name, .object members, .string level.name, statusArgument status⟩ w =
        .ok () { w with tree := written } := by
    rw [record, if_pos hon, hof]
    dsimp only
    rw [World.change_apply, happend]
  have htime : Json.parse (s.clock.text .plain) = .ok (.number (Json.reread s.clock)) := by
    rw [htext, Json.parse_number]
  have hdocument := r.document_eq
  rw [← htext] at hdocument
  exact ⟨r.document, _, _, bytes, written, hrecord, hread, hbytes, (hproper.isRecordLine hline).1,
    hproper.parse_document hline hpayload, hdocument, htime⟩

/-- A payload with a list and an object in it. -/
def nested : List (Text × Json) :=
  [(Text.ofString "k", .array [.null, .object [([], .integer (-1))]])]

/-- The nested members are exact. -/
theorem exact_nested : (Json.object nested).Exact := by
  have hshort : Json.IsShort (-1) := by
    rw [Json.IsShort]
    decide
  have hinner : (Json.object [([], .integer (-1))]).Exact :=
    .object (by simp) (by simp) (by simpa using .integer hshort)
  have hitems : (Json.array [.null, .object [([], .integer (-1))]]).Exact :=
    .array (by simpa using ⟨.null, hinner⟩)
  exact .object (by simp [nested]) (by simp [nested]) (by simpa [nested] using hitems)

open Session in
/-- An event recorded in an empty tree. -/
theorem record_roundTrip_home :
    CanWrite atHome.settings.logFile [] ∧
    ∃ (document more : Text) (time : Json) (bytes : Bytes) (written : FileTree),
      record atHome ⟨.string (Text.ofString "e"), .object nested, .string Level.warn.name,
        statusArgument (some (Text.ofString "ok"))⟩ { tree := [] } =
        .ok () { tree := written } ∧
      written.read atHome.settings.logFile =
        .ok (bytesAt [] atHome.settings.logFile.place ++ bytes) ∧
      Utf8.encode (document ++ "\n") = .ok bytes ∧
      Json.LineFree document ∧
      Json.parse document = .ok (.object
        ([(Text.ofString "ts", time),
          (Text.ofString "event", .string (Text.ofString "e")),
          (Text.ofString "payload", .object nested),
          (Text.ofString "level", .string Level.warn.name)] ++
          ((some (Text.ofString "ok")).map fun t =>
            (Text.ofString "status", Json.string t)).toList)) ∧
      document = "\x7b\"ts\": " ++ Text.ofString (atHome.clock.text .plain) ++ ", " ++ more ∧
      Json.parse (atHome.clock.text .plain) = .ok time := by
  have hlog : CanWrite atHome.settings.logFile [] := ⟨rfl, _, rfl⟩
  exact ⟨hlog, record_roundTrip (w := { tree := [] }) .warn rfl (Text.isScalar_ofString _)
    exact_nested (by simp [Text.ofString]) rfl rfl hlog⟩

end Telemetry

end CommandGate
