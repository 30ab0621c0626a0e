import CommandGate.Proofs.Json.Standard
import CommandGate.Proofs.Telemetry.Admission
import Mathlib.Data.List.Basic

/-!
# Standard Lines

The only argument of a valid event that can hold a number is its payload. Nothing looks at the
numbers in it. They are written as they are: a line of the log is a standard document unless
the payload holds, at some depth, a number that is not finite.

## Main results

* `Telemetry.Event.Valid.isFinite_members`: a valid event has no other numbers than those of its
  payload and the time.
* `Telemetry.record_standard_iff`: when the line that is appended is a standard document.
* `Telemetry.not_standard_of_nan`: a line that is not.
-/

namespace CommandGate

/-- What counts as not given is finite. -/
theorem Json.isFinite_of_isVacant {v : Json} (h : v.isVacant = true) : v.IsFinite := by
  cases v with
  | null => exact .null
  | bool b => exact .bool b
  | integer n => exact .integer n
  | number x =>
      refine .number ?_
      cases x with
      | finite negative m scale => rfl
      | infinity negative => simp [isVacant, Binary64.isZero] at h
      | nan => simp [isVacant, Binary64.isZero] at h
  | string t => exact .string t
  | array items =>
      obtain rfl := List.isEmpty_iff.mp h
      exact .array fun v hv => absurd hv List.not_mem_nil
  | object members =>
      obtain rfl := List.isEmpty_iff.mp h
      exact .object fun m hm => absurd hm List.not_mem_nil

namespace Telemetry

open FileTree

namespace Event

variable {e : Event} {time : Binary64}

/-- **What is recorded of a valid event** is finite if its payload is. -/
theorem Valid.isFinite_members (h : e.Valid) (ht : time.isFinite = true) :
    (Json.object (e.members time)).IsFinite ↔ e.payload.IsFinite := by
  obtain ⟨name, hname, -⟩ := h.named
  obtain ⟨level, hlevel⟩ := h.graded
  have hpayload :
      (if e.payload.isVacant then Json.object [] else e.payload).IsFinite ↔
        e.payload.IsFinite := by
    split_ifs with hv
    · exact iff_of_true (Json.isFinite_of_isVacant rfl) (Json.isFinite_of_isVacant hv)
    · rfl
  have hstatus : ∀ m ∈ if e.status.isVacant then [] else [(Text.ofString "status", e.status)],
      m.2.IsFinite := by
    split_ifs with hv
    · simp
    · obtain ⟨status, hs⟩ := h.settled.resolve_left hv
      rw [List.forall_mem_singleton, hs]
      exact .string status
  rw [Json.isFinite_object_iff, members, List.forall_mem_append, and_iff_left hstatus]
  simp only [List.forall_mem_cons, hname, hlevel, hpayload, Json.isFinite_number_iff, ht]
  simp [Json.IsFinite.string]

/-- **The document of a valid event is standard** exactly if its payload is finite. -/
theorem Valid.isStandard_document_iff (h : e.Valid) (ht : time.isFinite = true)
    (hs : (e.document time).IsScalar) :
    Json.IsStandard (e.document time) ↔ e.payload.IsFinite :=
  (Json.isStandard_write_iff hs).trans (h.isFinite_members ht)

end Event

variable {s : Surroundings} {e : Event} {w w' : World}

/-- An event whose recording changes anything without a fault is valid, and telemetry is on. -/
theorem valid_of_record (hok : record s e w = .ok () w') (hne : w' ≠ w) :
    enabled s.environment = true ∧ e.Valid := by
  cases hon : enabled s.environment with
  | false =>
      rw [record_of_off hon] at hok
      cases hok
      exact absurd rfl hne
  | true =>
      refine ⟨rfl, ?_⟩
      rcases e.valid_or_flaw with hvalid | ⟨fault, hflaw⟩
      · exact hvalid
      · rw [record_of_flaw hon hflaw] at hok
        cases hok

/-- An appended line is seen in the log. -/
theorem LineAppended.bytesAt_ne {log : Path} {line : Text} {t u : FileTree}
    (h : LineAppended log (line ++ "\n") t u) : u.bytesAt log.place ≠ t.bytesAt log.place := by
  obtain ⟨⟨bytes, hbytes, hread⟩, -⟩ := h
  rw [bytesAt_of_read hread]
  intro hsame
  obtain rfl : bytes = [] := List.append_right_eq_self.mp hsame
  have hnil := Utf8.encode_inj hbytes (Utf8.encode_map_scalar [])
  exact absurd (List.append_eq_nil_iff.mp hnil).2 (by decide)

/-- An event with a payload. -/
def loaded (members : List (Text × Json)) : Event :=
  { nameOnly with payload := .object members }

/-- An event that carries a loaded document is valid. -/
theorem valid_loaded (members : List (Text × Json)) : (loaded members).Valid :=
  ⟨valid_nameOnly.named, .inr ⟨members, rfl⟩, valid_nameOnly.graded, valid_nameOnly.settled⟩

open Session in
/-- In an empty tree the event is recorded. -/
theorem record_loaded {members : List (Text × Json)} (h : (Json.object members).IsScalar) :
    ∃ t, record atHome (loaded members) { tree := [] } = .ok () { tree := t } ∧
      LineAppended atHome.settings.logFile ((loaded members).document atHome.clock ++ "\n") []
        t := by
  have hscalar : (loaded members).IsScalar :=
    ⟨isScalar_nameOnly.name, h, isScalar_nameOnly.level, isScalar_nameOnly.status⟩
  have hcan : CanWrite atHome.settings.logFile [] := ⟨rfl, _, rfl⟩
  obtain ⟨t, hok, ⟨-, -, -, hline⟩ | ⟨hcannot, -⟩⟩ :=
    record_accepts (s := atHome) (w := { tree := [] }) rfl (valid_loaded members) hscalar rfl
  · exact ⟨t, hok, hline⟩
  · exact absurd hcan hcannot

/-- **When the line that is appended is a standard document.** If recording an event adds
anything to the log, it adds one line; the line is a standard document exactly if all numbers in
the payload are finite. -/
theorem record_standard_iff (hclock : s.clock.isFinite = true)
    (hok : record s e w = .ok () w')
    (hadds : w'.tree.bytesAt s.settings.logFile.place ≠
      w.tree.bytesAt s.settings.logFile.place) :
    ∃ line bytes, Utf8.encode (line ++ "\n") = .ok bytes ∧
      w'.tree.bytesAt s.settings.logFile.place =
        w.tree.bytesAt s.settings.logFile.place ++ bytes ∧
      Json.LineFree line ∧ (Json.IsStandard line ↔ e.payload.IsFinite) := by
  obtain ⟨hon, hvalid⟩ := valid_of_record hok fun heq => hadds (by rw [heq])
  rw [record_of_valid hon hvalid, World.change_apply] at hok
  have hrewrites := appendLine_rewrites s.settings.logFile (e.document s.clock ++ "\n") w.tree
  cases happend : appendLine s.settings.logFile (e.document s.clock ++ "\n") w.tree with
  | mk t result =>
      rw [happend] at hok hrewrites
      obtain rfl : w' = { w with tree := t } := by
        cases result <;> cases hok
        rfl
      obtain ⟨bytes, rfl | hbytes, hplace⟩ := hrewrites.bytesAt_place.resolve_left hadds
      · rw [List.append_nil] at hplace
        exact absurd hplace hadds
      · have hscalar := Utf8.encode_eq_ok_iff.mp ⟨bytes, hbytes⟩
        have hdocument : (e.document s.clock).IsScalar := (Text.isScalar_append.mp hscalar).1
        refine ⟨e.document s.clock, bytes, hbytes, hplace, ?_, ?_⟩
        · exact Json.lineFree_write (Json.isScalar_of_writeAt 0 _ hdocument)
        · exact hvalid.isStandard_document_iff hclock hdocument

open Session in
/-- A payload with the least positive number in an array is recorded in an empty tree. -/
theorem record_standard_home :
    ∃ w' line bytes,
      record atHome (loaded [("a", .array [.number (.finite false 1 0)])]) { tree := [] } =
        .ok () w' ∧
      Utf8.encode (line ++ "\n") = .ok bytes ∧
      w'.tree.bytesAt atHome.settings.logFile.place = bytes ∧ Json.IsStandard line := by
  have hscalar : (Json.object [("a", .array [.number (.finite false 1 0)])]).IsScalar :=
    ⟨⟨Text.isScalar_ofString "a", trivial, trivial⟩, trivial⟩
  obtain ⟨t, hok, hline⟩ := record_loaded hscalar
  obtain ⟨line, bytes, hbytes, hplace, -, hstandard⟩ :=
    record_standard_iff rfl hok hline.bytesAt_ne
  refine ⟨_, line, bytes, hok, hbytes, hplace, hstandard.mpr ?_⟩
  refine .object (List.forall_mem_singleton.mpr (.array (List.forall_mem_singleton.mpr ?_)))
  exact .number rfl

/-! ### A line that is no standard document -/

open Session in
/-- **A line that is no standard document**: the payload is read from a text in which `NaN`
stands for a number, which the reader accepts. -/
theorem not_standard_of_nan :
    ∃ members w' line bytes,
      Json.parse "\x7b\"a\": NaN\x7d" = .ok (.object members) ∧
      atHome.clock.isFinite = true ∧
      record atHome (loaded members) { tree := [] } = .ok () w' ∧
      Utf8.encode (line ++ "\n") = .ok bytes ∧
      w'.tree.bytesAt atHome.settings.logFile.place = bytes ∧ ¬ Json.IsStandard line := by
  have hscalar : (Json.object [("a", .number .nan)]).IsScalar :=
    ⟨⟨Text.isScalar_ofString "a", trivial⟩, trivial⟩
  obtain ⟨t, hok, hline⟩ := record_loaded hscalar
  obtain ⟨bytes, hbytes, hread⟩ := hline.read
  have hparse : Json.parse "\x7b\"a\": NaN\x7d" = .ok (.object [("a", .number .nan)]) := by cbv
  refine ⟨_, _, _, bytes, hparse, rfl, hok, hbytes, bytesAt_of_read hread, fun hstandard => ?_⟩
  have hdocument := (Text.isScalar_append.mp (Utf8.encode_eq_ok_iff.mp ⟨bytes, hbytes⟩)).1
  have hfinite := ((valid_loaded _).isStandard_document_iff rfl hdocument).mp hstandard
  have hnan := Json.isFinite_object_iff.mp hfinite _ (List.mem_singleton_self _)
  exact absurd (Json.isFinite_number_iff.mp hnan) (by decide)

end Telemetry

end CommandGate
