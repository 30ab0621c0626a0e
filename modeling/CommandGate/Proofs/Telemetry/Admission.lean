import CommandGate.Proofs.Program.Places
import CommandGate.Proofs.Telemetry.Appended

/-!
# Which Events Are Recorded

The arguments of an event are any JSON values. Four checks are made of them, in the order name,
payload, level, status, and the first that fails decides the fault (`Telemetry.Event.Flaw`); it
leaves everything as it was. An event that passes them all (`Telemetry.Event.Valid`) never
fails: where the log can be written one line with the members of the event is appended, and
where it cannot the files stay as they are. The arguments are values that a JSON document can
give, so none of their whole numbers is too long to be written.

One thing breaks the rule. The path of the log directory is not looked at before, and a NUL in
it is not among what makes a log that cannot be opened: it is a fault.

## Main results

* `Telemetry.Record.of_valid`, `Telemetry.Record.of_flaw`: what comes of the checks.
* `Telemetry.Record.admits_of_valid`: what is recorded is as the schema asks.
* `Telemetry.record_accounts_iff`: when recording an event accounts for it.
* `Telemetry.not_accounts_of_nul`: a valid event that is a fault.
-/

namespace CommandGate

namespace Telemetry

open FileTree

/-! ### What is wrong with an event -/

namespace Event

/-- An event is **named** if its name is a string with a character that is not blank. -/
def Named (e : Event) : Prop :=
  ∃ t, e.name = .string t ∧ ∃ c ∈ t, c.isBlank = false

/-- An event is **described** if its payload is an object or counts as not given. -/
def Described (e : Event) : Prop :=
  e.payload.isVacant = true ∨ ∃ members, e.payload = .object members

/-- An event is **graded** if its level is the name of a level. -/
def Graded (e : Event) : Prop :=
  ∃ l : Level, e.level = .string l.name

/-- An event is **settled** if its status is a string or counts as not given. -/
def Settled (e : Event) : Prop :=
  e.status.isVacant = true ∨ ∃ t, e.status = .string t

/-- What is **wrong** with an event: the first of its arguments that is not as it should be. -/
inductive Flaw (e : Event) : RecordFault → Prop where
  | name : ¬ e.Named → Flaw e .event
  | payload : e.Named → ¬ e.Described → Flaw e .payload
  | listLevel {items : List Json} : e.Named → e.Described → e.level = .array items →
    Flaw e .listLevel
  | mappingLevel {members : List (Text × Json)} : e.Named → e.Described →
    e.level = .object members → Flaw e .mappingLevel
  | level : e.Named → e.Described → (∀ items, e.level ≠ .array items) →
    (∀ members, e.level ≠ .object members) → ¬ e.Graded → Flaw e (.unknownLevel e.level)
  | status : e.Named → e.Described → e.Graded → ¬ e.Settled → Flaw e (.status e.status)

/-- An event is **valid** if all its arguments are as they should be. -/
structure Valid (e : Event) : Prop where
  named : e.Named
  described : e.Described
  graded : e.Graded
  settled : e.Settled

/-- The document of an event. -/
def document (time : Binary64) (e : Event) : Text :=
  Json.write .line (.object (e.members time))

/-- The arguments of an event are **scalar** if no text in them has a surrogate. -/
structure IsScalar (e : Event) : Prop where
  name : e.name.IsScalar
  payload : e.payload.IsScalar
  level : e.level.IsScalar
  status : e.status.IsScalar

/-- The document of scalar arguments has no surrogates and no line breaks. -/
theorem IsScalar.document {e : Event} (h : e.IsScalar) (time : Binary64) :
    (e.document time).IsScalar ∧ Json.LineFree (e.document time) := by
  have hall : (Json.object (e.members time)).IsScalar := by
    obtain ⟨hname, hpayload, hlevel, hstatus⟩ := h
    rw [members]
    split_ifs <;>
      simp [Json.Holds, Json.MembersHold, Json.MemberHolds, hname, hpayload, hlevel, hstatus]
  exact ⟨Json.isScalar_write _ hall, Json.lineFree_write hall⟩

/-! ### Either valid or flawed -/

variable {e : Event} {fault : RecordFault}

/-- Nothing is wrong with a valid event. -/
theorem Valid.not_flaw (h : e.Valid) : ¬ e.Flaw fault := by
  rintro (hn | ⟨-, hd⟩ | ⟨-, -, hl⟩ | ⟨-, -, hl⟩ | ⟨-, -, -, -, hg⟩ | ⟨-, -, -, hs⟩)
  · exact hn h.named
  · exact hd h.described
  · obtain ⟨l, hl'⟩ := h.graded
    simp [hl] at hl'
  · obtain ⟨l, hl'⟩ := h.graded
    simp [hl] at hl'
  · exact hg h.graded
  · exact hs h.settled

end Event

/-! ### What the checks come to -/

namespace Record

variable {e : Event} {time : Binary64} {fault : RecordFault}

/-- A text is blank unless it has a character that is not. -/
theorem isBlank_eq_false_iff {t : Text} : t.isBlank = false ↔ ∃ c ∈ t, c.isBlank = false := by
  simp [Text.isBlank]

/-- The name of a named event passes. -/
theorem eventOf_of_named (h : e.Named) : ∃ t, e.name = .string t ∧ eventOf e.name = .ok t := by
  obtain ⟨t, ht, hc⟩ := h
  refine ⟨t, ht, ?_⟩
  rw [ht, eventOf, isBlank_eq_false_iff.mpr hc]
  rfl

/-- No other name does. -/
theorem eventOf_of_not_named (h : ¬ e.Named) : eventOf e.name = .error .event := by
  cases hname : e.name with
  | string t =>
      rw [eventOf, if_pos]
      by_contra hb
      exact h ⟨t, hname, isBlank_eq_false_iff.mp (by simpa using hb)⟩
  | _ => rfl

/-- The payload of a described event passes: it is an object, or counts as an empty one. -/
theorem payloadOf_of_described (h : e.Described) : ∃ ms, payloadOf e.payload = .ok ms := by
  unfold payloadOf
  by_cases hv : e.payload.isVacant = true
  · exact ⟨[], if_pos hv⟩
  · obtain ⟨ms, hms⟩ := h.resolve_left hv
    rw [if_neg hv, hms]
    exact ⟨ms, rfl⟩

/-- No other payload does. -/
theorem payloadOf_of_not_described (h : ¬ e.Described) :
    payloadOf e.payload = .error .payload := by
  unfold payloadOf
  rw [if_neg fun hv => h (.inl hv)]
  cases hp : e.payload with
  | object ms => exact absurd (.inr ⟨ms, hp⟩) h
  | _ => rfl

/-- A level that is no name of one is unknown, unless it is an array or an object. -/
theorem levelOf_of_not_graded (ha : ∀ items, e.level ≠ .array items)
    (ho : ∀ members, e.level ≠ .object members) (h : ¬ e.Graded) :
    levelOf e.level = .error (.unknownLevel e.level) := by
  cases hl : e.level with
  | array items => exact absurd hl (ha items)
  | object members => exact absurd hl (ho members)
  | string t =>
      have hnone : Level.all.find? (fun l => decide (t = Text.ofString l.name)) = none := by
        rw [List.find?_eq_none]
        intro l _ hname
        exact h ⟨l, by rw [hl, of_decide_eq_true hname]⟩
      simp only [levelOf, hnone]
  | _ => rfl

/-- **A valid event is recorded**: its line is its document. -/
theorem of_valid (h : e.Valid) (time : Binary64) :
    ∃ r, Record.of time e = .ok r ∧ r.line = e.document time ++ "\n" := by
  obtain ⟨t, -, hevent⟩ := eventOf_of_named h.named
  obtain ⟨ms, hpayload⟩ := payloadOf_of_described h.described
  obtain ⟨l, hl⟩ := h.graded
  have hlevel : levelOf e.level = .ok l := by rw [hl, levelOf_name]
  have hof : Record.of time e = .ok ⟨time, t, ms, l, givenStatus e.status⟩ := by
    simp [of_eq_bind, hevent, hpayload, hlevel, statusOf_eq_ok h.settled, Bind.bind, Except.bind,
      Pure.pure, Except.pure]
  exact ⟨_, hof, by rw [line, (toJson_eq hof).1, Event.document]⟩

/-- **A valid event is as the schema asks.** -/
theorem admits_of_valid (h : e.Valid) (time : Binary64) :
    schema.admits (.object (e.members time)) = true := by
  obtain ⟨r, hof, -⟩ := of_valid h time
  exact (toJson_eq hof).2

/-- **A flawed event is refused** for its flaw. -/
theorem of_flaw (h : e.Flaw fault) (time : Binary64) : Record.of time e = .error fault := by
  cases h with
  | name hn => simp [of_eq_bind, eventOf_of_not_named hn, Bind.bind, Except.bind]
  | payload hn hd =>
      obtain ⟨t, -, hevent⟩ := eventOf_of_named hn
      simp [of_eq_bind, hevent, payloadOf_of_not_described hd, Bind.bind, Except.bind]
  | listLevel hn hd hl =>
      obtain ⟨t, -, hevent⟩ := eventOf_of_named hn
      obtain ⟨ms, hpayload⟩ := payloadOf_of_described hd
      simp [of_eq_bind, hevent, hpayload, hl, levelOf, Bind.bind, Except.bind]
  | mappingLevel hn hd hl =>
      obtain ⟨t, -, hevent⟩ := eventOf_of_named hn
      obtain ⟨ms, hpayload⟩ := payloadOf_of_described hd
      simp [of_eq_bind, hevent, hpayload, hl, levelOf, Bind.bind, Except.bind]
  | level hn hd ha ho hg =>
      obtain ⟨t, -, hevent⟩ := eventOf_of_named hn
      obtain ⟨ms, hpayload⟩ := payloadOf_of_described hd
      simp [of_eq_bind, hevent, hpayload, levelOf_of_not_graded ha ho hg, Bind.bind, Except.bind]
  | status hn hd hg hs =>
      obtain ⟨t, -, hevent⟩ := eventOf_of_named hn
      obtain ⟨ms, hpayload⟩ := payloadOf_of_described hd
      obtain ⟨l, hl⟩ := hg
      have hlevel : levelOf e.level = .ok l := by rw [hl, levelOf_name]
      simp [of_eq_bind, hevent, hpayload, hlevel, statusOf_eq_error hs, Bind.bind,
        Except.bind]

end Record

namespace Event

/-- **An event is either valid or flawed.** -/
theorem valid_or_flaw (e : Event) : e.Valid ∨ ∃ fault, e.Flaw fault := by
  by_cases hn : e.Named
  swap
  · exact .inr ⟨_, .name hn⟩
  by_cases hd : e.Described
  swap
  · exact .inr ⟨_, .payload hn hd⟩
  by_cases hg : e.Graded
  swap
  · refine .inr ?_
    by_cases ha : ∃ items, e.level = .array items
    · obtain ⟨items, hl⟩ := ha
      exact ⟨_, .listLevel hn hd hl⟩
    by_cases ho : ∃ members, e.level = .object members
    · obtain ⟨members, hl⟩ := ho
      exact ⟨_, .mappingLevel hn hd hl⟩
    · refine ⟨_, .level hn hd (fun items hl => ?_) (fun members hl => ?_) hg⟩
      · exact ha ⟨items, hl⟩
      · exact ho ⟨members, hl⟩
  by_cases hs : e.Settled
  · exact .inl ⟨hn, hd, hg, hs⟩
  · exact .inr ⟨_, .status hn hd hg hs⟩

/-- Only one fault is the first. -/
theorem Flaw.unique {e : Event} {fault other : RecordFault} (h : e.Flaw fault)
    (h' : e.Flaw other) : fault = other := by
  have hsame := (Record.of_flaw h .one).symm.trans (Record.of_flaw h' .one)
  exact Except.error.inj hsame

end Event

/-! ### What recording comes to -/

variable {s : Surroundings} {e : Event} {w : World}

/-- A line was **appended** to a log, and besides it only folders above the log are new. -/
structure LineAppended (log : Path) (line : Text) (t u : FileTree) : Prop where
  read : ∃ bytes, Utf8.encode line = .ok bytes ∧ u.read log = .ok (t.bytesAt log.place ++ bytes)
  others : ∀ m, m ≠ log.place → u.look m = t.look m ∨
    (OnTheWay log.parent.names m ∧ t.look m = none ∧ u.look m = some .folder)

/-- What recording an event comes to if it **accounts** for the event. -/
structure Accounts (s : Surroundings) (e : Event) (w : World)
    (result : EStateM.Result Fault World Unit) : Prop where
  /-- Nothing happens if telemetry is switched off. -/
  off : enabled s.environment = false → result = .ok () w
  /-- The only fault is the flaw of the event, and it leaves everything as it was. -/
  raises : ∀ f w', result = .error f w' ↔
    w' = w ∧ enabled s.environment = true ∧ ∃ fault, e.Flaw fault ∧ f = .record fault
  /-- The document of a valid event, which is as the schema asks, is appended on one line, or the
  log cannot be written and at most folders are new. -/
  accepts : enabled s.environment = true → e.Valid →
    ∃ t, result = .ok () { w with tree := t } ∧
      (CanWrite s.settings.logFile w.tree ∧ Json.LineFree (e.document s.clock) ∧
          schema.admits (.object (e.members s.clock)) = true ∧
          LineAppended s.settings.logFile (e.document s.clock ++ "\n") w.tree t ∨
        ¬ CanWrite s.settings.logFile w.tree ∧
          AddsFolders (OnTheWay s.settings.logDir.names) w.tree t)

/-- **What appending a line comes to** if its log can be written. -/
theorem appendLine_lineAppended {log : Path} {line : Text} {t : FileTree} (h : CanWrite log t)
    (hl : line.IsScalar) :
    ∃ u, appendLine log line t = (u, .ok ()) ∧ LineAppended log line t u := by
  obtain ⟨bytes, hbytes⟩ := Utf8.encode_eq_ok_iff.mpr hl
  obtain ⟨written, happend, hread⟩ := appendLine_of_canWrite h hbytes
  refine ⟨written, happend, ⟨bytes, hbytes, hread⟩, fun m hm => ?_⟩
  have hrewrites := appendLine_rewrites log line t
  rw [happend] at hrewrites
  rcases hrewrites.look_cases m with hsame | hadded | ⟨hplace, -⟩
  · exact .inl hsame
  · exact .inr hadded
  · exact absurd hplace hm

/-- Where a log cannot be written, at most folders are new, and that is no fault unless there is
a NUL in the path of its folder. -/
theorem appendLine_of_not_canWrite {log : Path} {t : FileTree} (h : ¬ CanWrite log t)
    (hn : log.parent.hasNul = false) (line : Text) :
    ∃ u, appendLine log line t = (u, .ok ()) ∧ AddsFolders (OnTheWay log.parent.names) t u := by
  have hadd := makeFolders_addsFolders t log.parent
  have hnul := makeFolders_ne_embeddedNul (t := t) hn
  rw [CanWrite] at h
  rw [appendLine]
  generalize t.makeFolders log.parent = folders at h hadd hnul ⊢
  obtain ⟨made, f | ⟨⟩⟩ := folders
  · cases f with
    | refused e q => exact ⟨made, rfl, hadd⟩
    | embeddedNul => exact absurd rfl hnul
  · cases ho : made.append log [] with
    | error f => exact ⟨made, by simp [ho], hadd⟩
    | ok opened => exact absurd ⟨rfl, opened, ho⟩ h

/-- A NUL in the path of its folder is a fault. -/
theorem appendLine_of_hasNul {log : Path} {line : Text} {t : FileTree}
    (hn : log.parent.hasNul = true) :
    appendLine log line t = (t, .error (.file .embeddedNul)) := by
  rw [appendLine, makeFolders_of_hasNul hn]

/-- A switched off event is not looked at. -/
theorem record_of_off (h : enabled s.environment = false) : record s e w = .ok () w := by
  rw [record, if_neg (by simp [h])]
  rfl

/-- An event with a flaw is refused for it, and nothing is changed. -/
theorem record_of_flaw {fault : RecordFault} (hon : enabled s.environment = true)
    (h : e.Flaw fault) : record s e w = .error (.record fault) w := by
  rw [record, if_pos hon, Record.of_flaw h]
  rfl

/-- Recording a valid event is appending its document on a line. -/
theorem record_of_valid (hon : enabled s.environment = true) (h : e.Valid) :
    record s e w =
      World.change (appendLine s.settings.logFile (e.document s.clock ++ "\n")) w := by
  obtain ⟨r, hr, hline⟩ := Record.of_valid h s.clock
  rw [record, if_pos hon, hr]
  dsimp only
  rw [hline]

/-- Recording a valid event is no fault unless there is a NUL in the path of the log directory:
its document is appended, or at most folders are new. -/
theorem record_accepts (hon : enabled s.environment = true) (h : e.Valid) (he : e.IsScalar)
    (hnul : s.settings.logDir.hasNul = false) :
    ∃ t, record s e w = .ok () { w with tree := t } ∧
      (CanWrite s.settings.logFile w.tree ∧ Json.LineFree (e.document s.clock) ∧
          schema.admits (.object (e.members s.clock)) = true ∧
          LineAppended s.settings.logFile (e.document s.clock ++ "\n") w.tree t ∨
        ¬ CanWrite s.settings.logFile w.tree ∧
          AddsFolders (OnTheWay s.settings.logDir.names) w.tree t) := by
  have hparent := s.settings.logFile_parent
  obtain ⟨hscalar, hfree⟩ := he.document s.clock
  rw [record_of_valid hon h]
  by_cases hcan : CanWrite s.settings.logFile w.tree
  · have hline : Text.IsScalar (e.document s.clock ++ "\n") :=
      Text.isScalar_append.mpr ⟨hscalar, Text.isScalar_ofString _⟩
    obtain ⟨t, happend, hline⟩ := appendLine_lineAppended hcan hline
    exact ⟨t, by rw [World.change_apply, happend],
      .inl ⟨hcan, hfree, Record.admits_of_valid h _, hline⟩⟩
  · obtain ⟨t, happend, hadd⟩ := appendLine_of_not_canWrite hcan (by rw [hparent, hnul])
      (e.document s.clock ++ "\n")
    rw [hparent] at hadd
    exact ⟨t, by rw [World.change_apply, happend], .inr ⟨hcan, hadd⟩⟩

/-- **When recording an event accounts for it**: always, except for a valid event that is recorded
in a log directory with a NUL in its path. -/
theorem record_accounts_iff (he : e.IsScalar) :
    Accounts s e w (record s e w) ↔
      ¬ (enabled s.environment = true ∧ e.Valid ∧ s.settings.logDir.hasNul = true) := by
  constructor
  · rintro h ⟨hon, hvalid, hnul⟩
    obtain ⟨t, hok, -⟩ := h.accepts hon hvalid
    rw [record_of_valid hon hvalid, World.change_apply,
      appendLine_of_hasNul (by rw [s.settings.logFile_parent, hnul])] at hok
    cases hok
  intro hnul
  cases hon : enabled s.environment with
  | false =>
      rw [record_of_off hon]
      exact {
        off := fun _ => rfl
        raises := by simp [hon]
        accepts := by simp [hon] }
  | true =>
      rcases e.valid_or_flaw with hvalid | ⟨fault, hflaw⟩
      · have hplain : s.settings.logDir.hasNul = false := by
          by_contra hc
          exact hnul ⟨hon, hvalid, by simpa using hc⟩
        obtain ⟨t, hok, hcase⟩ := record_accepts (w := w) hon hvalid he hplain
        exact {
          off := by simp [hon]
          raises := by simp [hok, hvalid.not_flaw]
          accepts := fun _ _ => ⟨t, hok, hcase⟩ }
      · rw [record_of_flaw hon hflaw]
        exact {
          off := by simp [hon]
          raises := fun f w' => by
            constructor
            · rintro ⟨⟩
              exact ⟨rfl, hon, fault, hflaw, rfl⟩
            · rintro ⟨rfl, -, other, hother, rfl⟩
              rw [hflaw.unique hother]
          accepts := fun _ hvalid => absurd hflaw hvalid.not_flaw }

/-- An event with a name and nothing else. -/
def nameOnly : Event where
  name := .string (Text.ofString "e")

/-- A name alone is valid. -/
theorem valid_nameOnly : nameOnly.Valid :=
  ⟨⟨_, rfl, _, List.mem_singleton_self _, rfl⟩, .inl rfl, ⟨.info, rfl⟩, .inl rfl⟩

/-- It has no surrogates. -/
theorem isScalar_nameOnly : nameOnly.IsScalar :=
  ⟨Text.isScalar_ofString "e", trivial, Text.isScalar_ofString "info", trivial⟩

open Session in
/-- The event is recorded in an empty tree. -/
theorem record_accounts_home :
    Accounts atHome nameOnly { tree := [] } (record atHome nameOnly { tree := [] }) :=
  (record_accounts_iff isScalar_nameOnly).mpr fun h => absurd h.2.2 (by decide)

/-! ### A valid event that is a fault -/

open Session in
/-- What a run finds with a NUL in the path of the log directory. -/
def nulAtHome : Surroundings :=
  { atHome with settings := { atHome.settings with logDir := ⟨.relative, ["a\x00b"]⟩ } }

/-- **A valid event that is a fault**: it is recorded in a log directory with a NUL in its
path. -/
theorem not_accounts_of_nul :
    nameOnly.Valid ∧
      record nulAtHome nameOnly { tree := [] } = .error (.file .embeddedNul) { tree := [] } ∧
      ¬ Accounts nulAtHome nameOnly { tree := [] } (record nulAtHome nameOnly { tree := [] }) := by
  have hrecord : record nulAtHome nameOnly { tree := [] } =
      .error (.file .embeddedNul) { tree := [] } := rfl
  refine ⟨valid_nameOnly, hrecord, fun h => ?_⟩
  obtain ⟨t, hok, -⟩ := h.accepts rfl valid_nameOnly
  rw [hrecord] at hok
  cases hok

end Telemetry

end CommandGate
