import CommandGate.Proofs.Act
import CommandGate.Proofs.FileTree.Folders
import CommandGate.Proofs.Telemetry.Schema

/-!
# What Recording Changes

Recording an event makes the folders above the log and adds a line at the end of the log;
wherever it gives up, what it did before stays. A sound event (`Event.Sound`) has a record
at every time, and its line has an encoded form, so recording it is never a fault on a path
without NUL.

## Main results

* `Telemetry.appendLine_rewrites`: what appending a line changes, in every tree.
* `Telemetry.appendLine_eq_ok`: a line with an encoded form is appended without a fault.
* `Telemetry.appendLine_of_passable`: below a folder that is there, only the log changes.
* `Telemetry.appendLine_of_refused`: below a folder that cannot be made, nothing changes.
-/

namespace CommandGate

namespace Telemetry

open FileTree

/-! ### Lines at the end of the log -/

variable {t : FileTree} {log : Path} {line : Text}

/-- **What appending a line changes.** Folders are added above the log; then either nothing
else changes, or at the place of the log stands a file with the bytes that stood there and,
at their end, nothing or the encoded line. -/
theorem appendLine_rewrites (log : Path) (line : Text) (t : FileTree) :
    Rewrites log (fun content => ∃ more, (more = [] ∨ Utf8.encode line = .ok more) ∧
      content = t.bytesAt log.place ++ more) t (appendLine log line t).1 := by
  have hadd := makeFolders_addsFolders t log.parent
  rw [appendLine]
  generalize t.makeFolders log.parent = folders at hadd ⊢
  obtain ⟨made, f | ⟨⟩⟩ := folders
  · cases f <;> exact ⟨made, hadd, .inl rfl⟩
  refine ⟨made, hadd, ?_⟩
  dsimp only at hadd ⊢
  have hbytes : made.bytesAt log.place = t.bytesAt log.place := hadd.bytesAt_eq _
  cases ho : made.append log [] with
  | error f => exact .inl rfl
  | ok opened =>
      obtain ⟨hplace, hopened⟩ := update_look ho
      rw [List.append_nil, hbytes] at hopened
      have justOpened : ∀ m, opened.look m =
          if m = log.place then some (.file (t.bytesAt log.place ++ [])) else made.look m := by
        simpa using hopened
      dsimp only
      cases he : Utf8.encode line with
      | error e => exact .inr ⟨_, ⟨[], .inl rfl, rfl⟩, hplace, justOpened⟩
      | ok bytes =>
          dsimp only
          cases hw : opened.append log bytes with
          | error f => exact .inr ⟨_, ⟨[], .inl rfl, rfl⟩, hplace, justOpened⟩
          | ok written =>
              obtain ⟨-, hwritten⟩ := update_look hw
              have hb : opened.bytesAt log.place = t.bytesAt log.place := by
                rw [bytesAt, hopened, if_pos rfl]
              rw [hb] at hwritten
              refine .inr ⟨_, ⟨bytes, .inr rfl, rfl⟩, hplace, fun m => ?_⟩
              rw [hwritten, hopened]
              by_cases hm : m = log.place <;> simp [hm]

/-- **A line with an encoded form is appended without a fault**, or lost without one. -/
theorem appendLine_eq_ok (hn : log.parent.hasNul = false) (hl : line.IsScalar) :
    (appendLine log line t).2 = .ok () := by
  have hnul := makeFolders_ne_embeddedNul (t := t) hn
  obtain ⟨bytes, hbytes⟩ := Utf8.encode_eq_ok_iff.mpr hl
  rw [appendLine]
  generalize t.makeFolders log.parent = folders at hnul ⊢
  obtain ⟨made, f | ⟨⟩⟩ := folders
  · cases f with
    | refused e q => rfl
    | embeddedNul => exact absurd rfl hnul
  · dsimp only
    cases made.append log [] with
    | error f => rfl
    | ok opened =>
        simp only [hbytes]
        cases opened.append log bytes <;> rfl

/-! ### A log below a folder -/

section Below

variable {home : Path} {names : List String}

/-- **Below a folder that is there**, appending a line changes only what stands at the folder
of the log and below it. -/
theorem appendLine_of_passable {folder file : String} (hp : (home.join [folder]).IsPlain)
    (hf : file ≠ "..") (h : t.Passable [] home.names) {m : Location}
    (hm : ¬ home.names ++ [folder] <+: m) :
    look (appendLine ((home.join [folder]).join [file]) line t).1 m = t.look m := by
  have hplain : ".." ∉ home.names ++ [folder] := hp
  have hparent : ((home.join [folder]).join [file]).parent.names = home.names ++ [folder] := by
    simp [Path.parent, Path.join]
  have hplace : ((home.join [folder]).join [file]).place = home.names ++ [folder] ++ [file] := by
    have hall : ((home.join [folder]).join [file]).IsPlain := by
      simp only [Path.IsPlain, Path.join, List.mem_append, List.mem_singleton, not_or] at hplain ⊢
      exact ⟨hplain, Ne.symm hf⟩
    rw [hall.place_eq]
    rfl
  have hrewrites := appendLine_rewrites ((home.join [folder]).join [file]) line t
  by_cases hway : m <+: home.names
  · -- what is on the way to the folder is there already
    have hfolder : t.look m = some .folder := by
      obtain ⟨below, hbelow⟩ := hway
      have hhome : t.look (m ++ below) = some .folder := by
        rw [hbelow]
        exact h.look_eq (look_nil t)
      rcases eq_or_ne below [] with rfl | hb
      · rwa [List.append_nil] at hhome
      · exact look_append (by rw [hhome]; simp) hb
    rw [hrewrites.look_of_folder hfolder, hfolder]
  · refine hrewrites.look_of_not ?_ ?_
    · rw [hparent, onTheWay_iff hplain, List.prefix_concat_iff]
      rintro (rfl | hfront)
      · exact hm List.prefix_rfl
      · exact hway hfront
    · rw [hplace]
      rintro rfl
      exact hm (List.prefix_append _ _)

/-- **Below a folder that cannot be made**, appending a line changes nothing. -/
theorem appendLine_of_refused {folder file : String} {u : FileTree} {e : Errno} {q : Path}
    (hp : (home.join [folder]).IsPlain) (hn : folder.toList.contains '\x00' = false)
    (h : t.makeFolders home = (u, .error (.refused e q))) :
    appendLine ((home.join [folder]).join [file]) line u = (u, .ok ()) := by
  have hparent : ((home.join [folder]).join [file]).parent = home.join [folder] := by
    simp [Path.parent, Path.join]
  have hplain : home.IsPlain := fun hm => hp (List.mem_append_left _ hm)
  have hnul : home.hasNul = false := by
    by_contra hc
    rw [makeFolders_of_hasNul (by simpa using hc)] at h
    simp at h
  have hnul' : (home.join [folder]).hasNul = false := by
    simp only [Path.hasNul, Path.join, List.any_append, List.any_cons, List.any_nil,
      Bool.or_false, Bool.or_eq_false_iff]
    exact ⟨hnul, hn⟩
  have hrefused : ∃ e' q', u.makeFolders (home.join [folder]) = (u, .error (.refused e' q')) := by
    by_cases hs : maxPathBytes < (home.join [folder]).toString.utf8ByteSize
    · exact ⟨_, _, makeFolders_of_long hnul' hs⟩
    · have hfits : home.Fits := Path.Fits.front ⟨hnul', Nat.not_lt.mp hs⟩
      rcases makeFolders_cases (t := t) hplain hfits with ⟨hok, -⟩ | ⟨-, hbar, -⟩
      · rw [h] at hok
        exact absurd hok (by simp)
      · rw [h] at hbar
        obtain ⟨e', he'⟩ := makeFolders_of_barred hp hnul' (hbar.append [folder])
        exact ⟨e', _, he'⟩
  obtain ⟨e', q', hr⟩ := hrefused
  rw [appendLine, hparent, hr]

end Below

/-! ### Sound events -/

namespace Record

/-- The name of a level stands for it. -/
theorem levelOf_name (l : Level) : levelOf (.string l.name) = .ok l := by
  cases l <;> rfl

/-- The record of an event with a name that is not blank, an object and a level. -/
theorem of_eq {time : Binary64} {name : Text} {members : List (Text × Json)} {l : Level}
    {status : Json} {st : Option Text} (hn : name.isBlank = false)
    (hs : statusOf status = .ok st) :
    Record.of time ⟨.string name, .object members, .string l.name, status⟩ =
      .ok ⟨time, name, members, l, st⟩ := by
  have hp : payloadOf (.object members) = .ok members := by
    cases members <;> simp [payloadOf, Json.isVacant]
  simp [of_eq_bind, eventOf, hn, hp, levelOf_name, hs, Bind.bind, Except.bind, Pure.pure,
    Except.pure]

/-- A record without surrogates has a line without surrogates. -/
theorem isScalar_line {r : Record} (he : r.event.IsScalar)
    (hp : Json.MembersHold Text.IsScalar (fun _ => True) r.payload)
    (hs : ∀ t ∈ r.status, t.IsScalar) : r.line.IsScalar := by
  have hj : r.toJson.IsScalar := by
    rw [toJson, Json.IsScalar]
    cases h : r.status with
    | none => simp [Json.Holds, Json.MembersHold, Json.MemberHolds, he, hp]
    | some t => simp [Json.Holds, Json.MembersHold, Json.MemberHolds, he, hp, hs t h]
  simp [line, Json.isScalar_write _ hj]

end Record

/-- An event is **sound** if at every time a record is made of it, whose line has an encoded
form. -/
def Event.Sound (e : Event) : Prop :=
  ∀ time, ∃ r, Record.of time e = .ok r ∧ r.line.IsScalar

/-- An event of the usual form is sound if its texts have no surrogates. -/
theorem Event.sound {name : Text} {members : List (Text × Json)} {l : Level} {status : Json}
    {st : Option Text} (hn : name.isBlank = false) (hname : name.IsScalar)
    (hm : Json.MembersHold Text.IsScalar (fun _ => True) members)
    (hs : Record.statusOf status = .ok st) (hst : ∀ t ∈ st, t.IsScalar) :
    Event.Sound ⟨.string name, .object members, .string l.name, status⟩ :=
  fun _ => ⟨_, Record.of_eq hn hs, Record.isScalar_line hname hm hst⟩

variable {s : Surroundings} {e : Event}

/-- Recording a sound event appends a line, unless telemetry is switched off. -/
theorem record_apply (he : e.Sound) :
    ∃ line, line.IsScalar ∧ ∀ w, record s e w =
      if enabled s.environment then World.change (appendLine s.settings.logFile line) w
      else .ok () w := by
  obtain ⟨r, hr, hline⟩ := he s.clock
  refine ⟨r.line, hline, fun w => ?_⟩
  rw [record]
  rw [hr]
  split <;> rfl

/-- **Recording a sound event never fails**, if the path of the folder of the log holds no NUL
or telemetry is switched off. -/
theorem record_eq_ok (he : e.Sound)
    (hn : enabled s.environment = true → s.settings.logFile.parent.hasNul = false) (w : World) :
    record s e w = .ok () ((record s e).after w) := by
  obtain ⟨line, hline, hrecord⟩ := record_apply (s := s) he
  rw [Act.after, hrecord]
  split
  · rename_i hon
    have hok := appendLine_eq_ok (t := w.tree) (hn hon) hline
    rw [World.change_apply]
    generalize appendLine s.settings.logFile line w.tree = answer at hok ⊢
    obtain ⟨t, r⟩ := answer
    obtain rfl : r = .ok () := hok
    rfl
  · rfl

end Telemetry

end CommandGate
