import CommandGate.Proofs.FileTree.Standing
import CommandGate.Proofs.Telemetry.RoundTrip

/-!
# Records behind a Log

Between two trees, records are appended to a log (`Telemetry.Appends`) if behind what the log
held stand their lines in the order of the records, and nothing else. Where the log can be
written, recording a sound event appends its record, and the log can be written again.

## Main results

* `Telemetry.Appends.trans`: what is appended by one step after another.
* `Telemetry.CanWrite.appendLine`: a log that can be written can be written again.
* `Telemetry.record_appends`: recording an event appends its record.
-/

namespace CommandGate

namespace Utf8

/-- The encoded form of two texts, one behind the other. -/
theorem encode_append {t u : Text} {bytes more : Bytes} (ht : encode t = .ok bytes)
    (hu : encode u = .ok more) : encode (t ++ u) = .ok (bytes ++ more) := by
  obtain ⟨cs, rfl⟩ := (encode_eq_ok_iff.mp ⟨bytes, ht⟩).exists_chars
  obtain ⟨ds, rfl⟩ := (encode_eq_ok_iff.mp ⟨more, hu⟩).exists_chars
  rw [encode_map_scalar, Except.ok.injEq] at ht hu
  rw [← List.map_append, encode_map_scalar, List.flatMap_append, ht, hu]

/-- Texts with the same encoded form are the same. -/
theorem encode_inj {t u : Text} {bytes : Bytes} (ht : encode t = .ok bytes)
    (hu : encode u = .ok bytes) : t = u := by
  have decoded {v : Text} (hv : encode v = .ok bytes) : decode ([] ++ bytes) = .ok ([] ++ v) :=
    decode_append_encode rfl hv
  exact Except.ok.inj ((decoded ht).symm.trans (decoded hu))

end Utf8

namespace Telemetry

open FileTree

variable {log : Path} {rs more : List Record} {t u v : FileTree}

/-! ### What is appended -/

/-- Records are **appended** to a log between two trees: behind what it held stand their lines,
in their order. -/
def Appends (log : Path) (rs : List Record) (t u : FileTree) : Prop :=
  ∃ bytes, Utf8.encode (rs.flatMap Record.line) = .ok bytes ∧
    u.bytesAt log.place = t.bytesAt log.place ++ bytes

namespace Appends

/-- Nothing is appended to a log that stays as it is. -/
theorem of_eq (h : u.bytesAt log.place = t.bytesAt log.place) : Appends log [] t u :=
  ⟨[], rfl, by rw [h, List.append_nil]⟩

/-- **What is appended by one step after another.** -/
theorem trans (h : Appends log rs t u) (h' : Appends log more u v) :
    Appends log (rs ++ more) t v := by
  obtain ⟨bytes, hbytes, hu⟩ := h
  obtain ⟨rest, hrest, hv⟩ := h'
  refine ⟨bytes ++ rest, ?_, ?_⟩
  · rw [List.flatMap_append]
    exact Utf8.encode_append hbytes hrest
  · rw [hv, hu, List.append_assoc]

/-- What is appended is determined up to the lines of the records. -/
theorem lines_eq (h : Appends log rs t u) (h' : Appends log more t u) :
    rs.flatMap Record.line = more.flatMap Record.line := by
  obtain ⟨bytes, hbytes, hu⟩ := h
  obtain ⟨rest, hrest, hu'⟩ := h'
  obtain rfl : bytes = rest := List.append_cancel_left (hu.symm.trans hu')
  exact Utf8.encode_inj hbytes hrest

/-- To a log that stays as it is nothing is appended. -/
theorem eq_nil (h : Appends log rs t u) (hsame : u.bytesAt log.place = t.bytesAt log.place) :
    rs = [] := by
  have hlines := h.lines_eq (of_eq hsame)
  rw [List.flatMap_nil, List.flatMap_eq_nil_iff] at hlines
  refine List.eq_nil_iff_forall_not_mem.mpr fun r hr => ?_
  -- a line has a line feed at its end
  have hline := hlines r hr
  rw [Record.line, List.append_eq_nil_iff] at hline
  exact absurd hline.2 (by decide)

end Appends

/-! ### Logs that can be written -/

/-- Where a log can be written, its folder is made. -/
theorem CanWrite.makeFolders_eq (h : CanWrite log t) :
    t.makeFolders log.parent = ((t.makeFolders log.parent).1, .ok ()) :=
  Prod.ext rfl h.1

/-- A log can be written where its folder stands and no folder stands in its own place. -/
theorem canWrite_of_stands (h : Stands t log.parent) (hr : t.resolve log = .ok log.place)
    (hl : t.look log.place ≠ some .folder) : CanWrite log t := by
  rw [CanWrite, h.makeFolders]
  exact ⟨rfl, update_eq_ok_iff.mpr ⟨hr, hl⟩⟩

/-- **A log that can be written can be written again** once a line is appended. -/
theorem CanWrite.appendLine (h : CanWrite log t) (line : Text) :
    CanWrite log (appendLine log line t).1 := by
  obtain ⟨opened, hopened⟩ := h.2
  obtain ⟨hresolve, hplace⟩ := update_eq_ok_iff.mp ⟨opened, hopened⟩
  have hstands := stands_of_makeFolders h.makeFolders_eq
  -- what is written keeps the folders of the tree in which the folder of the log was made
  have again {made written : FileTree} {more : Bytes} (hw : made.append log more = .ok written)
      (hs : Stands made log.parent) : CanWrite log written ∧ Stands written log.parent := by
    have hs' : Stands written log.parent :=
      hs.of_folders fun _ hm => update_keeps_folders hw hm
    refine ⟨canWrite_of_stands hs' (resolve_of_update hw) ?_, hs'⟩
    rw [(update_look hw).2, if_pos rfl]
    simp
  obtain ⟨hcan, hopens⟩ := again hopened hstands
  rw [Telemetry.appendLine, h.makeFolders_eq]
  simp only [hopened]
  cases Utf8.encode line with
  | error e => exact hcan
  | ok bytes =>
      dsimp only
      cases hwritten : opened.append log bytes with
      | error f => exact hcan
      | ok written => exact (again hwritten hopens).1

/-! ### Recording -/

variable {s : Surroundings} {e : Event}

/-- **Recording an event appends its record** where the log can be written, and the log can be
written again. -/
theorem record_appends (he : e.Sound) (hon : enabled s.environment = true) {w : World}
    (hlog : CanWrite s.settings.logFile w.tree) :
    ∃ (r : Record) (u : FileTree), Record.of s.clock e = .ok r ∧
      record s e w = .ok () { w with tree := u } ∧
      Appends s.settings.logFile [r] w.tree u ∧ CanWrite s.settings.logFile u := by
  obtain ⟨r, hr, hline⟩ := he s.clock
  obtain ⟨bytes, hbytes⟩ := Utf8.encode_eq_ok_iff.mpr hline
  obtain ⟨written, happend, hread⟩ := appendLine_of_canWrite hlog hbytes
  have hagain := hlog.appendLine r.line
  rw [happend] at hagain
  refine ⟨r, written, hr, ?_, ⟨bytes, ?_, bytesAt_of_read hread⟩, hagain⟩
  · rw [record, if_pos hon, hr]
    dsimp only
    rw [World.change_apply, happend]
  · rw [List.flatMap_singleton, hbytes]

end Telemetry

end CommandGate
