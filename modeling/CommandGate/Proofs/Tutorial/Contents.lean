import CommandGate.Proofs.FileTree.Standing
import CommandGate.Proofs.Tutorial.Stored

/-!
# What the Tutorial File May Hold

Below a folder that stands, finding the tutorial state comes to something whatever stands in
the place of the file: the tutorial is on where nothing stands, a folder is a tutorial fault,
and the bytes of a file decide otherwise. Bytes that are garbled (`Tutorial.Garbled`) are a
fault of another kind; there is no other way in which finding fails.

## Main results

* `Tutorial.find_of_stands`: what finding the state comes to.
* `Tutorial.find_error_iff`: when finding it is a fault that is no tutorial fault.
* `Tutorial.set_of_stands`: when a state can be set.
-/

namespace CommandGate

open FileTree

namespace Tutorial

/-- Bytes that are **garbled**: they are no UTF-8, or the first thing wrong with their text, as
JSON, is a whole number too long to be read. -/
def Garbled (bytes : Bytes) : Prop :=
  (∃ e, Utf8.decode bytes = .error e) ∨
    ∃ t digits, Utf8.decode bytes = .ok t ∧ Json.parse (unifyLines t) = .error (.longInteger digits)

/-- **Garbled bytes are a fault that is no tutorial fault**, and no other bytes are. -/
theorem garbled_iff (path : Path) (bytes : Bytes) :
    Garbled bytes ↔ ∃ f, ofBytes path bytes = .error f ∧ ∀ fault, f ≠ .tutorial fault := by
  rw [Garbled, ofBytes]
  cases Utf8.decode bytes with
  | error e => simp
  | ok t =>
      dsimp only
      rw [ofDocument]
      cases hparse : Json.parse (unifyLines t) with
      | ok v => cases v <;> simp [hparse]
      | error e => cases e <;> simp [hparse]

variable {home : Path} {file state : String} {t : FileTree}

/-- **What finding the state comes to** below a folder that stands. -/
theorem find_of_stands (h : Stands t home) (hf : (home.join [file]).Fits) (hd : file ≠ "..")
    (hs : file.utf8ByteSize ≤ maxNameBytes) :
    find (home.join [file]) t =
      match t.look (home.place ++ [file]) with
      | none => .ok ⟨on⟩
      | some .folder => .error (.tutorial (.unreadable (home.join [file]) (.refused .isDirectory)))
      | some (.file bytes) => ofBytes (home.join [file]) bytes := by
  have hr := h.resolve_file hf hd hs
  rw [find, present_eq_look, hr, read_eq_look, hr]
  dsimp only
  cases t.look (home.place ++ [file]) with
  | none => rfl
  | some e => cases e <;> rfl

/-- **When finding the state is a fault that is no tutorial fault**: when the file is there and
garbled. -/
theorem find_error_iff (h : Stands t home) (hf : (home.join [file]).Fits) (hd : file ≠ "..")
    (hs : file.utf8ByteSize ≤ maxNameBytes) :
    (∃ f, find (home.join [file]) t = .error f ∧ ∀ fault, f ≠ .tutorial fault) ↔
      ∃ bytes, t.look (home.place ++ [file]) = some (.file bytes) ∧ Garbled bytes := by
  rw [find_of_stands h hf hd hs]
  cases t.look (home.place ++ [file]) with
  | none => simp
  | some e =>
      cases e with
      | folder => simp
      | file bytes => simp [garbled_iff (home.join [file])]

/-- **When a state can be set**: when no folder stands in the place of the file. -/
theorem set_of_stands (h : Stands t home) (hf : (home.join [file]).Fits) (hd : file ≠ "..")
    (hs : file.utf8ByteSize ≤ maxNameBytes) (hstate : state ∈ states) :
    (set (home.join [file]) state t).2 = .ok () ↔
      t.look (home.place ++ [file]) ≠ some .folder := by
  have hr := h.resolve_file hf hd hs
  have hplace := Path.place_join_file home hd
  have hparent : (home.join [file]).parent = home := by simp [Path.parent, Path.join]
  have hwrite : (∃ written, t.write (home.join [file]) (fileContent ⟨state⟩) = .ok written) ↔
      t.look (home.place ++ [file]) ≠ some .folder := by
    rw [write, update_eq_ok_iff, hplace]
    exact and_iff_right hr
  rw [set, if_neg (not_not_intro hstate), hparent, h.makeFolders, ← hwrite]
  dsimp only
  cases t.write (home.join [file]) (fileContent ⟨state⟩) <;> simp

end Tutorial

end CommandGate
