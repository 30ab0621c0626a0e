import CommandGate.Proofs.FileTree.Agreement

/-!
# Reading Files Back

A file that was changed is found again under its path, and holds what the change made of its
bytes. A resolution depends on folders alone, so it comes to the same in every tree that has
the folders of the first.

## Main results

* `FileTree.resolve_of_folders`: resolution where folders stay.
* `FileTree.update_eq_ok_iff`: when a file can be changed.
* `FileTree.read_update`: what is read from a file that was changed.
-/

namespace CommandGate

namespace FileTree

variable {t u : FileTree} {p : Path}

/-- Names lead to the same place as long as folders stay. -/
theorem slot_of_folders (hu : ∀ m, t.look m = some .folder → u.look m = some .folder)
    {here l : Location} {names : List String} (h : t.slot here names = .ok l) :
    u.slot here names = .ok l := by
  have step {here l : Location} {name : String} (hs : t.step here name = .ok l) :
      u.step here name = .ok l := by
    have hf := (step_eq_ok hs).1
    rw [step_congr (t := t) (by rw [hf, hu _ hf])]
    exact hs
  induction names generalizing here with
  | nil => exact h
  | cons name rest ih =>
      cases rest with
      | nil => exact step h
      | cons next more =>
          rw [slot_cons_cons] at h ⊢
          cases hs : t.step here name with
          | error e => simp [hs] at h
          | ok m =>
              simp only [hs] at h
              split at h
              · simp at h
              · -- something is looked up behind it, so it is a folder
                have hfolder : t.look m = some .folder := by
                  by_contra hm
                  rw [slot_of_not_folder hm] at h
                  simp at h
                have hnext : u.look m ≠ none := by simp [hu m hfolder]
                simp only [step hs, if_neg hnext]
                exact ih h

/-- A path leads to the same place as long as folders stay. -/
theorem resolve_of_folders (hu : ∀ m, t.look m = some .folder → u.look m = some .folder)
    {l : Location} (h : t.resolve p = .ok l) : u.resolve p = .ok l := by
  have hslot := slot_of_folders hu (resolve_eq_ok h).1
  rw [resolve_of_fits (fits_of_resolve_eq_ok h), hslot]
  rfl

/-- A file can be changed exactly if its path leads somewhere and no folder stands there. -/
theorem update_eq_ok_iff {change : Bytes → Bytes} :
    (∃ written, t.update p change = .ok written) ↔
      t.resolve p = .ok p.place ∧ t.look p.place ≠ some .folder := by
  constructor
  · rintro ⟨written, h⟩
    refine ⟨?_, (update_look h).1⟩
    rw [update_eq_look] at h
    cases hr : t.resolve p with
    | error f => simp [hr] at h
    | ok l => rw [(resolve_eq_ok hr).2]
  · rintro ⟨hr, hl⟩
    rw [update_eq_look, hr]
    exact ⟨_, if_neg hl⟩

/-- Changing a file keeps folders. -/
theorem update_keeps_folders {change : Bytes → Bytes} (h : t.update p change = .ok u)
    {m : Location} (hm : t.look m = some .folder) : u.look m = some .folder := by
  obtain ⟨hplace, hlook⟩ := update_look h
  rw [hlook, if_neg, hm]
  rintro rfl
  exact hplace hm

/-- The path of a file that was changed leads to it. -/
theorem resolve_of_update {change : Bytes → Bytes} (h : t.update p change = .ok u) :
    u.resolve p = .ok p.place :=
  resolve_of_folders (fun _ hm => update_keeps_folders h hm) (update_eq_ok_iff.mp ⟨u, h⟩).1

/-- A file that was changed can be changed again. -/
theorem update_of_update {change : Bytes → Bytes} (h : t.update p change = .ok u)
    (again : Bytes → Bytes) : ∃ written, u.update p again = .ok written := by
  refine update_eq_ok_iff.mpr ⟨resolve_of_update h, ?_⟩
  rw [(update_look h).2, if_pos rfl]
  simp

/-- **What is read from a file that was changed.** -/
theorem read_update {change : Bytes → Bytes} (h : t.update p change = .ok u) :
    u.read p = .ok (change (t.bytesAt p.place)) := by
  have hlook : u.look p.place = some (.file (change (t.bytesAt p.place))) := by
    rw [(update_look h).2, if_pos rfl]
  rw [read_eq_look, resolve_of_update h]
  simp only [hlook]

end FileTree

end CommandGate
