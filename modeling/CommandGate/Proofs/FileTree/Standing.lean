import CommandGate.Proofs.FileTree.Files

/-!
# Folders That Stand

A path stands in a tree if it leads to a folder there. What was made stands, whatever steps
back its path has, and it stands as long as folders stay. What is below a path that stands is
found by its own names.

## Main results

* `FileTree.stands_of_makeFolders`: what was made stands.
* `FileTree.Stands.makeFolders`: what stands is not made again.
* `FileTree.Stands.resolve_file`, `FileTree.Stands.present_pair`: what is found below.
-/

namespace CommandGate

namespace FileTree

/-- A path **stands** in a tree if it is resolved, and a folder stands where it leads. -/
structure Stands (t : FileTree) (p : Path) : Prop where
  resolve : t.resolve p = .ok p.place
  look : t.look p.place = some .folder

variable {t u made : FileTree} {p : Path} {file first second : String}

/-! ### What was made -/

/-- A folder that was made, or was there already, stands. -/
theorem stands_of_ensureFolder (h : t.ensureFolder p = (u, .ok ())) : Stands u p := by
  cases hr : t.resolve p with
  | error f => simp [ensureFolder_of_error hr] at h
  | ok l =>
      obtain rfl := (resolve_eq_ok hr).2
      cases hl : t.look p.place with
      | some e =>
          rw [ensureFolder_of_some hr hl, Prod.mk.injEq] at h
          obtain ⟨rfl, he⟩ := h
          split_ifs at he with hfolder
          exact ⟨hr, hl.trans (congrArg some hfolder)⟩
      | none =>
          have hmade : t.makeFolder p = .ok u := by
            rw [ensureFolder_of_none hr hl, Prod.mk.injEq] at h
            simp [makeFolder, hr, at?_eq_none_iff.mpr hl, h.1, Bind.bind, Except.bind, Pure.pure,
              Except.pure]
          obtain ⟨-, hlook⟩ := makeFolder_look hmade
          have hfolder : u.look p.place = some .folder := by rw [hlook, if_pos rfl]
          refine ⟨resolve_of_folders (fun m hm => ?_) hr, hfolder⟩
          rw [hlook]
          split_ifs
          · rfl
          · exact hm

/-- **What was made stands.** -/
theorem stands_of_makeFolders (h : t.makeFolders p = (u, .ok ())) : Stands u p := by
  obtain ⟨anchor, names⟩ := p
  rcases names.eq_nil_or_concat with rfl | ⟨front, last, rfl⟩
  · exact stands_of_ensureFolder h
  · rw [List.concat_eq_append] at h ⊢
    have hr : (last :: front.reverse).reverse = front ++ [last] := by simp
    rw [makeFolders, ← hr, List.reverse_reverse] at h
    rw [← hr]
    by_cases hmissing : ∃ q, (t.ensureFolder ⟨anchor, (last :: front.reverse).reverse⟩).2 =
        .error (.refused .notFound q)
    · obtain ⟨q, hq⟩ := hmissing
      rw [makeFoldersUp_of_missing (Prod.ext rfl hq) rfl] at h
      split_ifs at h with hmade
      · exact stands_of_ensureFolder h
      · exact absurd (congrArg Prod.snd h) hmade
    · rw [makeFoldersUp_of_settled fun q hq => hmissing ⟨q, hq⟩] at h
      exact stands_of_ensureFolder h

namespace Stands

/-- **What stands is not made again.** -/
theorem makeFolders (h : Stands t p) : t.makeFolders p = (t, .ok ()) := by
  have he : t.ensureFolder p = (t, .ok ()) := by
    rw [ensureFolder_of_some h.resolve h.look]
    rfl
  rw [makeFolders_of_settled (by simp [he]), he]

/-- What stands does so as long as folders stay. -/
theorem of_folders (h : Stands t p)
    (hu : ∀ m, t.look m = some .folder → u.look m = some .folder) : Stands u p :=
  ⟨resolve_of_folders hu h.resolve, hu _ h.look⟩

/-! ### What is found below -/

/-- A file below a path that stands is found under its own name. -/
theorem resolve_file (h : Stands t p) (hf : (p.join [file]).Fits) (hd : file ≠ "..")
    (hs : file.utf8ByteSize ≤ maxNameBytes) :
    t.resolve (p.join [file]) = .ok (p.place ++ [file]) := by
  have hslot := (resolve_eq_ok h.resolve).1
  rw [resolve_of_fits hf, Path.join, slot_concat, hslot]
  simp only [h.look, reduceCtorEq, and_false, if_false, step_of_plain h.look hd,
    Nat.not_lt.mpr hs]
  rfl

/-- What is two names below a path that stands is present if something stands there. -/
theorem present_pair (h : Stands t p) (hf : (p.join [first, second]).Fits) (hd : first ≠ "..")
    (hd' : second ≠ "..") (hs : first.utf8ByteSize ≤ maxNameBytes)
    (hs' : second.utf8ByteSize ≤ maxNameBytes) :
    t.present (p.join [first, second]) = .ok (t.look (p.place ++ [first, second])).isSome := by
  have hfirst : t.slot [] (p.names ++ [first]) = .ok (p.place ++ [first]) := by
    have hslot := (resolve_eq_ok h.resolve).1
    rw [slot_concat, hslot]
    simp only [h.look, reduceCtorEq, and_false, if_false, step_of_plain h.look hd,
      Nat.not_lt.mpr hs]
  have hresolve : t.resolve (p.join [first, second]) =
      (if t.look (p.place ++ [first]) = none then .error .notFound
        else t.step (p.place ++ [first]) second).mapError
          (.refused · (p.join [first, second])) := by
    have hnames : (p.join [first, second]).names = p.names ++ [first] ++ [second] := by
      simp [Path.join]
    rw [resolve_of_fits hf, hnames, slot_concat, hfirst]
    simp
  have habsent (hf : t.look (p.place ++ [first]) ≠ some .folder) :
      t.look (p.place ++ [first, second]) = none := by
    by_contra hsecond
    have hbelow : t.look (p.place ++ [first] ++ [second]) ≠ none := by simpa using hsecond
    exact hf (look_append hbelow (by simp))
  rw [present_eq_look, hresolve]
  cases hl : t.look (p.place ++ [first]) with
  | none => simp [habsent (by simp [hl])]
  | some e =>
      rw [if_neg (by simp)]
      cases e with
      | folder =>
          rw [step_of_plain hl hd', if_neg (Nat.not_lt.mpr hs')]
          simp
      | file content =>
          have hstep : t.step (p.place ++ [first]) second = .error .notDirectory := by
            simp [step, isFolderAt, hl]
          rw [hstep]
          simp [habsent (by simp [hl])]

end Stands

end FileTree

end CommandGate
