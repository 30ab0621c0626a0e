import CommandGate.Proofs.FileTree.Making
import CommandGate.Proofs.Program.Frame

/-!
# Making the Directories of the Program

Making a directory never removes or changes anything. Along a plain path with acceptable names
it is all or nothing: either folders stand all along the path afterwards, or the directory fault
names the path and the world is as it was. What was made is found, is not made again, and may
be made before or after another directory.

The only thing besides a file in the way that keeps such a directory from being made is a
spelling that is too long for the file system.

## Main results

* `Directory.create_settles`: what making a directory comes to.
* `Directory.refused_of_longSpelling`: a path that is refused with no file in the way.
-/

namespace CommandGate

open FileTree

namespace Directory

variable {p q : Path} {w : World}

/-- What making a directory comes to along a plain path with acceptable names. -/
structure Settles (p : Path) (w : World) : Prop where
  /-- It succeeds exactly if the path is not too long and no file is in the way. -/
  succeeds : (∃ w', create p w = .ok () w') ↔
    p.toString.utf8ByteSize ≤ maxPathBytes ∧ ¬ w.tree.FileInWay p.names
  /-- Then folders stand all along the path, nothing else is new, and the path is found. -/
  made : ∀ w', create p w = .ok () w' →
    w' = { w with tree := w'.tree } ∧
    (∀ m, w'.tree.look m = if m <+: p.names then some .folder else w.tree.look m) ∧
    present p w' = .ok true w'
  /-- Otherwise the fault names the path, and nothing is changed. -/
  refused : ∀ f w', create p w = .error f w' →
    w' = w ∧ ∃ errno, f = .directory (.notCreated p errno)

/-! ### One directory -/

/-- A directory is made exactly if its folders can be made, and only the tree is changed. -/
theorem create_eq_ok_iff {w' : World} :
    create p w = .ok () w' ↔
      ∃ made, w.tree.makeFolders p = (made, .ok ()) ∧ w' = { w with tree := made } := by
  rw [create_apply]
  generalize w.tree.makeFolders p = folders
  obtain ⟨made, f | ⟨⟩⟩ := folders
  · cases f <;> simp
  · simp [eq_comm]

/-- A directory whose folders are refused is not made. -/
theorem create_of_refused {errno : Errno}
    (h : w.tree.makeFolders p = (w.tree, .error (.refused errno p))) :
    create p w = .error (.directory (.notCreated p errno)) w := by
  rw [create_apply, h]

/-- Making a directory adds folders to the tree, on the way to it, and changes nothing else. -/
theorem after_create_adds (p : Path) (w : World) :
    (create p).after w = { w with tree := ((create p).after w).tree } ∧
      AddsFolders (OnTheWay p.names) w.tree ((create p).after w).tree := by
  rw [after_create]
  exact ⟨rfl, makeFolders_addsFolders w.tree p⟩

/-- **What was made is found, and is not made again**, whatever its path. -/
theorem create_again {w' : World} (h : create p w = .ok () w') :
    present p w' = .ok true w' ∧ create p w' = .ok () w' := by
  obtain ⟨made, hmade, rfl⟩ := create_eq_ok_iff.mp h
  have hstands := stands_of_makeFolders hmade
  refine ⟨?_, create_eq_ok_iff.mpr ⟨made, hstands.makeFolders, rfl⟩⟩
  rw [present_apply, hstands.present]

/-- Along a plain path with acceptable names it is all or nothing. -/
theorem settles (hn : p.IsPlain) (ha : p.Acceptable) (w : World) : Settles p w where
  succeeds := by
    rw [← makeFolders_eq_ok_iff hn ha]
    simp only [create_eq_ok_iff]
    constructor
    · rintro ⟨-, made, hmade, -⟩
      rw [hmade]
    · exact fun h => ⟨_, _, Prod.ext rfl h, rfl⟩
  made w' h := by
    obtain ⟨made, hmade, rfl⟩ := create_eq_ok_iff.mp h
    exact ⟨rfl, look_makeFolders hn hmade, (create_again h).1⟩
  refused f w' h := by
    have hne : (w.tree.makeFolders p).2 ≠ .ok () := by
      intro hok
      have hmade := create_eq_ok_iff.mpr ⟨_, Prod.ext rfl hok, rfl⟩
      rw [hmade] at h
      simp at h
    obtain ⟨errno, herror⟩ := makeFolders_of_ne_ok hn ha hne
    rw [create_of_refused herror] at h
    obtain ⟨rfl, rfl⟩ := EStateM.Result.error.inj h
    exact ⟨rfl, errno, rfl⟩

/-! ### Two directories -/

/-- **Two directories made in either order** leave the same. -/
theorem create_comm (hp : p.IsPlain) (hq : q.IsPlain) {u v : World} (h : create p w = .ok () u)
    (h' : create q u = .ok () v) :
    ∃ u' v', create q w = .ok () u' ∧ create p u' = .ok () v' ∧
      v' = { v with tree := v'.tree } ∧ ∀ m, v'.tree.look m = v.tree.look m := by
  obtain ⟨made, hmade, rfl⟩ := create_eq_ok_iff.mp h
  obtain ⟨both, hboth, rfl⟩ := create_eq_ok_iff.mp h'
  obtain ⟨made', both', hmade', hboth', hlook⟩ := makeFolders_comm hp hq hmade hboth
  exact ⟨_, _, create_eq_ok_iff.mpr ⟨made', hmade', rfl⟩,
    create_eq_ok_iff.mpr ⟨both', hboth', rfl⟩, rfl, hlook⟩

/-- **What making a directory comes to.** It adds folders and changes nothing else. Along a plain
path with acceptable names it succeeds exactly if the path is not too long and no file is in
the way; then there are folders all along it and nothing else is new; otherwise the fault
names the path and nothing changes. Making it again changes nothing, and two directories
may be made in either order. -/
theorem create_settles (p q : Path) (w : World) :
    ((create p).after w = { w with tree := ((create p).after w).tree } ∧
      AddsFolders (OnTheWay p.names) w.tree ((create p).after w).tree) ∧
    (p.IsPlain → p.Acceptable → Settles p w) ∧
    (∀ u, create p w = .ok () u → create p u = .ok () u) ∧
    (p.IsPlain → q.IsPlain → ∀ u v, create p w = .ok () u → create q u = .ok () v →
      ∃ u' v', create q w = .ok () u' ∧ create p u' = .ok () v' ∧
        v' = { v with tree := v'.tree } ∧ ∀ m, v'.tree.look m = v.tree.look m) :=
  ⟨after_create_adds p w, fun hn ha => settles hn ha w, fun _ h => (create_again h).2,
    fun hp hq _ _ h h' => create_comm hp hq h h'⟩

/-- Two directories made in an empty tree, one beside the other. -/
theorem create_settles_beside :
    Settles ⟨.relative, ["a", "b"]⟩ { tree := [] } ∧
      ∃ u v u' v', create ⟨.relative, ["a", "b"]⟩ { tree := [] } = .ok () u ∧
        create ⟨.relative, ["a", "b"]⟩ u = .ok () u ∧
        create ⟨.relative, ["a", "c"]⟩ u = .ok () v ∧
        create ⟨.relative, ["a", "c"]⟩ { tree := [] } = .ok () u' ∧
        create ⟨.relative, ["a", "b"]⟩ u' = .ok () v' ∧
        v' = { v with tree := v'.tree } ∧ ∀ m, v'.tree.look m = v.tree.look m := by
  obtain ⟨-, hsettles, hagain, hcomm⟩ :=
    create_settles ⟨.relative, ["a", "b"]⟩ ⟨.relative, ["a", "c"]⟩ { tree := [] }
  obtain ⟨u', v', hu', hv', hsame⟩ := hcomm (by decide) (by decide) _ _ rfl rfl
  exact ⟨hsettles (by decide) ⟨rfl, by decide⟩, _, _, u', v', rfl, hagain _ rfl, rfl, hu', hv',
    hsame⟩

/-! ### A path that is too long -/

/-- A path of names that are acceptable, one by one, with a spelling that is too long. -/
def longSpelling : Path :=
  ⟨.relative, List.replicate 17 (String.ofList (List.replicate 255 'a'))⟩

/-- **A path that is refused with no file in the way**: its names are acceptable and nothing
stands anywhere, but its spelling is too long. -/
theorem refused_of_longSpelling :
    longSpelling.IsPlain ∧ longSpelling.Acceptable ∧
      ¬ FileInWay [] longSpelling.names ∧
      create longSpelling { tree := [] } =
        .error (.directory (.notCreated longSpelling .nameTooLong)) { tree := [] } := by
  have hname : ∀ name ∈ longSpelling.names, name = String.ofList (List.replicate 255 'a') :=
    fun _ hm => List.eq_of_mem_replicate hm
  have hplain : longSpelling.IsPlain := fun hm => absurd (hname _ hm) (by decide +kernel)
  have hnul : longSpelling.hasNul = false := by
    have hplain (n : Nat) :
        (String.ofList (List.replicate n 'a')).toList.contains '\x00' = false := by
      simp [List.mem_replicate]
    rw [Path.hasNul, List.any_eq_false]
    intro name hm
    rw [hname name hm, hplain 255]
    exact Bool.false_ne_true
  have hshort : ∀ name ∈ longSpelling.names, name.utf8ByteSize ≤ maxNameBytes := by
    intro name hm
    rw [hname name hm]
    decide +kernel
  have hlong : maxPathBytes < longSpelling.toString.utf8ByteSize := by decide +kernel
  have hempty : ¬ FileInWay [] longSpelling.names := by
    rintro ⟨front, content, -, hfile⟩
    cases front with
    | nil => simp [look_nil] at hfile
    | cons name rest => simp [look_empty] at hfile
  refine ⟨hplain, ⟨hnul, hshort⟩, hempty, ?_⟩
  exact create_of_refused (makeFolders_of_long hnul hlong)

end Directory

end CommandGate
