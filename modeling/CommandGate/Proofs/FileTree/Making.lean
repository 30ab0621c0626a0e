import CommandGate.Proofs.FileTree.Standing

/-!
# What Making Folders Comes To

Along a plain path whose names the file system takes, a folder and those above it can be made
exactly if the path is not too long and no file stands on the way. Either folders stand all
along the way afterwards and nothing else is new, or nothing is changed at all. That holds
from the tree before, so the order in which two folders are made makes no difference.

## Main results

* `FileTree.makeFolders_eq_ok_iff`: when folders can be made.
* `FileTree.look_makeFolders`: what stands where afterwards.
* `FileTree.makeFolders_of_ne_ok`: where folders cannot be made, nothing changes.
* `FileTree.makeFolders_ne_iff`: when making folders changes a tree.
* `FileTree.makeFolders_comm`: two folders made in either order.
-/

namespace CommandGate

/-- The names of a path are **acceptable** if the file system takes each of them. -/
structure Path.Acceptable (p : Path) : Prop where
  noNul : p.hasNul = false
  short : ∀ name ∈ p.names, name.utf8ByteSize ≤ maxNameBytes

/-- A path can be named in full if all its names can and its text is short enough. -/
theorem Path.nameable_iff {p : Path} :
    p.Nameable ↔ p.Acceptable ∧ p.toString.utf8ByteSize ≤ maxPathBytes :=
  ⟨fun ⟨⟨hn, hl⟩, hs⟩ => ⟨⟨hn, hs⟩, hl⟩, fun ⟨⟨hn, hs⟩, hl⟩ => ⟨⟨hn, hl⟩, hs⟩⟩

/-! ### The parent of a path -/

theorem Path.IsPlain.parent {p : Path} (h : p.IsPlain) : p.parent.IsPlain :=
  fun hm => h ((List.dropLast_prefix p.names).subset hm)

theorem Path.Acceptable.parent {p : Path} (h : p.Acceptable) : p.parent.Acceptable := by
  have hsub := (List.dropLast_prefix p.names).subset
  have hnul := h.noNul
  rw [hasNul, List.any_eq_false] at hnul
  refine ⟨?_, fun name hm => h.short name (hsub hm)⟩
  rw [hasNul, List.any_eq_false]
  exact fun name hm => hnul name (hsub hm)

theorem Path.Fits.parent {p : Path} (h : p.Fits) : p.parent.Fits := by
  obtain ⟨more, hmore⟩ := List.dropLast_prefix p.names
  have hwhole : (Path.mk p.anchor (p.names.dropLast ++ more)).Fits := by rwa [hmore]
  exact hwhole.front

namespace FileTree

/-- A **file is in the way** along names if one stands at the place of a front of them. -/
def FileInWay (t : FileTree) (names : List String) : Prop :=
  ∃ front content, front <+: names ∧ t.look front = some (.file content)

variable {t u v made : FileTree} {here : Location} {names : List String} {p q : Path}

/-! ### Files in the way -/

/-- Where no name is too long, a way is barred exactly by a file on it. -/
theorem barred_iff_of_short (hs : ∀ name ∈ names, name.utf8ByteSize ≤ maxNameBytes) :
    t.Barred here names ↔
      ∃ front content, front ≠ [] ∧ front <+: names ∧
        t.look (here ++ front) = some (.file content) := by
  induction names generalizing here with
  | nil => simp +contextual [Barred]
  | cons name rest ih =>
      obtain ⟨hname, hrest⟩ := List.forall_mem_cons.mp hs
      rw [Barred, ih hrest]
      constructor
      · rintro (hlong | ⟨content, hfile⟩ | ⟨-, front, content, -, hfront, hfile⟩)
        · exact absurd hname (Nat.not_le.mpr hlong)
        · exact ⟨[name], content, by simp, by simp, hfile⟩
        · exact ⟨name :: front, content, by simp, List.cons_prefix_cons.mpr ⟨rfl, hfront⟩,
            by simpa using hfile⟩
      · rintro ⟨front, content, hne, hfront, hfile⟩
        obtain ⟨first, more, rfl⟩ := List.exists_cons_of_ne_nil hne
        obtain ⟨rfl, hmore⟩ := List.cons_prefix_cons.mp hfront
        rcases eq_or_ne more [] with rfl | hne
        · exact .inr (.inl ⟨content, hfile⟩)
        · rw [List.append_cons] at hfile
          have hfolder : t.look (here ++ [first]) = some .folder :=
            look_append (by rw [hfile]; simp) hne
          exact .inr (.inr ⟨hfolder, more, content, hne, hmore, hfile⟩)

/-- From the root, a way without names that are too long is barred exactly by a file. -/
theorem barred_iff (hs : ∀ name ∈ names, name.utf8ByteSize ≤ maxNameBytes) :
    t.Barred [] names ↔ t.FileInWay names := by
  rw [barred_iff_of_short hs]
  constructor
  · rintro ⟨front, content, -, hfront, hfile⟩
    exact ⟨front, content, hfront, hfile⟩
  · rintro ⟨front, content, hfront, hfile⟩
    refine ⟨front, content, ?_, hfront, hfile⟩
    rintro rfl
    simp [look_nil] at hfile

/-- No file is in a way that is passable. -/
theorem Passable.not_fileInWay (h : t.Passable [] names) : ¬ t.FileInWay names :=
  fun hfile => h.not_barred ((barred_iff h.short).mpr hfile)

/-- Folders stand all along a passable way. -/
theorem Passable.look_front (h : t.Passable [] names) {front : List String}
    (hf : front <+: names) : t.look front = some .folder := by
  obtain ⟨more, rfl⟩ := hf
  exact h.append_left.look_eq (look_nil t)

/-- Added folders put no file in the way, and take none away. -/
theorem AddsFolders.fileInWay_iff {allowed : Location → Prop} (h : AddsFolders allowed t made) :
    made.FileInWay names ↔ t.FileInWay names := by
  simp only [FileInWay, h.look_file_iff]

/-! ### One path -/

/-- **Where folders cannot be made**, although the names are acceptable, the file system refuses
the whole path and nothing changes. -/
theorem makeFolders_of_ne_ok (hn : p.IsPlain) (ha : p.Acceptable)
    (h : (t.makeFolders p).2 ≠ .ok ()) : ∃ e, t.makeFolders p = (t, .error (.refused e p)) := by
  by_cases hl : maxPathBytes < p.toString.utf8ByteSize
  · exact ⟨_, makeFolders_of_long ha.noNul hl⟩
  rcases makeFolders_cases (t := t) hn ⟨ha.noNul, Nat.not_lt.mp hl⟩ with ⟨hok, -⟩ | ⟨-, hbar, -⟩
  · exact absurd hok h
  · -- what bars the way afterwards is a file, and it was there before
    have hadd := makeFolders_addsFolders t p
    rw [barred_iff ha.short, hadd.fileInWay_iff, ← barred_iff ha.short] at hbar
    exact makeFolders_of_barred hn ha.noNul hbar

/-- **When folders can be made** along a plain path with acceptable names: when the path is not
too long and no file is in the way. -/
theorem makeFolders_eq_ok_iff (hn : p.IsPlain) (ha : p.Acceptable) :
    (t.makeFolders p).2 = .ok () ↔
      p.toString.utf8ByteSize ≤ maxPathBytes ∧ ¬ t.FileInWay p.names := by
  have hadd := makeFolders_addsFolders t p
  constructor
  · intro h
    obtain ⟨hf, hpass⟩ := fits_passable_of_makeFolders_eq_ok hn (Prod.ext rfl h)
    exact ⟨hf.2, mt hadd.fileInWay_iff.mpr hpass.not_fileInWay⟩
  · rintro ⟨hl, hfile⟩
    rcases makeFolders_cases (t := t) hn ⟨ha.noNul, hl⟩ with ⟨hok, -⟩ | ⟨-, hbar, -⟩
    · exact hok
    · rw [barred_iff ha.short, hadd.fileInWay_iff] at hbar
      exact absurd hbar hfile

/-- **What stands where after folders were made**: folders all along the way, and everything
else as before. -/
theorem look_makeFolders (hn : p.IsPlain) (h : t.makeFolders p = (made, .ok ())) (m : Location) :
    made.look m = if m <+: p.names then some .folder else t.look m := by
  have hadd := addsFolders_of_makeFolders h
  obtain ⟨-, hpass⟩ := fits_passable_of_makeFolders_eq_ok hn h
  split_ifs with hm
  · exact hpass.look_front hm
  · exact hadd.look_of_not (mt (onTheWay_iff hn).mp hm)

/-- **When making folders changes a tree**: when the path fits, and what is missing on the way
comes before anything that bars it. -/
theorem makeFolders_ne_iff (hn : p.IsPlain) :
    (t.makeFolders p).1 ≠ t ↔
      p.Fits ∧ ¬ t.Passable [] p.names ∧ ¬ t.Barred [] p.names := by
  constructor
  · intro hne
    have hfits : p.Fits := by
      by_contra hf
      refine hne ?_
      cases hnul : p.hasNul with
      | true => rw [makeFolders_of_hasNul hnul]
      | false => rw [makeFolders_of_long hnul (by simpa [Path.Fits, hnul] using hf)]
    refine ⟨hfits, fun hpass => hne ?_, fun hbar => hne ?_⟩
    · rw [makeFolders_of_passable hn hfits hpass]
    · obtain ⟨e, he⟩ := makeFolders_of_barred hn hfits.1 hbar
      rw [he]
  · rintro ⟨hf, hpass, hbar⟩ heq
    rcases makeFolders_cases (t := t) hn hf with ⟨-, hpass'⟩ | ⟨-, hbar', -⟩
    · exact hpass (heq ▸ hpass')
    · exact hbar (heq ▸ hbar')

/-- Only acceptable names are made. -/
theorem acceptable_of_makeFolders (hn : p.IsPlain) (h : (t.makeFolders p).2 = .ok ()) :
    p.Acceptable := by
  obtain ⟨hf, hpass⟩ := fits_passable_of_makeFolders_eq_ok hn (Prod.ext rfl h)
  exact ⟨hf.1, hpass.short⟩

/-- A folder that was made is present. -/
theorem Stands.present (h : Stands t p) : t.present p = .ok true := by
  rw [present_eq_look, h.resolve]
  simp [h.look]

/-! ### Two paths -/

/-- Whether folders can be made does not depend on folders that were added before. -/
theorem AddsFolders.makeFolders_ok_iff {allowed : Location → Prop} (h : AddsFolders allowed t u)
    (hn : p.IsPlain) : (u.makeFolders p).2 = .ok () ↔ (t.makeFolders p).2 = .ok () := by
  by_cases ha : p.Acceptable
  · rw [makeFolders_eq_ok_iff hn ha, makeFolders_eq_ok_iff hn ha, h.fileInWay_iff]
  · exact iff_of_false (mt (acceptable_of_makeFolders hn) ha)
      (mt (acceptable_of_makeFolders hn) ha)

/-- **Two folders made in either order.** If the second can be made after the first, the first
can be made after the second, and the same stands everywhere afterwards. -/
theorem makeFolders_comm (hp : p.IsPlain) (hq : q.IsPlain) (h : t.makeFolders p = (u, .ok ()))
    (h' : u.makeFolders q = (v, .ok ())) :
    ∃ u' v', t.makeFolders q = (u', .ok ()) ∧ u'.makeFolders p = (v', .ok ()) ∧
      ∀ m, v'.look m = v.look m := by
  have hfirst : (t.makeFolders q).2 = .ok () :=
    ((addsFolders_of_makeFolders h).makeFolders_ok_iff hq).mp (by rw [h'])
  obtain ⟨u', hu'⟩ : ∃ u', t.makeFolders q = (u', .ok ()) := ⟨_, Prod.ext rfl hfirst⟩
  have hsecond : (u'.makeFolders p).2 = .ok () :=
    ((addsFolders_of_makeFolders hu').makeFolders_ok_iff hp).mpr (by rw [h])
  obtain ⟨v', hv'⟩ : ∃ v', u'.makeFolders p = (v', .ok ()) := ⟨_, Prod.ext rfl hsecond⟩
  refine ⟨u', v', hu', hv', fun m => ?_⟩
  rw [look_makeFolders hp hv', look_makeFolders hq hu', look_makeFolders hq h',
    look_makeFolders hp h]
  split_ifs <;> rfl

end FileTree

end CommandGate
