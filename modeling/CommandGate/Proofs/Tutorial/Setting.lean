import CommandGate.Proofs.FileTree.Making
import CommandGate.Proofs.Tutorial.Finding
import CommandGate.Proofs.Tutorial.Stored

/-!
# Setting the Tutorial State Whole or Not at All

Setting the tutorial state along a plain path first makes the folders above the file and then
writes the file. If both succeed the file holds the state, which is found there, and besides
the file only the missing folders above it are new. If one fails the tree is as it was, with
one exception: where something is missing on the way to a file that the file system does not
take the name of, what is missing is made before the name is refused.

## Main results

* `Tutorial.set_wholly`: what setting the state comes to along a plain path.
* `Tutorial.not_whole_of_longName`: a state that is not set, and a folder that is left behind.
-/

namespace CommandGate

open FileTree

namespace Tutorial

variable {path : Path} {state : String} {t u : FileTree}

/-- What setting the state comes to along a plain path. -/
structure SetWholly (path : Path) (state : String) (t : FileTree) : Prop where
  /-- It succeeds exactly if the state can be written, the file system takes the path, and
  neither a folder stands in the place of the file nor a file in the way to it. -/
  succeeds : (set path state t).2 = .ok () ↔
    state ∈ states ∧ path.Nameable ∧ t.look path.names ≠ some .folder ∧
      ¬ t.FileInWay path.parent.names
  /-- Then the file holds the text of the state, which is found, and besides it nothing but
  the folders above it is new. -/
  written : ∀ u, set path state t = (u, .ok ()) →
    state ∈ states ∧ u.read path = .ok (fileContent ⟨state⟩) ∧
    Utf8.encode (Text.ofString (stateText state)) = .ok (fileContent ⟨state⟩) ∧
    find path u = .ok ⟨state⟩ ∧
    ∀ m, u.look m =
      if m = path.names then some (.file (fileContent ⟨state⟩))
      else if m <+: path.parent.names then some .folder
      else t.look m
  /-- Otherwise at most folders above the file are new. -/
  refused : ∀ u f, set path state t = (u, .error f) →
    AddsFolders (OnTheWay path.parent.names) t u
  /-- They are exactly if the file system does not take the path, but takes the spelling of its
  parent, and something is missing above the file before anything bars the way. -/
  leaves : ∀ u f, set path state t = (u, .error f) →
    (u ≠ t ↔ state ∈ states ∧ ¬ path.Nameable ∧ path.parent.Fits ∧
      ¬ t.Passable [] path.parent.names ∧ ¬ t.Barred [] path.parent.names)

/-! ### The steps -/

/-- Folders lead to whatever stands at names that are not too long. -/
theorem passable_parent_of_look {e : Entry}
    (hs : ∀ name ∈ path.names, name.utf8ByteSize ≤ maxNameBytes)
    (hl : t.look path.names = some e) : t.Passable [] path.parent.names := by
  obtain ⟨anchor, names⟩ := path
  rcases names.eq_nil_or_concat with rfl | ⟨front, last, rfl⟩
  · trivial
  · rw [List.concat_eq_append] at *
    dsimp only [Path.parent]
    rw [List.dropLast_concat]
    exact passable_of_look (fun name hm => hs name (List.mem_append_left _ hm)) hl

/-- What a state that is set was written to, and with what folders. -/
theorem set_eq_ok_iff :
    set path state t = (u, .ok ()) ↔
      state ∈ states ∧ ∃ made, t.makeFolders path.parent = (made, .ok ()) ∧
        made.write path (fileContent ⟨state⟩) = .ok u := by
  rw [set]
  by_cases hs : state ∈ states
  · rw [if_neg (not_not_intro hs)]
    generalize t.makeFolders path.parent = folders
    obtain ⟨made, f | ⟨⟩⟩ := folders
    · simp
    · dsimp only
      cases hw : made.write path (fileContent ⟨state⟩) with
      | error f => simp [hs, hw]
      | ok written => simp [hs, hw]
  · simp [hs]

/-- What is left of a state that can be written but is not set: the folders. -/
theorem set_of_error {f : Fault} (hs : state ∈ states) (h : set path state t = (u, .error f)) :
    u = (t.makeFolders path.parent).1 := by
  rw [set, if_neg (not_not_intro hs)] at h
  generalize t.makeFolders path.parent = folders at h ⊢
  obtain ⟨made, e | ⟨⟩⟩ := folders
  · exact (congrArg Prod.fst h).symm
  · dsimp only at h ⊢
    cases hw : made.write path (fileContent ⟨state⟩) with
    | error e =>
        rw [hw] at h
        exact (congrArg Prod.fst h).symm
    | ok written => simp [hw] at h

/-- A file that is refused where the folders above it were made. -/
theorem set_of_refused {made : FileTree} {f : FileFault} (hs : state ∈ states)
    (hmade : t.makeFolders path.parent = (made, .ok ())) (hr : made.resolve path = .error f) :
    set path state t = (made, .error (.file f)) := by
  have hwrite : made.write path (fileContent ⟨state⟩) = .error f := by
    rw [write, update_eq_look, hr]
  rw [set, if_neg (not_not_intro hs), hmade]
  dsimp only
  rw [hwrite]

/-- Below folders a file can be written along a nameable path unless a folder stands in its
place. -/
theorem write_of_passable (hn : path.IsPlain) (ha : path.Nameable)
    (hp : t.Passable [] path.parent.names) (hl : t.look path.names ≠ some .folder)
    (content : Bytes) : ∃ written, t.write path content = .ok written := by
  refine update_eq_ok_iff.mpr ⟨?_, by rwa [hn.place_eq]⟩
  rw [hn.place_eq]
  obtain ⟨anchor, names⟩ := path
  rcases names.eq_nil_or_concat with rfl | ⟨front, last, rfl⟩
  · exact absurd (look_nil t) hl
  rw [List.concat_eq_append] at *
  have hparent : Path.parent ⟨anchor, front ++ [last]⟩ = ⟨anchor, front⟩ := by
    simp [Path.parent]
  rw [hparent] at hp
  have hfront : ".." ∉ front := fun hm => hn (List.mem_append_left _ hm)
  have hlast : last ≠ ".." := fun he => hn (by simp [he])
  have hshort : last.utf8ByteSize ≤ maxNameBytes := ha.2 last (by simp)
  have hfolder : t.look front = some .folder := hp.look_eq (look_nil t)
  rw [resolve_of_fits ha.1]
  dsimp only
  rw [slot_concat, slot_of_passable hfront (look_nil t) hp]
  simp only [List.nil_append, hfolder, reduceCtorEq, and_false, if_false,
    step_of_plain hfolder hlast, Nat.not_lt.mpr hshort]
  rfl

/-- What is stored has a nameable path. -/
theorem Stored.nameable (hn : path.IsPlain) (h : Stored path state t) : path.Nameable :=
  ⟨fits_of_resolve_eq_ok h.resolve, short_of_slot_eq_ok hn (resolve_eq_ok h.resolve).1⟩

/-! ### The whole -/

/-- **When a state is set** along a plain path. -/
theorem set_succeeds_iff (hn : path.IsPlain) :
    (set path state t).2 = .ok () ↔
      state ∈ states ∧ path.Nameable ∧ t.look path.names ≠ some .folder ∧
        ¬ t.FileInWay path.parent.names := by
  constructor
  · intro h
    have hstored := stored_of_set h
    have hrewrites := set_rewrites path state t
    have hfile := hstored.look
    rw [hn.place_eq] at hfile
    refine ⟨hstored.mem, hstored.nameable hn, fun hfolder => ?_, ?_⟩
    · rw [hrewrites.look_of_folder hfolder] at hfile
      simp at hfile
    · obtain ⟨-, made, hmade, -⟩ := set_eq_ok_iff.mp (Prod.ext rfl h)
      have hok : (t.makeFolders path.parent).2 = .ok () := by rw [hmade]
      have hacc := acceptable_of_makeFolders hn.parent hok
      exact ((makeFolders_eq_ok_iff hn.parent hacc).mp hok).2
  · rintro ⟨hs, ha, hfolder, hfile⟩
    obtain ⟨hacc, -⟩ := Path.nameable_iff.mp ha
    have hok : (t.makeFolders path.parent).2 = .ok () :=
      (makeFolders_eq_ok_iff hn.parent hacc.parent).mpr ⟨ha.1.parent.2, hfile⟩
    obtain ⟨made, hmade⟩ : ∃ made, t.makeFolders path.parent = (made, .ok ()) :=
      ⟨_, Prod.ext rfl hok⟩
    obtain ⟨-, hpass⟩ := fits_passable_of_makeFolders_eq_ok hn.parent hmade
    have hlook : made.look path.names ≠ some .folder := by
      rw [look_makeFolders hn.parent hmade]
      split_ifs with hfront
      · -- only the root is above itself
        have hlen := hfront.length_le
        have hnil : path.names = [] := by
          rw [Path.parent, List.length_dropLast] at hlen
          exact List.length_eq_zero_iff.mp (by omega)
        rw [hnil, look_nil] at hfolder
        exact absurd rfl hfolder
      · exact hfolder
    obtain ⟨written, hw⟩ := write_of_passable hn ha hpass hlook (fileContent ⟨state⟩)
    rw [set_eq_ok_iff.mpr ⟨hs, made, hmade, hw⟩]

/-- **What stands where after a state was set** along a plain path. -/
theorem look_set (hn : path.IsPlain) (h : set path state t = (u, .ok ())) (m : Location) :
    u.look m =
      if m = path.names then some (.file (fileContent ⟨state⟩))
      else if m <+: path.parent.names then some .folder
      else t.look m := by
  obtain ⟨-, made, hmade, hw⟩ := set_eq_ok_iff.mp h
  rw [(update_look hw).2, look_makeFolders hn.parent hmade, hn.place_eq]

/-- **What a state that is not set leaves behind** along a plain path. -/
theorem set_ne_iff {f : Fault} (hn : path.IsPlain) (h : set path state t = (u, .error f)) :
    u ≠ t ↔ state ∈ states ∧ ¬ path.Nameable ∧ path.parent.Fits ∧
      ¬ t.Passable [] path.parent.names ∧ ¬ t.Barred [] path.parent.names := by
  by_cases hs : state ∈ states
  · rw [set_of_error hs h, makeFolders_ne_iff hn.parent]
    refine ⟨fun ⟨hf, hpass, hbar⟩ => ⟨hs, fun ha => ?_, hf, hpass, hbar⟩, fun h => h.2.2⟩
    -- along a nameable path with nothing in the way the state would have been set
    have hacc := (Path.nameable_iff.mp ha).1.parent
    have hfolder : t.look path.names ≠ some .folder :=
      fun hl => hpass (passable_parent_of_look ha.2 hl)
    have hok := (set_succeeds_iff hn).mpr
      ⟨hs, ha, hfolder, mt (barred_iff hacc.short).mpr hbar⟩
    rw [h] at hok
    cases hok
  · rw [set_of_not_mem path hs] at h
    obtain rfl : t = u := congrArg Prod.fst h
    simp [hs]

/-- **What setting the state comes to** along a plain path. -/
theorem set_wholly (hn : path.IsPlain) (state : String) (t : FileTree) :
    SetWholly path state t where
  succeeds := set_succeeds_iff hn
  written u h := by
    have hok : (set path state t).2 = .ok () := by rw [h]
    have hstored := stored_of_set hok
    rw [h] at hstored
    exact ⟨hstored.mem, hstored.read, encode_stateText state hstored.mem, hstored.find,
      look_set hn h⟩
  refused u f h := by
    by_cases hs : state ∈ states
    · rw [set_of_error hs h]
      exact makeFolders_addsFolders t path.parent
    · rw [set_of_not_mem path hs] at h
      obtain rfl : t = u := congrArg Prod.fst h
      exact .refl t
  leaves _ _ h := set_ne_iff hn h

/-- The tutorial is turned off in a file whose folder is missing. -/
theorem set_wholly_off :
    SetWholly ⟨.relative, ["home", "tutorial.json"]⟩ "off" [] ∧
      (set ⟨.relative, ["home", "tutorial.json"]⟩ "off" []).2 = .ok () :=
  ⟨set_wholly (by decide) "off" [], rfl⟩

/-! ### A folder that is left behind -/

/-- A path to a file with a name that is too long, in a folder. -/
def longBelow : Path :=
  ⟨.relative, ["a", longName]⟩

/-- **A state that is not set, and a folder that is left behind**: the folder is made before the
name of the file is refused. -/
theorem not_whole_of_longName :
    longBelow.IsPlain ∧
      set longBelow on [] =
        ([("a", .folder [])], .error (.file (.refused .nameTooLong longBelow))) := by
  refine ⟨by decide +kernel, ?_⟩
  have hnul : longBelow.hasNul = false := by
    have hname : Path.hasNul ⟨.relative, [longName]⟩ = false := hasNul_replicate 256
    rw [Path.hasNul, List.any_cons, List.any_nil, Bool.or_false] at hname
    rw [longBelow, Path.hasNul, List.any_cons, List.any_cons, hname]
    rfl
  have hspelling : ¬ maxPathBytes < longBelow.toString.utf8ByteSize := by decide +kernel
  have hlong : maxNameBytes < longName.utf8ByteSize := by decide +kernel
  have hup : longName ≠ ".." := by decide +kernel
  have hmade : makeFolders [] longBelow.parent = ([("a", .folder [])], .ok ()) := rfl
  have hresolve : resolve [("a", .folder [])] longBelow =
      .error (.refused .nameTooLong longBelow) := by
    have hfirst : step [("a", .folder [])] [] "a" = .ok ["a"] := rfl
    rw [resolve_of_fits ⟨hnul, Nat.not_lt.mp hspelling⟩, longBelow, slot_cons_cons, hfirst]
    dsimp only
    rw [if_neg (by decide), slot, step_of_plain rfl hup, if_pos hlong]
    rfl
  exact set_of_refused (by decide) hmade hresolve

end Tutorial

end CommandGate
