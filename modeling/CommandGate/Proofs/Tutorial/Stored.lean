import CommandGate.Proofs.FileTree.Files
import CommandGate.Proofs.Json.RoundTrip
import CommandGate.Proofs.Tutorial.Storage

/-!
# A State That Is Stored

A tutorial state is stored where the path of the tutorial file leads to a file that holds the
state as it is written. A state that was set is stored, what is stored is found, and it stays
stored whatever happens to other files.

## Main results

* `Tutorial.Stored.find`: what is stored is found.
* `Tutorial.stored_of_set`: what was set is stored.
* `Tutorial.Stored.set`: where a state is stored, another one can be set.
* `Tutorial.Stored.addsFolders`, `Tutorial.Stored.rewrites`: what leaves it stored.
-/

namespace CommandGate

open FileTree

/-! ### Reading an object of one text -/

namespace Json

/-- The text of an object with one text in it, indented, and of a line break. -/
def memberText (name value : Text) : Text :=
  "\x7b\n  " ++ (writeString .line name ++ ": " ++ writeString .line value ++ "\n\x7d\n")

/-- **An object with one text in it is read back** from the indented form. -/
theorem readDocument_memberText {name value : Text} (hn : name.IsScalar) (hv : value.IsScalar) :
    readDocument (memberText name value) = .ok (.object [(name, .string value)]) := by
  let inside : Text := writeString .line value ++ "\n\x7d\n"
  let members : Text := writeString .line name ++ (.scalar ':' :: .scalar ' ' :: inside)
  have htext : memberText name value =
      .scalar '\x7b' :: .scalar '\n' :: .scalar ' ' :: .scalar ' ' :: members := by
    simp [memberText, members, inside, Text.ofString]
  -- opening the object, its member and the value each take one of the budget
  obtain ⟨budget, hb⟩ : ∃ budget, 2 * (memberText name value).length + 1 = budget + 3 :=
    ⟨2 * (memberText name value).length - 2, by rw [htext, List.length_cons]; omega⟩
  have hinside : Opens inside := ⟨'"', _, rfl, rfl, by decide⟩
  have hopens : Opens members := ⟨'"', _, rfl, rfl, by decide⟩
  have hmembers : readMembers (budget + 2) [] members = .ok ([(name, .string value)], "\n") := by
    rw [readMembers_eq hn hinside, readValue_string hv]
    rfl
  have hvalue : readValue (budget + 3) (memberText name value) =
      .ok (.object [(name, .string value)], "\n") := by
    rw [htext]
    exact readValue_object hopens.skipSpace hopens hmembers
  have hstart : skipSpace (memberText name value) = memberText name value := by
    rw [htext]
    rfl
  rw [readDocument]
  rw [if_neg (by rw [htext]; simp), hstart, hb, hvalue]
  rfl

end Json

namespace Tutorial

/-- A state that is **stored** in the file at a path: it can be written, and the path leads to
a file that holds it as it is written. -/
structure Stored (path : Path) (state : String) (t : FileTree) : Prop where
  mem : state ∈ states
  resolve : t.resolve path = .ok path.place
  look : t.look path.place = some (.file (fileContent ⟨state⟩))

variable {path : Path} {state old : String} {t u : FileTree}

/-! ### Finding -/

/-- The text of a file with a state is that of an object with one text in it. -/
theorem unifyLines_stateText : ∀ state ∈ states,
    unifyLines (Text.ofString (stateText state)) = Json.memberText memberName state := by
  rw [states, List.forall_mem_cons, List.forall_mem_singleton]
  exact ⟨rfl, rfl⟩

/-- **A file with a state holds that state.** -/
theorem ofBytes_fileContent (path : Path) (h : state ∈ states) :
    ofBytes path (fileContent ⟨state⟩) = .ok ⟨state⟩ := by
  have hempty : Utf8.decode [] = .ok [] := rfl
  have hdecode : Utf8.decode (fileContent ⟨state⟩) = .ok (Text.ofString (stateText state)) :=
    Utf8.decode_append_encode hempty (encode_stateText state h)
  have hparse : Json.parse (unifyLines (Text.ofString (stateText state))) =
      .ok (.object [(Text.ofString memberName, .string state)]) := by
    rw [Json.parse, unifyLines_stateText state h]
    rw [Json.readDocument_memberText (Text.isScalar_ofString _) (Text.isScalar_ofString _)]
  rw [ofBytes]
  rw [hdecode]
  dsimp only
  rw [ofDocument]
  rw [hparse]
  simp [Json.member?, Json.display]

/-- The file of a stored state is there. -/
theorem Stored.present (h : Stored path state t) : t.present path = .ok true := by
  rw [present_eq_look, h.resolve]
  simp [h.look]

/-- The file of a stored state is read as it was written. -/
theorem Stored.read (h : Stored path state t) : t.read path = .ok (fileContent ⟨state⟩) := by
  rw [read_eq_look, h.resolve]
  simp [h.look]

/-- **What is stored is found.** -/
theorem Stored.find (h : Stored path state t) : find path t = .ok ⟨state⟩ := by
  rw [Tutorial.find, h.present]
  dsimp only
  rw [h.read]
  exact ofBytes_fileContent path h.mem

/-- The tutorial is on in the state `on` only. -/
theorem enabled_iff {state : String} : enabled ⟨state⟩ = true ↔ state = on := by
  rw [enabled, decide_eq_true_iff]
  exact Text.ofString_inj

/-! ### Setting -/

/-- A state that cannot be written changes nothing. -/
theorem set_of_not_mem (path : Path) (h : state ∉ states) (t : FileTree) :
    set path state t = (t, .error .unknownState) := by
  rw [set, if_pos h]

/-- **What was set is stored.** -/
theorem stored_of_set (h : (set path state t).2 = .ok ()) :
    Stored path state (set path state t).1 := by
  rw [set] at h ⊢
  by_cases hs : state ∈ states
  · rw [if_neg (not_not_intro hs)] at h ⊢
    generalize t.makeFolders path.parent = folders at h ⊢
    obtain ⟨made, f | ⟨⟩⟩ := folders
    · simp at h
    · dsimp only at h ⊢
      cases hw : made.write path (fileContent ⟨state⟩) with
      | error f => simp [hw] at h
      | ok written =>
          refine ⟨hs, resolve_of_update hw, ?_⟩
          dsimp only
          rw [(update_look hw).2, if_pos rfl]
  · simp [hs] at h

/-- The folders above a stored state are there. -/
theorem Stored.makeFolders_parent (hp : path.IsPlain) (h : Stored path state t) :
    t.makeFolders path.parent = (t, .ok ()) := by
  obtain ⟨anchor, names⟩ := path
  have hlook := h.look
  have hfits := fits_of_resolve_eq_ok h.resolve
  have hshort := short_of_slot_eq_ok hp (resolve_eq_ok h.resolve).1
  rw [hp.place_eq] at hlook
  dsimp only at hlook hshort
  rcases names.eq_nil_or_concat with rfl | ⟨front, last, rfl⟩
  · simp [look_nil] at hlook
  rw [List.concat_eq_append] at *
  have hfront : Path.parent ⟨anchor, front ++ [last]⟩ = ⟨anchor, front⟩ := by
    simp [Path.parent]
  have hpass : t.Passable [] front :=
    passable_of_look (fun name hm => hshort name (List.mem_append_left _ hm)) hlook
  rw [hfront]
  exact makeFolders_of_passable (fun hm => hp (List.mem_append_left _ hm)) hfits.front hpass

/-- **Where a state is stored, another one can be set.** -/
theorem Stored.set (hp : path.IsPlain) (h : Stored path old t) (hs : state ∈ states) :
    (set path state t).2 = .ok () := by
  have hplace : t.look path.place ≠ some .folder := by simp [h.look]
  obtain ⟨written, hw⟩ : ∃ written, t.write path (fileContent ⟨state⟩) = .ok written :=
    update_eq_ok_iff.mpr ⟨h.resolve, hplace⟩
  rw [Tutorial.set, if_neg (not_not_intro hs), h.makeFolders_parent hp]
  dsimp only
  rw [hw]

/-! ### Staying stored -/

/-- A state stays stored as long as folders and its file stay. -/
theorem Stored.of_look (h : Stored path state t)
    (hf : ∀ m, t.look m = some .folder → u.look m = some .folder)
    (hl : u.look path.place = t.look path.place) : Stored path state u :=
  ⟨h.mem, resolve_of_folders hf h.resolve, hl.trans h.look⟩

/-- Adding folders leaves a state stored. -/
theorem Stored.addsFolders {allowed : Location → Prop} (h : Stored path state t)
    (hadd : AddsFolders allowed t u) : Stored path state u :=
  h.of_look (fun _ hm => hadd.look_of_some hm) (by rw [hadd.look_of_some h.look, h.look])

/-- Changing another file leaves a state stored. -/
theorem Stored.rewrites {other : Path} {allowed : Bytes → Prop} (h : Stored path state t)
    (hw : Rewrites other allowed t u) (hne : path.place ≠ other.place) : Stored path state u := by
  refine h.of_look (fun _ hm => hw.look_of_folder hm) ?_
  rcases hw.look_cases path.place with hsame | ⟨-, hnone, -⟩ | ⟨hplace, -⟩
  · exact hsame
  · rw [h.look] at hnone
    simp at hnone
  · exact absurd hplace hne

end Tutorial

end CommandGate
