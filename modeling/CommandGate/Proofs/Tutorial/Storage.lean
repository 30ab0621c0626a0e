import CommandGate.Proofs.FileTree.Agreement
import CommandGate.Tutorial

/-!
# Storing the Tutorial State

Setting the tutorial state makes the folders above the file and writes the file in full; a
state that cannot be written changes nothing. What stands in other folders does not matter
to finding and setting the state.

## Main results

* `Tutorial.set_rewrites`: what setting the state changes, in every tree.
* `Tutorial.encode_stateText`: the text of a file with a state.
* `Tutorial.find_eq_of_agree`, `Tutorial.set_agree`: two trees that agree outside a folder.
-/

namespace CommandGate

namespace Tutorial

open FileTree

/-- **What setting the state changes.** Folders are added above the file; then either nothing
else changes, or the file holds the state, which is one that can be written. -/
theorem set_rewrites (path : Path) (state : String) (t : FileTree) :
    Rewrites path (fun content => state ∈ states ∧ content = fileContent ⟨state⟩) t
      (set path state t).1 := by
  have hadd := makeFolders_addsFolders t path.parent
  rw [set]
  by_cases hs : state ∈ states
  · rw [if_neg (not_not_intro hs)]
    generalize t.makeFolders path.parent = folders at hadd ⊢
    obtain ⟨made, f | ⟨⟩⟩ := folders
    · exact ⟨made, hadd, .inl rfl⟩
    refine ⟨made, hadd, ?_⟩
    dsimp only at hadd ⊢
    cases hw : made.write path (fileContent ⟨state⟩) with
    | error f => exact .inl rfl
    | ok written =>
        obtain ⟨hplace, hlook⟩ := update_look hw
        exact .inr ⟨_, ⟨hs, rfl⟩, hplace, hlook⟩
  · rw [if_pos hs]
    exact ⟨t, .refl t, .inl rfl⟩

/-- The text of a file with a state: an object of one member, on three lines. -/
def stateText (state : String) : String :=
  "\x7b\n  \"tutorial\": \"" ++ state ++ "\"\n\x7d\n"

/-- A file with one of the states holds the text of that state. -/
theorem encode_stateText : ∀ state ∈ states,
    Utf8.encode (Text.ofString (stateText state)) = .ok (fileContent ⟨state⟩) := by
  rw [states, List.forall_mem_cons, List.forall_mem_singleton]
  exact ⟨rfl, rfl⟩

/-! ### Trees that agree -/

variable {here : Location} {t u : FileTree} {p : Path}

/-- In trees that agree outside a folder, the same state is found in a file elsewhere. -/
theorem find_eq_of_agree (h : AgreeOutside here t u) (hn : p.IsPlain) (hp : ¬ here <+: p.names) :
    find p u = find p t := by
  rw [find, find, h.present_eq hn hp, h.read_eq hn hp]

/-- Setting the state in a file elsewhere comes to the same in both trees, and the trees agree
afterwards. -/
theorem set_agree (h : AgreeOutside here t u) (hn : p.IsPlain) (hp : ¬ here <+: p.names)
    (state : String) :
    (set p state u).2 = (set p state t).2 ∧
      AgreeOutside here (set p state t).1 (set p state u).1 := by
  have hparent : p.parent.names <+: p.names := List.dropLast_prefix p.names
  have hmake := h.makeFolders (p := p.parent) (fun hm => hn (hparent.subset hm))
    fun hh => hp (hh.trans hparent)
  simp only [set]
  by_cases hs : state ∈ states
  · rw [if_neg (not_not_intro hs), if_neg (not_not_intro hs)]
    generalize t.makeFolders p.parent = folders, u.makeFolders p.parent = folders' at hmake ⊢
    obtain ⟨made, r⟩ := folders
    obtain ⟨made', r'⟩ := folders'
    obtain ⟨hr, hagree⟩ := hmake
    obtain rfl : r' = r := hr
    cases r' with
    | error f => exact ⟨rfl, hagree⟩
    | ok _ =>
        dsimp only [write] at hagree ⊢
        rcases hagree.update hn hp fun _ => fileContent ⟨state⟩ with
          ⟨f, ht, hu⟩ | ⟨t', u', ht, hu, hafter⟩
        · rw [ht, hu]
          exact ⟨rfl, hagree⟩
        · rw [ht, hu]
          exact ⟨rfl, hafter⟩
  · rw [if_pos hs, if_pos hs]
    exact ⟨rfl, h⟩

end Tutorial

end CommandGate
