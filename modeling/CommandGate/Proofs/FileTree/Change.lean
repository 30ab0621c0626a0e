import CommandGate.Proofs.FileTree.Place

/-!
# What Operations Change

The operations on trees never remove anything and never put a file in the place of a folder
or the other way round. Making folders adds folders (`AddsFolders`), on the way to the path
that is asked for and nowhere else; changing a file changes what stands at its place.

## Main results

* `FileTree.makeFolders_addsFolders`: what making a folder and the missing ones above adds.
* `FileTree.update_look`: what changing the bytes of a file changes.
* `FileTree.Rewrites`: a file changed after the folders above it were made.
-/

namespace CommandGate

namespace FileTree

/-- The second tree has what the first has, and besides that only new folders, at places that
are allowed for them. -/
def AddsFolders (allowed : Location → Prop) (t made : FileTree) : Prop :=
  ∀ m, made.look m = t.look m ∨ (allowed m ∧ t.look m = none ∧ made.look m = some .folder)

namespace AddsFolders

variable {allowed : Location → Prop} {t made more : FileTree}

theorem refl (t : FileTree) : AddsFolders allowed t t :=
  fun _ => .inl rfl

/-- Folders added in two steps, each at allowed places, are added at allowed places in one. -/
theorem trans (h : AddsFolders allowed t made) (h' : AddsFolders allowed made more) :
    AddsFolders allowed t more := by
  intro m
  rcases h m with e | ⟨ha, hn, hf⟩
  · rw [← e]
    exact h' m
  · rcases h' m with e' | ⟨-, hn', -⟩
    · exact .inr ⟨ha, hn, by rw [e', hf]⟩
    · rw [hf] at hn'
      exact absurd hn' (by simp)

/-- What is allowed may be widened. -/
theorem mono {wider : Location → Prop} (hw : ∀ m, allowed m → wider m)
    (h : AddsFolders allowed t made) : AddsFolders wider t made :=
  fun m => (h m).imp_right fun ⟨ha, hn, hf⟩ => ⟨hw m ha, hn, hf⟩

/-- Where no folder is allowed, the same stands in both trees. -/
theorem look_of_not (h : AddsFolders allowed t made) {m : Location} (hm : ¬ allowed m) :
    made.look m = t.look m :=
  (h m).resolve_right fun ⟨ha, _⟩ => hm ha

/-- What stands somewhere stays. -/
theorem look_of_some (h : AddsFolders allowed t made) {m : Location} {e : Entry}
    (hm : t.look m = some e) : made.look m = some e := by
  rcases h m with e' | ⟨-, hn, -⟩
  · rw [e', hm]
  · rw [hn] at hm
    exact absurd hm (by simp)

/-- Files stay as they are. -/
theorem look_file_iff (h : AddsFolders allowed t made) {m : Location} {content : Bytes} :
    made.look m = some (.file content) ↔ t.look m = some (.file content) := by
  rcases h m with hsame | ⟨-, hnone, hfolder⟩
  · rw [hsame]
  · simp [hnone, hfolder]

end AddsFolders

/-! ### One folder -/

/-- A new folder stands at the place of its path, where nothing stood, and nothing else
changes. -/
theorem makeFolder_look {t made : FileTree} {p : Path} (h : t.makeFolder p = .ok made) :
    t.look p.place = none ∧
      ∀ m, made.look m = if m = p.place then some .folder else t.look m := by
  rw [makeFolder] at h
  cases hr : t.resolve p with
  | error f => simp [hr, Bind.bind, Except.bind] at h
  | ok l =>
      obtain ⟨hs, rfl⟩ := resolve_eq_ok hr
      cases hn : t.at? p.place with
      | some node => simp [hr, hn, Bind.bind, Except.bind] at h
      | none =>
          have hm : made = put (.folder []) t p.place := by
            simpa [hr, hn, Bind.bind, Except.bind, Pure.pure, Except.pure, eq_comm] using h
          have hl : t.look p.place = none := at?_eq_none_iff.mp hn
          refine ⟨hl, fun m => ?_⟩
          have hf : t.look p.place ≠ some .folder := by simp [hl]
          obtain ⟨hne, hup⟩ := slot_eq_ok_of_not_folder hs hf
          rw [hm, look_put (by rfl) hne hup hf]
          rfl

/-- A folder that is made or exists already: at most its place is new. -/
theorem ensureFolder_addsFolders (t : FileTree) (p : Path) :
    AddsFolders (· = p.place) t (t.ensureFolder p).1 := by
  rw [ensureFolder]
  cases h : t.makeFolder p with
  | ok made =>
      intro m
      obtain ⟨hn, hm⟩ := makeFolder_look h
      by_cases e : m = p.place
      · exact .inr ⟨e, by rw [e, hn], by rw [hm, if_pos e]⟩
      · exact .inl (by rw [hm, if_neg e])
  | error f =>
      dsimp only
      split <;> exact .refl t

/-! ### A folder and those above it -/

/-- The places on the way along names: those that their fronts lead to. -/
def OnTheWay (names : List String) (m : Location) : Prop :=
  ∃ front, front <+: names ∧ m = Path.placeFrom [] front

/-- What is on the way along a front of names is on the way along all of them. -/
theorem OnTheWay.mono {front names : List String} (h : front <+: names) {m : Location}
    (hm : OnTheWay front m) : OnTheWay names m := by
  obtain ⟨q, hq, rfl⟩ := hm
  exact ⟨q, hq.trans h, rfl⟩

/-- The place of a path is the end of its own way. -/
theorem onTheWay_place (p : Path) : OnTheWay p.names p.place :=
  ⟨p.names, List.prefix_rfl, rfl⟩

/-- Making folders from the last name upwards adds folders on the way only. -/
theorem makeFoldersUp_addsFolders (t : FileTree) (anchor : Anchor) (up : List String) :
    AddsFolders (OnTheWay up.reverse) t (t.makeFoldersUp anchor up).1 := by
  induction up generalizing t with
  | nil =>
      rw [makeFoldersUp]
      refine (ensureFolder_addsFolders t ⟨anchor, []⟩).mono ?_
      rintro m rfl
      exact onTheWay_place ⟨anchor, []⟩
  | cons name above ih =>
      -- the folder itself, whether it is tried first or after those above it
      have self (u : FileTree) : AddsFolders (OnTheWay (name :: above).reverse) u
          (u.ensureFolder ⟨anchor, (name :: above).reverse⟩).1 := by
        refine (ensureFolder_addsFolders u _).mono ?_
        rintro m rfl
        exact onTheWay_place ⟨anchor, (name :: above).reverse⟩
      have above' : AddsFolders (OnTheWay (name :: above).reverse) t
          (t.makeFoldersUp anchor above).1 :=
        (ih t).mono fun m hm => hm.mono (by simp)
      rw [makeFoldersUp]
      split
      · split
        · rename_i made hmade
          rw [hmade] at above'
          exact above'.trans (self made)
        · rename_i made f hmade
          rw [hmade] at above'
          exact above'
      · exact self t

/-- **Making a folder and the missing ones above it** adds folders on the way to it, and
changes nothing else. -/
theorem makeFolders_addsFolders (t : FileTree) (p : Path) :
    AddsFolders (OnTheWay p.names) t (t.makeFolders p).1 := by
  have h := makeFoldersUp_addsFolders t p.anchor p.names.reverse
  rwa [List.reverse_reverse] at h

/-- However it ends, making folders adds nothing but folders on the way along the path. -/
theorem addsFolders_of_makeFolders {t made : FileTree} {p : Path} {r : Except FileFault Unit}
    (h : t.makeFolders p = (made, r)) : AddsFolders (OnTheWay p.names) t made := by
  have hadd := makeFolders_addsFolders t p
  rwa [h] at hadd

/-! ### Files -/

/-- The bytes at a place: those of a file, and none where no file stands. -/
def bytesAt (t : FileTree) (l : Location) : Bytes :=
  match t.look l with
  | some (.file content) => content
  | _ => []

/-- Added folders change no bytes anywhere. -/
theorem AddsFolders.bytesAt_eq {allowed : Location → Prop} {t made : FileTree}
    (h : AddsFolders allowed t made) (m : Location) : made.bytesAt m = t.bytesAt m := by
  simp only [bytesAt]
  rcases h m with e | ⟨-, hn, hf⟩
  · rw [e]
  · rw [hn, hf]

/-- **A file whose bytes are changed** stands at the place of its path, directly below a
folder and where no folder stood, and nothing else changes. -/
theorem update_look {t written : FileTree} {p : Path} {change : Bytes → Bytes}
    (h : t.update p change = .ok written) :
    t.look p.place ≠ some .folder ∧
      ∀ m, written.look m =
        if m = p.place then some (.file (change (t.bytesAt p.place))) else t.look m := by
  rw [update] at h
  cases hr : t.resolve p with
  | error f => simp [hr, Bind.bind, Except.bind] at h
  | ok l =>
      obtain ⟨hs, rfl⟩ := resolve_eq_ok hr
      simp only [hr, Bind.bind, Except.bind, Pure.pure, Except.pure] at h
      have hb : t.look p.place ≠ some .folder := by
        intro hf
        cases hn : t.at? p.place with
        | none => simp [look, hn] at hf
        | some node =>
            cases node with
            | file content => simp [look, hn, entryOf] at hf
            | folder entries => simp [hn] at h
      refine ⟨hb, fun m => ?_⟩
      have hput : written = put (.file (change (t.bytesAt p.place))) t p.place := by
        cases hn : t.at? p.place with
        | none => simpa [hn, bytesAt, look, eq_comm] using h
        | some node =>
            cases node with
            | file content => simpa [hn, bytesAt, look, entryOf, eq_comm] using h
            | folder entries => simp [hn] at h
      obtain ⟨hne, hup⟩ := slot_eq_ok_of_not_folder hs hb
      have bare : IsBare (.file (change (t.bytesAt p.place))) := trivial
      rw [hput, look_put bare hne hup hb]
      rfl

/-! ### A file and the folders above it -/

/-- The second tree has new folders above a path, and otherwise at most a file at its place,
where no folder stood, whose bytes are as allowed. -/
def Rewrites (p : Path) (allowed : Bytes → Prop) (t written : FileTree) : Prop :=
  ∃ made, AddsFolders (OnTheWay p.parent.names) t made ∧
    (written = made ∨
      ∃ content, allowed content ∧ made.look p.place ≠ some .folder ∧
        ∀ m, written.look m = if m = p.place then some (.file content) else made.look m)

namespace Rewrites

variable {p : Path} {allowed : Bytes → Prop} {t written : FileTree} {m : Location}

/-- Away from the path nothing changes. -/
theorem look_of_not (h : Rewrites p allowed t written) (hw : ¬ OnTheWay p.parent.names m)
    (hp : m ≠ p.place) : written.look m = t.look m := by
  obtain ⟨made, hadd, rfl | ⟨content, -, -, hlook⟩⟩ := h
  · exact hadd.look_of_not hw
  · rw [hlook, if_neg hp]
    exact hadd.look_of_not hw

/-- **What stands where afterwards**: the same as before, or a new folder above the path, or a
file at the place of the path. -/
theorem look_cases (h : Rewrites p allowed t written) (m : Location) :
    written.look m = t.look m ∨
      (OnTheWay p.parent.names m ∧ t.look m = none ∧ written.look m = some .folder) ∨
      (m = p.place ∧ t.look m ≠ some .folder ∧
        ∃ content, allowed content ∧ written.look m = some (.file content)) := by
  obtain ⟨made, hadd, rfl | ⟨content, hc, hp, hlook⟩⟩ := h
  · exact (hadd m).imp_right .inl
  · by_cases hm : m = p.place
    · subst hm
      refine .inr (.inr ⟨rfl, fun hf => hp (hadd.look_of_some hf), content, hc, ?_⟩)
      rw [hlook, if_pos rfl]
    · rw [hlook, if_neg hm]
      exact (hadd m).imp_right .inl

/-- Where a folder stands, a folder stays. -/
theorem look_of_folder (h : Rewrites p allowed t written) (hm : t.look m = some .folder) :
    written.look m = some .folder := by
  obtain ⟨made, hadd, rfl | ⟨content, -, hp, hlook⟩⟩ := h
  · exact hadd.look_of_some hm
  · have hmade := hadd.look_of_some hm
    rw [hlook, if_neg, hmade]
    rintro rfl
    exact hp hmade

/-- What stands somewhere does not go away. -/
theorem look_ne_none (h : Rewrites p allowed t written) (hm : t.look m ≠ none) :
    written.look m ≠ none := by
  obtain ⟨e, he⟩ := Option.ne_none_iff_exists'.mp hm
  obtain ⟨made, hadd, rfl | ⟨content, -, -, hlook⟩⟩ := h
  · rw [hadd.look_of_some he]
    simp
  · rw [hlook]
    split
    · simp
    · rw [hadd.look_of_some he]
      simp

/-- Other files stay as they are. -/
theorem look_file_iff (h : Rewrites p allowed t written) (hp : m ≠ p.place) {content : Bytes} :
    written.look m = some (.file content) ↔ t.look m = some (.file content) := by
  rcases h.look_cases m with hsame | ⟨-, hnone, hfolder⟩ | ⟨hplace, -⟩
  · rw [hsame]
  · simp [hnone, hfolder]
  · exact absurd hplace hp

/-- The bytes of other files stay. -/
theorem bytesAt_of_ne (h : Rewrites p allowed t written) (hp : m ≠ p.place) :
    written.bytesAt m = t.bytesAt m := by
  obtain ⟨made, hadd, rfl | ⟨content, -, -, hlook⟩⟩ := h
  · exact hadd.bytesAt_eq m
  · rw [← hadd.bytesAt_eq m, bytesAt, hlook, if_neg hp]
    rfl

/-- The bytes at the path are the old ones or allowed. -/
theorem bytesAt_place (h : Rewrites p allowed t written) :
    written.bytesAt p.place = t.bytesAt p.place ∨ allowed (written.bytesAt p.place) := by
  obtain ⟨made, hadd, rfl | ⟨content, hc, -, hlook⟩⟩ := h
  · exact .inl (hadd.bytesAt_eq _)
  · refine .inr ?_
    rwa [bytesAt, hlook, if_pos rfl]

end Rewrites

end FileTree

end CommandGate
