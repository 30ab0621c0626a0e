import CommandGate.Proofs.FileTree.Folders

/-!
# Trees That Agree outside a Folder

Two trees **agree outside** a location if the same stands at every location that is not at
or below it. On a plain path that does not lead there, every operation then comes to the
same on both, and what it leaves agrees again.

## Main results

* `FileTree.AgreeOutside.resolve_eq`, `present_eq`, `read_eq`: looking.
* `FileTree.AgreeOutside.makeFolders`: making a folder and the missing ones above it.
* `FileTree.AgreeOutside.update`: changing a file.
-/

namespace CommandGate

namespace FileTree

/-- The same stands in both trees at every location that is not at `here` or below it. -/
def AgreeOutside (here : Location) (t u : FileTree) : Prop :=
  ∀ m, ¬ here <+: m → u.look m = t.look m

/-! ### Operations through the view -/

/-- One name on, in the view. -/
theorem step_congr {t u : FileTree} {l : Location} (h : u.look l = t.look l) (name : String) :
    u.step l name = t.step l name := by
  rw [step, step, isFolderAt, isFolderAt, h]

/-- A resolution looks only at the places along the names. -/
theorem slot_congr {t u : FileTree} {l : Location} {names : List String} (hn : ".." ∉ names)
    (h : ∀ front, front <+: names → u.look (l ++ front) = t.look (l ++ front)) :
    u.slot l names = t.slot l names := by
  have hl : u.look l = t.look l := by simpa using h [] List.nil_prefix
  induction names generalizing l with
  | nil => rfl
  | cons name rest ih =>
      obtain ⟨hd, hr⟩ := Path.plain_cons.mp hn
      cases rest with
      | nil => exact step_congr hl name
      | cons next more =>
          have hnext : u.look (l ++ [name]) = t.look (l ++ [name]) := h [name] (by simp)
          rw [slot_cons_cons, slot_cons_cons, step_congr hl]
          cases hs : t.step l name with
          | error e => rfl
          | ok m =>
              obtain rfl : m = l ++ [name] := by simpa [hd] using (step_eq_ok hs).2
              have hmore : u.slot (l ++ [name]) (next :: more) =
                  t.slot (l ++ [name]) (next :: more) := by
                refine ih hr (fun front hf => ?_) hnext
                simpa using h (name :: front) (List.cons_prefix_cons.mpr ⟨rfl, hf⟩)
              simp only [hnext, hmore]

/-- Presence, in the view. -/
theorem present_eq_look (t : FileTree) (p : Path) :
    t.present p =
      match t.resolve p with
      | .ok l => .ok (t.look l).isSome
      | .error (.refused .nameTooLong q) => .error (.refused .nameTooLong q)
      | .error _ => .ok false := by
  rw [present, stat]
  cases t.resolve p with
  | error f =>
      rcases f with ⟨e, q⟩ | _
      · cases e <;> rfl
      · rfl
  | ok l => cases hn : t.at? l <;> simp [look, hn, Bind.bind, Except.bind, Pure.pure, Except.pure]

/-- The bytes of a file, in the view. -/
theorem read_eq_look (t : FileTree) (p : Path) :
    t.read p =
      match t.resolve p with
      | .error f => .error f
      | .ok l =>
        match t.look l with
        | some (.file content) => .ok content
        | some .folder => .error (.refused .isDirectory p)
        | none => .error (.refused .notFound p) := by
  rw [read, stat]
  cases t.resolve p with
  | error f => rfl
  | ok l =>
      cases hn : t.at? l with
      | none => simp [look, hn, Bind.bind, Except.bind]
      | some node =>
          cases node <;>
            simp [look, hn, entryOf, Bind.bind, Except.bind, Pure.pure, Except.pure]

/-- What is read from a path are the bytes at its place. -/
theorem bytesAt_of_read {t : FileTree} {p : Path} {content : Bytes}
    (h : t.read p = .ok content) : t.bytesAt p.place = content := by
  rw [read_eq_look] at h
  cases hr : t.resolve p with
  | error f => simp [hr] at h
  | ok l =>
      obtain ⟨-, rfl⟩ := resolve_eq_ok hr
      simp only [hr] at h
      rw [bytesAt]
      split at h
      · rename_i content' hl
        rw [hl]
        exact Except.ok.inj h
      · simp at h
      · simp at h

/-- Changing a file, in the view. -/
theorem update_eq_look (t : FileTree) (p : Path) (change : Bytes → Bytes) :
    t.update p change =
      match t.resolve p with
      | .error f => .error f
      | .ok l =>
        if t.look l = some .folder then .error (.refused .isDirectory p)
        else .ok (t.put (.file (change (t.bytesAt l))) l) := by
  rw [update]
  cases t.resolve p with
  | error f => rfl
  | ok l =>
      cases hn : t.at? l with
      | none => simp [look, hn, bytesAt, Bind.bind, Except.bind, Pure.pure, Except.pure]
      | some node =>
          cases node <;>
            simp [look, hn, entryOf, bytesAt, Bind.bind, Except.bind, Pure.pure, Except.pure]

namespace AgreeOutside

variable {here : Location} {t u : FileTree} {p : Path}

/-! ### Looking -/

/-- A plain path away from `here` leads to the same place in trees that agree outside it. -/
theorem resolve_eq (h : AgreeOutside here t u) (hn : p.IsPlain) (hp : ¬ here <+: p.names) :
    u.resolve p = t.resolve p := by
  have hslot : u.slot [] p.names = t.slot [] p.names :=
    slot_congr hn fun front hf => h _ fun hh => hp (hh.trans hf)
  rw [resolve, resolve, hslot]

/-- What a resolution finds is the same in both. -/
theorem look_resolved (h : AgreeOutside here t u) (hn : p.IsPlain) (hp : ¬ here <+: p.names)
    {l : Location} (hr : t.resolve p = .ok l) : u.look l = t.look l := by
  obtain rfl : l = p.names := (resolve_eq_ok hr).2.trans hn.place_eq
  exact h _ hp

/-- Whether something stands at a plain path away from `here` is seen alike in both trees. -/
theorem present_eq (h : AgreeOutside here t u) (hn : p.IsPlain) (hp : ¬ here <+: p.names) :
    u.present p = t.present p := by
  rw [present_eq_look, present_eq_look, h.resolve_eq hn hp]
  cases hr : t.resolve p with
  | error f =>
      rcases f with ⟨e, q⟩ | _
      · cases e <;> rfl
      · rfl
  | ok l => simp only [h.look_resolved hn hp hr]

/-- A plain path away from `here` is read alike in both trees. -/
theorem read_eq (h : AgreeOutside here t u) (hn : p.IsPlain) (hp : ¬ here <+: p.names) :
    u.read p = t.read p := by
  rw [read_eq_look, read_eq_look, h.resolve_eq hn hp]
  cases hr : t.resolve p with
  | error f => rfl
  | ok l => simp only [h.look_resolved hn hp hr]

/-- A way that is passable in one is passable in the other. -/
theorem passable (h : AgreeOutside here t u) {l : Location} {names : List String}
    (hp : ¬ here <+: l ++ names) (ht : t.Passable l names) : u.Passable l names := by
  induction names generalizing l with
  | nil => trivial
  | cons name rest ih =>
      have hp' : ¬ here <+: l ++ [name] ++ rest := by simpa using hp
      refine ⟨ht.1, ?_, ih hp' ht.2.2⟩
      rw [h _ fun hh => hp' (hh.trans (List.prefix_append _ _)), ht.2.1]

/-! ### Changing -/

/-- A node without contents is put at the same place in both. -/
theorem put (h : AgreeOutside here t u) (node : Node) (hb : IsBare node)
    (hn : p.IsPlain) (hp : ¬ here <+: p.names) {l : Location} (hr : t.resolve p = .ok l)
    (hl : t.look l ≠ some .folder) :
    AgreeOutside here (t.put node l) (u.put node l) := by
  have hru : u.resolve p = .ok l := by rw [h.resolve_eq hn hp, hr]
  have hlu : u.look l ≠ some .folder := by rwa [h.look_resolved hn hp hr]
  obtain ⟨hne, hup⟩ := slot_eq_ok_of_not_folder (resolve_eq_ok hr).1 hl
  obtain ⟨-, hup'⟩ := slot_eq_ok_of_not_folder (resolve_eq_ok hru).1 hlu
  intro m hm
  rw [look_put hb hne hup hl, look_put hb hne hup' hlu, h m hm]

/-- Making one folder away from `here` comes out alike, and the trees agree afterwards. -/
theorem ensureFolder (h : AgreeOutside here t u) (hn : p.IsPlain) (hp : ¬ here <+: p.names) :
    (u.ensureFolder p).2 = (t.ensureFolder p).2 ∧
      AgreeOutside here (t.ensureFolder p).1 (u.ensureFolder p).1 := by
  have hru := h.resolve_eq hn hp
  cases hr : t.resolve p with
  | error f =>
      rw [ensureFolder_of_error hr, ensureFolder_of_error (hru.trans hr)]
      exact ⟨rfl, h⟩
  | ok l =>
      have hlook := h.look_resolved hn hp hr
      cases hl : t.look l with
      | some e =>
          rw [ensureFolder_of_some hr hl, ensureFolder_of_some (hru.trans hr) (hlook.trans hl)]
          exact ⟨rfl, h⟩
      | none =>
          rw [ensureFolder_of_none hr hl, ensureFolder_of_none (hru.trans hr) (hlook.trans hl)]
          exact ⟨rfl, h.put (.folder []) rfl hn hp hr (by simp [hl])⟩

/-- Making a folder away from `here`, with those above it, comes out alike, and the trees agree
afterwards. -/
theorem makeFoldersUp (h : AgreeOutside here t u) (anchor : Anchor) {up : List String}
    (hn : ".." ∉ up) (hp : ¬ here <+: up.reverse) :
    (u.makeFoldersUp anchor up).2 = (t.makeFoldersUp anchor up).2 ∧
      AgreeOutside here (t.makeFoldersUp anchor up).1 (u.makeFoldersUp anchor up).1 := by
  induction up generalizing t u with
  | nil => exact h.ensureFolder (p := ⟨anchor, []⟩) (by simp [Path.IsPlain]) hp
  | cons name above ih =>
      have hplain : ".." ∉ (name :: above).reverse := by simpa [or_comm] using hn
      have hna : ".." ∉ above := fun hm => hn (List.mem_cons_of_mem _ hm)
      have hpa : ¬ here <+: above.reverse := fun hh => hp (hh.trans (by simp))
      obtain ⟨hanswer, hafter⟩ := h.ensureFolder (p := ⟨anchor, (name :: above).reverse⟩) hplain hp
      by_cases hmissing : ∃ q, (t.ensureFolder ⟨anchor, (name :: above).reverse⟩).2 =
          .error (.refused .notFound q)
      · obtain ⟨q, hq⟩ := hmissing
        obtain ⟨hup, hmade⟩ := ih h hna hpa
        obtain ⟨t₁, ht₁⟩ : ∃ t₁, t.ensureFolder ⟨anchor, (name :: above).reverse⟩ =
            (t₁, .error (.refused .notFound q)) := ⟨_, Prod.ext rfl hq⟩
        obtain ⟨u₁, hu₁⟩ : ∃ u₁, u.ensureFolder ⟨anchor, (name :: above).reverse⟩ =
            (u₁, .error (.refused .notFound q)) := ⟨_, Prod.ext rfl (hanswer.trans hq)⟩
        rcases ht₂ : t.makeFoldersUp anchor above with ⟨t₂, r⟩
        rcases hu₂ : u.makeFoldersUp anchor above with ⟨u₂, r'⟩
        rw [ht₂, hu₂] at hup hmade
        obtain rfl : r' = r := hup
        rw [makeFoldersUp_of_missing ht₁ ht₂, makeFoldersUp_of_missing hu₁ hu₂]
        split
        · exact hmade.ensureFolder hplain hp
        · exact ⟨rfl, hmade⟩
      · have settled : ∀ q, (t.ensureFolder ⟨anchor, (name :: above).reverse⟩).2 ≠
            .error (.refused .notFound q) := fun q hq => hmissing ⟨q, hq⟩
        rw [makeFoldersUp_of_settled settled,
          makeFoldersUp_of_settled fun q => hanswer ▸ settled q]
        exact ⟨hanswer, hafter⟩

/-- **Making a folder and the missing ones above it** comes to the same in both trees, and
the trees agree afterwards. -/
theorem makeFolders (h : AgreeOutside here t u) (hn : p.IsPlain) (hp : ¬ here <+: p.names) :
    (u.makeFolders p).2 = (t.makeFolders p).2 ∧
      AgreeOutside here (t.makeFolders p).1 (u.makeFolders p).1 :=
  h.makeFoldersUp p.anchor (by simpa [Path.IsPlain] using hn) (by simpa using hp)

/-- **Changing a file** is refused in both trees for the same reason, or the trees agree
afterwards. -/
theorem update (h : AgreeOutside here t u) (hn : p.IsPlain) (hp : ¬ here <+: p.names)
    (change : Bytes → Bytes) :
    (∃ f, t.update p change = .error f ∧ u.update p change = .error f) ∨
      ∃ t' u', t.update p change = .ok t' ∧ u.update p change = .ok u' ∧
        AgreeOutside here t' u' := by
  rw [update_eq_look, update_eq_look, h.resolve_eq hn hp]
  cases hr : t.resolve p with
  | error f => exact .inl ⟨f, rfl, rfl⟩
  | ok l =>
      have hlook := h.look_resolved hn hp hr
      by_cases hl : t.look l = some .folder
      · dsimp only
        rw [hlook, if_pos hl, if_pos hl]
        exact .inl ⟨_, rfl, rfl⟩
      · have hbytes : u.bytesAt l = t.bytesAt l := by rw [bytesAt, bytesAt, hlook]
        dsimp only
        rw [hlook, if_neg hl, if_neg hl, hbytes]
        exact .inr ⟨_, _, rfl, rfl, h.put (.file _) trivial hn hp hr hl⟩

end AgreeOutside

end FileTree

end CommandGate
