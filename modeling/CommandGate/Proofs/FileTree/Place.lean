import CommandGate.FileTree.Lemmas

/-!
# Where Paths Lead

There are no links in a tree, so the place that a path leads to, if it leads anywhere, is
known from its spelling alone: `Path.place` follows the names from the root and takes each
`..` as a step back. This module ties the operations that resolve paths to that place.

## Main results

* `FileTree.look_append`: above everything that stands somewhere, folders stand.
* `FileTree.slot_eq_place`: a resolution that succeeds ends at the place of the names.
* `FileTree.slot_concat`: the last name is looked up where the names before it lead.
-/

namespace CommandGate

/-- A value stays what it is when faults are reworded. -/
@[simp] theorem Except.mapError_ok {ε ε' α : Type} (f : ε → ε') (a : α) :
    (Except.ok a).mapError f = .ok a :=
  (rfl)

/-- A fault is reworded. -/
@[simp] theorem Except.mapError_error {ε ε' α : Type} (f : ε → ε') (e : ε) :
    (Except.error e : Except ε α).mapError f = .error (f e) :=
  (rfl)

/-- The place that names lead to from another one, each `..` being a step back. -/
def Path.placeFrom : Location → List String → Location
  | here, [] => here
  | here, name :: rest =>
    placeFrom (if name = ".." then here.dropLast else here ++ [name]) rest

/-- The place that a path leads to, if it leads anywhere. -/
def Path.place (p : Path) : Location :=
  placeFrom [] p.names

/-- Names are followed in two goes as in one. -/
theorem Path.placeFrom_append (here : Location) (front back : List String) :
    placeFrom here (front ++ back) = placeFrom (placeFrom here front) back := by
  induction front generalizing here with
  | nil => rfl
  | cons name rest ih => exact ih _

/-- A file in a folder is found at the place of the folder. -/
theorem Path.place_join_file (p : Path) {name : String} (h : name ≠ "..") :
    (p.join [name]).place = p.place ++ [name] := by
  rw [place, join, placeFrom_append, placeFrom, if_neg h]
  rfl

/-- A path is **plain** if none of its names is a step back. -/
def Path.IsPlain (p : Path) : Prop :=
  ".." ∉ p.names

instance (p : Path) : Decidable p.IsPlain :=
  inferInstanceAs (Decidable (_ ∉ _))

namespace FileTree

/-! ### What stands above -/

/-- A folder stands above everything that stands somewhere. -/
theorem look_append {t : FileTree} {above below : Location} (h : t.look (above ++ below) ≠ none)
    (hb : below ≠ []) : t.look above = some .folder := by
  induction above generalizing t with
  | nil => exact look_nil t
  | cons name rest ih =>
      cases hl : t.lookup name with
      | none => exact absurd (look_cons_none hl _) h
      | some node =>
          cases node with
          | file content =>
              refine absurd ?_ h
              rw [List.cons_append, look_cons_file hl]
              simp [hb]
          | folder entries =>
              rw [List.cons_append, look_cons_folder hl] at h
              rw [look_cons_folder hl]
              exact ih h

/-- The node at a place is absent exactly where nothing stands. -/
theorem at?_eq_none_iff {t : FileTree} {l : Location} : t.at? l = none ↔ t.look l = none := by
  simp [look]

/-- A folder is at a place exactly if a folder stands there. -/
theorem isFolderAt_iff {t : FileTree} {l : Location} :
    t.isFolderAt l = true ↔ t.look l = some .folder := by
  simp [isFolderAt]

/-- The way back from a folder leads to a folder. -/
theorem look_dropLast {t : FileTree} {l : Location} (h : t.look l = some .folder) :
    t.look l.dropLast = some .folder := by
  rcases l.eq_nil_or_concat with rfl | ⟨above, name, rfl⟩
  · exact look_nil t
  · rw [List.concat_eq_append] at h
    rw [List.concat_eq_append, List.dropLast_concat]
    exact look_append (by rw [h]; simp) (List.cons_ne_nil name [])

/-! ### Resolution -/

/-- One more name is looked up in a folder, and leads to the next place. -/
theorem step_eq_ok {t : FileTree} {here l : Location} {name : String}
    (h : t.step here name = .ok l) :
    t.look here = some .folder ∧
      l = if name = ".." then here.dropLast else here ++ [name] := by
  rw [step] at h
  by_cases hf : t.isFolderAt here = true
  · refine ⟨isFolderAt_iff.mp hf, ?_⟩
    by_cases hd : name = ".."
    · simpa [hf, hd, eq_comm] using h
    · by_cases hs : maxNameBytes < name.utf8ByteSize
      · simp [hf, hd, hs] at h
      · simpa [hf, hd, hs, eq_comm] using h
  · simp [hf] at h

/-- The resolution of more than one name: all but the last must find something. -/
theorem slot_cons_cons (t : FileTree) (here : Location) (name next : String)
    (rest : List String) :
    t.slot here (name :: next :: rest) =
      match t.step here name with
      | .error e => .error e
      | .ok l => if t.look l = none then .error .notFound else t.slot l (next :: rest) := by
  rw [slot]
  · cases t.step here name with
    | error e => rfl
    | ok l =>
        have : (t.at? l).isNone = decide (t.look l = none) := by
          rw [Bool.eq_iff_iff, Option.isNone_iff_eq_none, at?_eq_none_iff, decide_eq_true_iff]
        simp only [Bind.bind, Except.bind, this, decide_eq_true_eq]
  · simp

/-- **A resolution that succeeds ends at the place of the names.** -/
theorem slot_eq_place {t : FileTree} {here l : Location} {names : List String}
    (h : t.slot here names = .ok l) : l = Path.placeFrom here names := by
  induction names generalizing here with
  | nil => simpa [slot, Path.placeFrom, eq_comm] using h
  | cons name rest ih =>
      cases rest with
      | nil => exact (step_eq_ok h).2
      | cons next more =>
          rw [slot_cons_cons] at h
          cases hs : t.step here name with
          | error e => simp [hs] at h
          | ok m =>
              by_cases hm : t.look m = none
              · simp [hs, hm] at h
              · rw [Path.placeFrom, ← (step_eq_ok hs).2]
                exact ih (by simpa [hs, hm] using h)

/-- The last name is looked up where the names before it lead. -/
theorem slot_concat (t : FileTree) (here : Location) (names : List String) (last : String) :
    t.slot here (names ++ [last]) =
      match t.slot here names with
      | .error e => .error e
      | .ok m => if names ≠ [] ∧ t.look m = none then .error .notFound else t.step m last := by
  induction names generalizing here with
  | nil => simp [slot]
  | cons name rest ih =>
      cases rest with
      | nil =>
          rw [List.singleton_append, slot_cons_cons, slot]
          cases t.step here name <;> simp [slot]
      | cons next more =>
          rw [List.cons_append, List.cons_append, slot_cons_cons, slot_cons_cons]
          cases t.step here name with
          | error e => rfl
          | ok l =>
              by_cases hl : t.look l = none
              · simp [hl]
              · have := ih l
                rw [List.cons_append] at this
                simp only [hl, if_false, this, ne_eq, reduceCtorEq, not_false_eq_true,
                  true_and]

/-- What a resolution that succeeds says about its last step. -/
theorem slot_concat_eq_ok {t : FileTree} {here l : Location} {names : List String}
    {last : String} (h : t.slot here (names ++ [last]) = .ok l) :
    t.look (Path.placeFrom here names) = some .folder ∧
      l = if last = ".." then (Path.placeFrom here names).dropLast
        else Path.placeFrom here names ++ [last] := by
  rw [slot_concat] at h
  cases hs : t.slot here names with
  | error e => simp [hs] at h
  | ok m =>
      by_cases hm : names ≠ [] ∧ t.look m = none
      · simp [hs, hm] at h
      · obtain rfl := slot_eq_place hs
        rw [hs] at h
        simp only [hm, if_false] at h
        exact step_eq_ok h

/-- A resolution that ends where no folder stands ends directly below a folder. -/
theorem slot_eq_ok_of_not_folder {t : FileTree} {l : Location} {names : List String}
    (h : t.slot [] names = .ok l) (hl : t.look l ≠ some .folder) :
    l ≠ [] ∧ t.look l.dropLast = some .folder := by
  rcases names.eq_nil_or_concat with rfl | ⟨front, last, rfl⟩
  · obtain rfl : [] = l := by simpa [slot] using h
    exact absurd (look_nil t) hl
  · rw [List.concat_eq_append] at h
    obtain ⟨hf, he⟩ := slot_concat_eq_ok h
    by_cases hd : last = ".."
    · rw [if_pos hd] at he
      exact absurd (he ▸ look_dropLast hf) hl
    · rw [if_neg hd] at he
      rw [he, List.dropLast_concat]
      exact ⟨by simp, hf⟩

/-- What a resolution that succeeds says about the path. -/
theorem resolve_eq_ok {t : FileTree} {p : Path} {l : Location} (h : t.resolve p = .ok l) :
    t.slot [] p.names = .ok l ∧ l = p.place := by
  rw [resolve] at h
  by_cases hn : p.hasNul = true
  · simp [hn] at h
  · by_cases hs : maxPathBytes < p.toString.utf8ByteSize
    · simp [hn, hs] at h
    · cases hsl : t.slot [] p.names with
      | error e => simp [hn, hs, hsl] at h
      | ok m =>
          have hm : m = l := by simpa [hn, hs, hsl] using h
          exact ⟨by rw [hm], hm ▸ slot_eq_place hsl⟩

end FileTree

end CommandGate
