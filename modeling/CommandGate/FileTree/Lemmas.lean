import CommandGate.FileTree.Basic

/-!
# What Stands Where After a Change

Putting a node at a location changes what stands there and nothing else, in the view of
`FileTree.look`, as long as no folder with contents gives way.

## Main results

* `FileTree.look_put`: a file, or an empty folder, put where no folder stands.
-/

namespace CommandGate

namespace FileTree

/-- An entry that is set is found under its name. -/
theorem lookup_setEntry_self (name : String) (node : Node) (t : FileTree) :
    (setEntry name node t).lookup name = some node := by
  induction t with
  | nil => simp [setEntry]
  | cons e rest ih =>
    obtain ⟨n, old⟩ := e
    by_cases h : n = name
    · simp [setEntry, h]
    · have : (name == n) = false := by simpa using Ne.symm h
      simp [setEntry, h, List.lookup_cons, this, ih]

/-- Setting an entry leaves those of other names as they are. -/
theorem lookup_setEntry_of_ne {name other : String} (h : other ≠ name) (node : Node)
    (t : FileTree) : (setEntry name node t).lookup other = t.lookup other := by
  induction t with
  | nil => simp [setEntry, h]
  | cons e rest ih =>
    obtain ⟨n, old⟩ := e
    by_cases hn : n = name
    · have : (other == n) = false := by simpa [hn] using h
      simp [setEntry, hn, List.lookup_cons, hn ▸ this]
    · by_cases ho : other = n
      · simp [setEntry, hn, ho]
      · have : (other == n) = false := by simpa using ho
        simp [setEntry, hn, List.lookup_cons, this, ih]

/-- The node at a location with a name in front is looked up in the folder of that name. -/
theorem at?_cons (t : FileTree) (name : String) (rest : Location) :
    t.at? (name :: rest) =
      match t.lookup name with
      | none => none
      | some (.folder entries) => at? entries rest
      | some (.file content) => if rest = [] then some (.file content) else none := by
  cases h : t.lookup name with
  | none => simp [at?, h]
  | some node => cases node <;> simp [at?, h]

/-- What stands at the root. -/
theorem look_nil (t : FileTree) : t.look [] = some .folder := by
  simp [look, at?, entryOf]

/-- What stands behind a name that is a folder's is what stands in that folder. -/
theorem look_cons_folder {t entries : FileTree} {name : String}
    (h : t.lookup name = some (.folder entries)) (rest : Location) :
    t.look (name :: rest) = look entries rest := by
  simp [look, at?_cons, h]

/-- Nothing stands behind the name of a file, and the file stands at it. -/
theorem look_cons_file {t : FileTree} {name : String} {content : Bytes}
    (h : t.lookup name = some (.file content)) (rest : Location) :
    t.look (name :: rest) = if rest = [] then some (.file content) else none := by
  by_cases hr : rest = [] <;> simp [look, at?_cons, h, hr, entryOf]

/-- Nothing stands behind a name that is absent. -/
theorem look_cons_none {t : FileTree} {name : String} (h : t.lookup name = none)
    (rest : Location) : t.look (name :: rest) = none := by
  simp [look, at?_cons, h]

/-- Another name is looked up in the tree that was changed as in the tree before. -/
theorem look_setEntry_of_ne {name other : String} (h : other ≠ name) (node : Node)
    (t : FileTree) (rest : Location) :
    look (setEntry name node t) (other :: rest) = t.look (other :: rest) := by
  simp [look, at?_cons, lookup_setEntry_of_ne h]

/-- A node without contents: a file, or an empty folder. -/
def IsBare : Node → Prop
  | .file _ => True
  | .folder entries => entries = []

/-- What stands in a bare node: itself, and nothing below. -/
theorem look_setEntry_bare {node : Node} (hb : IsBare node) (name : String) (t : FileTree)
    (rest : Location) :
    look (setEntry name node t) (name :: rest) =
      if rest = [] then some (entryOf node) else none := by
  cases node with
  | file content =>
    rw [look_cons_file (lookup_setEntry_self name _ t)]
    rfl
  | folder entries =>
    cases hb
    rw [look_cons_folder (lookup_setEntry_self name _ t)]
    cases rest with
    | nil => simp [look_nil, entryOf]
    | cons n r => simp [look, at?_cons]

/-- Where no folder stands, nothing stands below. -/
theorem look_cons_of_not_folder {t : FileTree} {name : String}
    (h : t.look [name] ≠ some .folder) {rest : Location} (hr : rest ≠ []) :
    t.look (name :: rest) = none := by
  cases hl : t.lookup name with
  | none => exact look_cons_none hl rest
  | some node =>
    cases node with
    | file content => simp [look_cons_file hl, hr]
    | folder entries => simp [look_cons_folder hl, look_nil] at h

/-- **A change is local.** A bare node put where no folder stands, in a folder, stands there
afterwards, and at every other location stands what stood there before. -/
theorem look_put {node : Node} (hb : IsBare node) {t : FileTree} {l : Location} (hl : l ≠ [])
    (hf : t.look l.dropLast = some .folder) (hn : t.look l ≠ some .folder) (m : Location) :
    look (put node t l) m = if m = l then some (entryOf node) else t.look m := by
  induction l generalizing t m with
  | nil => exact absurd rfl hl
  | cons name rest ih =>
    cases m with
    | nil => simp [look_nil]
    | cons other more =>
      by_cases ho : other = name
      · subst ho
        cases rest with
        | nil =>
          rw [put, look_setEntry_bare hb]
          by_cases hm : more = []
          · simp [hm]
          · simp [hm, look_cons_of_not_folder hn hm]
        | cons next below =>
          rw [List.dropLast_cons_of_ne_nil (by simp)] at hf
          cases hk : t.lookup other with
          | none => simp [look_cons_none hk] at hf
          | some inner =>
            cases inner with
            | file content => cases below <;> simp [look_cons_file hk] at hf
            | folder entries =>
              rw [look_cons_folder hk] at hf hn
              rw [put, hk]
              · rw [look_cons_folder (lookup_setEntry_self other _ t), look_cons_folder hk,
                  ih (by simp) hf hn]
                simp
              · simp
      · cases rest with
        | nil => simp [put, look_setEntry_of_ne ho, ho]
        | cons next below =>
          have hne : other :: more ≠ name :: next :: below := by simp [ho]
          rw [put, if_neg hne]
          · split
            · exact look_setEntry_of_ne ho _ _ _
            · rfl
          · simp

end FileTree

end CommandGate
