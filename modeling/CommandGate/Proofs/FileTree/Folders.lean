import CommandGate.Proofs.FileTree.Change
import Mathlib.Order.Basic
import Mathlib.Tactic.Common

/-!
# Making Folders along Plain Paths

Along a plain path the names of a path are its place. Seen from a tree, such a way is
passable (`Passable`: folders stand all along it), or barred (`Barred`: a file or an
overlong name comes first that is no folder), or it ends in a gap where nothing stands yet.
Making a folder and those above it fills the gap; afterwards the way is passable, if the
operation succeeded, and barred if it failed. Trying again changes nothing in either case.

## Main results

* `FileTree.makeFolders_cases`: success leaves the way passable, failure leaves it barred.
* `FileTree.makeFolders_of_passable`, `FileTree.makeFolders_of_barred`: a second attempt.
* `FileTree.present_eq_true_iff`: what stands at a plain path is present.
-/

namespace CommandGate

/-- A path **fits** if the file system takes its spelling: no NUL, and not too long. -/
def Path.Fits (p : Path) : Prop :=
  p.hasNul = false ∧ p.toString.utf8ByteSize ≤ maxPathBytes

instance (p : Path) : Decidable p.Fits :=
  inferInstanceAs (Decidable (_ ∧ _))

/-- Names are plain if the first is no step back and the others are plain. -/
theorem Path.plain_cons {name : String} {rest : List String} :
    ".." ∉ name :: rest ↔ name ≠ ".." ∧ ".." ∉ rest := by
  rw [List.mem_cons, not_or, ne_comm]

/-- The place of plain names is spelled by the names. -/
theorem Path.placeFrom_of_plain {here : Location} {names : List String} (h : ".." ∉ names) :
    Path.placeFrom here names = here ++ names := by
  induction names generalizing here with
  | nil => simp [placeFrom]
  | cons name rest ih =>
      obtain ⟨hn, hr⟩ := plain_cons.mp h
      rw [placeFrom, if_neg hn, ih hr]
      simp

/-- Without `..` among its names, a path stands where its names say. -/
theorem Path.IsPlain.place_eq {p : Path} (h : p.IsPlain) : p.place = p.names :=
  placeFrom_of_plain h

/-- The names of the front of a path spell no more bytes than those of the whole. -/
theorem Path.Fits.front {anchor : Anchor} {front more : List String}
    (h : (Path.mk anchor (front ++ more)).Fits) : (Path.mk anchor front).Fits := by
  obtain ⟨hn, hs⟩ := h
  refine ⟨?_, ?_⟩
  · simp only [hasNul, List.any_append, Bool.or_eq_false_iff] at hn
    exact hn.1
  · rcases eq_or_ne front [] with rfl | hf
    · cases anchor <;> decide
    · rcases eq_or_ne more [] with rfl | hm
      · rwa [List.append_nil] at hs
      · simp only [Path.toString, List.append_eq_nil_iff, hf, hm, and_self, and_false,
          if_false, String.intercalate_append_of_ne_nil hf hm,
          String.utf8ByteSize_append] at hs ⊢
        omega

namespace FileTree

/-- The way along names is **passable**: no name is too long, and folders stand all along. -/
def Passable (t : FileTree) : Location → List String → Prop
  | _, [] => True
  | here, name :: rest =>
    name.utf8ByteSize ≤ maxNameBytes ∧ t.look (here ++ [name]) = some .folder ∧
      Passable t (here ++ [name]) rest

/-- The way along names is **barred**: the first name that leads to no folder is too long or
leads to a file. -/
def Barred (t : FileTree) : Location → List String → Prop
  | _, [] => False
  | here, name :: rest =>
    maxNameBytes < name.utf8ByteSize ∨ (∃ content, t.look (here ++ [name]) = some (.file content)) ∨
      (t.look (here ++ [name]) = some .folder ∧ Barred t (here ++ [name]) rest)

variable {t : FileTree} {here : Location} {names : List String} {last : String}

/-! ### The three kinds of ways -/

/-- One name more is passable if it is short enough and what it names is a folder. -/
theorem passable_concat : t.Passable here (names ++ [last]) ↔
    t.Passable here names ∧ last.utf8ByteSize ≤ maxNameBytes ∧
      t.look (here ++ names ++ [last]) = some .folder := by
  induction names generalizing here with
  | nil => simp [Passable]
  | cons name rest ih =>
      rw [List.cons_append, Passable, Passable, ih]
      simp [and_assoc]

/-- The front of a passable way is passable. -/
theorem Passable.append_left {more : List String} (h : t.Passable here (names ++ more)) :
    t.Passable here names := by
  induction names generalizing here with
  | nil => trivial
  | cons name rest ih => exact ⟨h.1, h.2.1, ih h.2.2⟩

/-- No name of a passable way is too long. -/
theorem Passable.short (h : t.Passable here names) :
    ∀ name ∈ names, name.utf8ByteSize ≤ maxNameBytes := by
  induction names generalizing here with
  | nil => simp
  | cons name rest ih => exact List.forall_mem_cons.mpr ⟨h.1, ih h.2.2⟩

/-- A passable way leads to a folder. -/
theorem Passable.look_eq (h : t.Passable here names) (hh : t.look here = some .folder) :
    t.look (here ++ names) = some .folder := by
  induction names generalizing here with
  | nil => simpa using hh
  | cons name rest ih => simpa using ih h.2.2 h.2.1

/-- A way stays passable as long as folders stay. -/
theorem Passable.of_folders {u : FileTree} (h : t.Passable here names)
    (hu : ∀ m, t.look m = some .folder → u.look m = some .folder) : u.Passable here names := by
  induction names generalizing here with
  | nil => trivial
  | cons name rest ih => exact ⟨h.1, hu _ h.2.1, ih h.2.2⟩

/-- Added folders leave a passable way passable. -/
theorem Passable.addsFolders {allowed : Location → Prop} {made : FileTree}
    (h : t.Passable here names) (ha : AddsFolders allowed t made) : made.Passable here names :=
  h.of_folders fun _ => ha.look_of_some

/-- What bars the way bars every way that goes on from there. -/
theorem Barred.append (h : t.Barred here names) (more : List String) :
    t.Barred here (names ++ more) := by
  induction names generalizing here with
  | nil => exact h.elim
  | cons name rest ih =>
      rcases h with hs | hc | ⟨hf, hr⟩
      · exact .inl hs
      · exact .inr (.inl hc)
      · exact .inr (.inr ⟨hf, ih hr⟩)

/-- The last name bars the way if nothing before it does. -/
theorem barred_concat : t.Barred here (names ++ [last]) ↔
    t.Barred here names ∨ t.Passable here names ∧
      (maxNameBytes < last.utf8ByteSize ∨
        ∃ content, t.look (here ++ names ++ [last]) = some (.file content)) := by
  induction names generalizing here with
  | nil => simp [Barred, Passable]
  | cons name rest ih =>
      rw [List.cons_append, Barred, Barred, Passable, ih]
      by_cases hs : maxNameBytes < name.utf8ByteSize
      · simp [hs]
      · by_cases hf : t.look (here ++ [name]) = some .folder
        · simp [hs, hf, Nat.not_lt.mp hs]
        · simp [hs, hf]

/-- A way is not passable and barred at the same time. -/
theorem Passable.not_barred (h : t.Passable here names) : ¬ t.Barred here names := by
  induction names generalizing here with
  | nil => exact id
  | cons name rest ih =>
      obtain ⟨hs, hl, hr⟩ := h
      rintro (hb | ⟨content, hb⟩ | ⟨-, hb⟩)
      · exact absurd hb (Nat.not_lt.mpr hs)
      · rw [hl] at hb
        exact absurd hb (by simp)
      · exact ih hr hb

/-! ### Resolution along the three kinds of ways -/

/-- A plain name is looked up in a folder unless it is too long. -/
theorem step_of_plain {name : String} (hh : t.look here = some .folder) (hn : name ≠ "..") :
    t.step here name =
      if maxNameBytes < name.utf8ByteSize then .error .nameTooLong
      else .ok (here ++ [name]) := by
  simp [step, isFolderAt_iff.mpr hh, hn]

/-- Nothing is looked up in what is no folder. -/
theorem slot_of_not_folder {name : String} {rest : List String}
    (hh : t.look here ≠ some .folder) : t.slot here (name :: rest) = .error .notDirectory := by
  have hs : t.step here name = .error .notDirectory := by
    simp [step, mt isFolderAt_iff.mp hh]
  cases rest with
  | nil => exact hs
  | cons next more => rw [slot_cons_cons, hs]

/-- A passable way is resolved to its end. -/
theorem slot_of_passable (hn : ".." ∉ names) (hh : t.look here = some .folder)
    (h : t.Passable here names) : t.slot here names = .ok (here ++ names) := by
  induction names generalizing here with
  | nil => simp [slot]
  | cons name rest ih =>
      obtain ⟨hd, hr⟩ := Path.plain_cons.mp hn
      obtain ⟨hs, hl, hp⟩ := h
      have hstep : t.step here name = .ok (here ++ [name]) := by
        rw [step_of_plain hh hd, if_neg (by omega)]
      cases rest with
      | nil => exact hstep
      | cons next more =>
          rw [slot_cons_cons, hstep]
          simp only [hl, reduceCtorEq, if_false]
          rw [ih hr hl hp]
          simp

/-- A barred way is not resolved, and not for want of something that could be made. -/
theorem slot_concat_of_barred (last : String) (hn : ".." ∉ names)
    (hh : t.look here = some .folder) (h : t.Barred here names) :
    ∃ e, e ≠ Errno.notFound ∧ t.slot here (names ++ [last]) = .error e := by
  induction names generalizing here with
  | nil => exact h.elim
  | cons name rest ih =>
      obtain ⟨hd, hr⟩ := Path.plain_cons.mp hn
      obtain ⟨next, more, hm⟩ : ∃ next more, rest ++ [last] = next :: more := by
        cases rest <;> simp
      rw [List.cons_append, hm, slot_cons_cons, step_of_plain hh hd]
      by_cases hs : maxNameBytes < name.utf8ByteSize
      · exact ⟨.nameTooLong, by simp, by simp [hs]⟩
      · rcases h with h | ⟨content, hc⟩ | ⟨hf, hb⟩
        · exact absurd h hs
        · refine ⟨.notDirectory, by simp, ?_⟩
          have hne : t.look (here ++ [name]) ≠ some .folder := by simp [hc]
          simp [hs, hc, slot_of_not_folder hne]
        · obtain ⟨e, he, hse⟩ := ih hr hf hb
          exact ⟨e, he, by simpa [hs, hf, hm] using hse⟩

/-- Beyond a gap nothing is found. -/
theorem slot_concat_of_gap (hn : ".." ∉ names) (hh : t.look here = some .folder)
    (hp : ¬ t.Passable here names) (hb : ¬ t.Barred here names) :
    t.slot here (names ++ [last]) = .error .notFound := by
  induction names generalizing here with
  | nil => exact absurd trivial hp
  | cons name rest ih =>
      obtain ⟨hd, hr⟩ := Path.plain_cons.mp hn
      obtain ⟨next, more, hm⟩ : ∃ next more, rest ++ [last] = next :: more := by
        cases rest <;> simp
      simp only [Barred, not_or, Nat.not_lt, not_exists, not_and] at hb
      obtain ⟨hs, hc, hbr⟩ := hb
      rw [List.cons_append, hm, slot_cons_cons, step_of_plain hh hd,
        if_neg (by omega)]
      cases hl : t.look (here ++ [name]) with
      | none => simp [hl]
      | some e =>
          cases e with
          | file content => exact absurd hl (hc content)
          | folder =>
              have := ih hr hl (fun hpr => hp ⟨hs, hl, hpr⟩) (hbr hl)
              simpa [hl, hm] using this

/-! ### Resolution of paths that fit -/

/-- For a path that fits, only its names decide where it leads. -/
theorem resolve_of_fits {p : Path} (h : p.Fits) :
    t.resolve p = (t.slot [] p.names).mapError (.refused · p) := by
  simp [resolve, h.1, Nat.not_lt.mpr h.2]

/-- Only a path that fits is resolved. -/
theorem fits_of_resolve_eq_ok {p : Path} {l : Location} (h : t.resolve p = .ok l) : p.Fits := by
  rw [resolve] at h
  by_cases hn : p.hasNul = true
  · simp [hn] at h
  · by_cases hs : maxPathBytes < p.toString.utf8ByteSize
    · simp [hn, hs] at h
    · exact ⟨by simpa using hn, Nat.not_lt.mp hs⟩

/-- A path with a NUL, and one that is too long, are refused before they are looked up. -/
theorem resolve_of_hasNul {p : Path} (h : p.hasNul = true) :
    t.resolve p = .error .embeddedNul := by
  simp [resolve, h]

/-- A path whose text is too long is refused before any of its names is looked up. -/
theorem resolve_of_long {p : Path} (h : p.hasNul = false)
    (hs : maxPathBytes < p.toString.utf8ByteSize) :
    t.resolve p = .error (.refused .nameTooLong p) := by
  simp [resolve, h, hs]

/-- Only the character NUL keeps a path from being looked up. -/
theorem resolve_ne_embeddedNul {p : Path} (h : p.hasNul = false) :
    t.resolve p ≠ .error .embeddedNul := by
  by_cases hs : maxPathBytes < p.toString.utf8ByteSize
  · simp [resolve_of_long h hs]
  · rw [resolve_of_fits ⟨h, Nat.not_lt.mp hs⟩]
    cases t.slot [] p.names <;> simp

/-- What is said of a path that is not resolved. -/
theorem ensureFolder_of_error {p : Path} {f : FileFault} (h : t.resolve p = .error f) :
    t.ensureFolder p = (t, .error f) := by
  have hf : t.isFolder p = false := by
    simp [isFolder, stat, h, Bind.bind, Except.bind]
  simp [ensureFolder, makeFolder, h, hf, Bind.bind, Except.bind]

/-- What is made of a path that is resolved to a place where something stands. -/
theorem ensureFolder_of_some {p : Path} {l : Location} {e : Entry} (h : t.resolve p = .ok l)
    (hl : t.look l = some e) :
    t.ensureFolder p =
      (t, if e = .folder then .ok () else .error (.refused .occupied p)) := by
  obtain ⟨node, hn, rfl⟩ : ∃ node, t.at? l = some node ∧ entryOf node = e := by
    simpa [look, Option.map_eq_some_iff] using hl
  cases node <;>
    simp [ensureFolder, makeFolder, isFolder, stat, h, hn, entryOf, Bind.bind, Except.bind,
      Pure.pure, Except.pure]

/-- What is made of a path that is resolved to a place where nothing stands. -/
theorem ensureFolder_of_none {p : Path} {l : Location} (h : t.resolve p = .ok l)
    (hl : t.look l = none) : t.ensureFolder p = (t.put (.folder []) l, .ok ()) := by
  simp [ensureFolder, makeFolder, h, at?_eq_none_iff.mpr hl, Bind.bind, Except.bind,
    Pure.pure, Except.pure]

/-! ### One folder on a plain path -/

section Plain

variable {anchor : Anchor}

/-- **One folder on a plain path.** The way to it is passable, and nothing is done; or it is
barred; or something is missing above; or the folder is made. -/
theorem ensureFolder_cases (hn : ".." ∉ names ++ [last])
    (hf : (Path.mk anchor (names ++ [last])).Fits) :
    let answer := t.ensureFolder ⟨anchor, names ++ [last]⟩
    t.Passable [] (names ++ [last]) ∧ answer = (t, .ok ()) ∨
    t.Barred [] (names ++ [last]) ∧ (∃ e, e ≠ .notFound ∧
      answer = (t, .error (.refused e ⟨anchor, names ++ [last]⟩))) ∨
    ¬ t.Passable [] names ∧ ¬ t.Barred [] names ∧
      answer = (t, .error (.refused .notFound ⟨anchor, names ++ [last]⟩)) ∨
    t.Passable [] names ∧ t.look (names ++ [last]) = none ∧ answer.2 = .ok () ∧
      answer.1.Passable [] (names ++ [last]) := by
  have hnf : ".." ∉ names := fun hm => hn (List.mem_append_left _ hm)
  have hnl : last ≠ ".." := fun he => hn (by simp [he])
  have root := look_nil t
  dsimp only
  by_cases hb : t.Barred [] names
  · obtain ⟨e, he, hs⟩ := slot_concat_of_barred last hnf root hb
    refine .inr (.inl ⟨barred_concat.mpr (.inl hb), e, he, ensureFolder_of_error ?_⟩)
    rw [resolve_of_fits hf, hs]
    rfl
  by_cases hp : t.Passable [] names
  · have hup : t.look names = some .folder := hp.look_eq root
    have hr : t.resolve ⟨anchor, names ++ [last]⟩ =
        (t.step names last).mapError (.refused · ⟨anchor, names ++ [last]⟩) := by
      rw [resolve_of_fits hf, slot_concat, slot_of_passable hnf root hp]
      simp [hup]
    rw [step_of_plain hup hnl] at hr
    by_cases hs : maxNameBytes < last.utf8ByteSize
    · rw [if_pos hs] at hr
      exact .inr (.inl ⟨barred_concat.mpr (.inr ⟨hp, .inl hs⟩), .nameTooLong, by simp,
        ensureFolder_of_error hr⟩)
    · rw [if_neg hs] at hr
      have hshort := Nat.not_lt.mp hs
      cases hl : t.look (names ++ [last]) with
      | none =>
          rw [ensureFolder_of_none hr hl]
          have bare : IsBare (.folder []) := rfl
          have hput := look_put bare (l := names ++ [last]) (by simp)
            (by rw [List.dropLast_concat, hup]) (by simp [hl])
          have hadd : AddsFolders (· = names ++ [last]) t
              (t.put (.folder []) (names ++ [last])) := by
            intro m
            by_cases hm : m = names ++ [last]
            · exact .inr ⟨hm, hm ▸ hl, by rw [hput, if_pos hm, entryOf]⟩
            · exact .inl (by rw [hput, if_neg hm])
          refine .inr (.inr (.inr ⟨hp, rfl, rfl, passable_concat.mpr
            ⟨hp.addsFolders hadd, hshort, ?_⟩⟩))
          rw [List.nil_append, hput, if_pos rfl, entryOf]
      | some entry =>
          cases entry with
          | folder => exact .inl ⟨passable_concat.mpr ⟨hp, hshort, hl⟩, ensureFolder_of_some hr hl⟩
          | file content =>
              exact .inr (.inl ⟨barred_concat.mpr (.inr ⟨hp, .inr ⟨content, hl⟩⟩), .occupied,
                by simp, ensureFolder_of_some hr hl⟩)
  · refine .inr (.inr (.inl ⟨hp, hb, ensureFolder_of_error ?_⟩))
    rw [resolve_of_fits hf, slot_concat_of_gap hnf root hp hb]
    rfl

/-- The root is always there. -/
theorem ensureFolder_root (t : FileTree) (anchor : Anchor) :
    t.ensureFolder ⟨anchor, []⟩ = (t, .ok ()) := by
  have hf : (Path.mk anchor []).Fits := by cases anchor <;> decide
  exact ensureFolder_of_some (resolve_of_fits hf) (look_nil t)

/-! ### A folder and those above it on a plain path -/

/-- On a plain way the places have the names of a front. -/
theorem onTheWay_iff (hn : ".." ∉ names) {m : Location} : OnTheWay names m ↔ m <+: names := by
  constructor
  · rintro ⟨front, hp, rfl⟩
    rwa [Path.placeFrom_of_plain fun hm => hn (hp.subset hm)]
  · intro hp
    have hm : Path.placeFrom [] m = [] ++ m :=
      Path.placeFrom_of_plain fun hd => hn (hp.subset hd)
    exact ⟨m, hp, hm.symm⟩

/-- One name further on, a place is no longer on the way. -/
theorem not_onTheWay_concat (hn : ".." ∉ names) : ¬ OnTheWay names (names ++ [last]) := by
  rw [onTheWay_iff hn]
  intro h
  have := h.length_le
  rw [List.length_append, List.length_singleton] at this
  omega

/-- If something is missing above, what is above is made first. -/
theorem makeFoldersUp_of_missing {u made : FileTree} {name : String} {above : List String}
    {q : Path} {r : Except FileFault Unit}
    (h : t.ensureFolder ⟨anchor, (name :: above).reverse⟩ = (u, .error (.refused .notFound q)))
    (hm : t.makeFoldersUp anchor above = (made, r)) :
    t.makeFoldersUp anchor (name :: above) =
      if r = .ok () then made.ensureFolder ⟨anchor, (name :: above).reverse⟩ else (made, r) := by
  rw [makeFoldersUp, h, hm]
  cases r <;> rfl

/-- Otherwise the first attempt decides. -/
theorem makeFoldersUp_of_settled {name : String} {above : List String}
    (h : ∀ q, (t.ensureFolder ⟨anchor, (name :: above).reverse⟩).2 ≠
      .error (.refused .notFound q)) :
    t.makeFoldersUp anchor (name :: above) =
      t.ensureFolder ⟨anchor, (name :: above).reverse⟩ := by
  rw [makeFoldersUp]
  split
  · rename_i q hq
    exact absurd (by rw [hq]) (h q)
  · rfl

/-- Making folders upwards from a plain path that fits: the way is then passable if that
succeeds, and otherwise it is barred and nothing new stands at its end. -/
theorem makeFoldersUp_cases {up : List String} (hn : ".." ∉ up.reverse)
    (hf : (Path.mk anchor up.reverse).Fits) :
    let answer := t.makeFoldersUp anchor up
    answer.2 = .ok () ∧ answer.1.Passable [] up.reverse ∨
    (∃ e q, answer.2 = .error (.refused e q)) ∧ answer.1.Barred [] up.reverse ∧
      answer.1.look up.reverse = t.look up.reverse := by
  induction up generalizing t with
  | nil => exact .inl ⟨by rw [makeFoldersUp, ensureFolder_root], trivial⟩
  | cons name above ih =>
      rw [List.reverse_cons] at hn hf ⊢
      have hna : ".." ∉ above.reverse := fun hm => hn (List.mem_append_left _ hm)
      have settled : _ → t.makeFoldersUp anchor (name :: above) = _ := makeFoldersUp_of_settled
      rw [List.reverse_cons] at settled
      rcases ensureFolder_cases (t := t) hn hf with
        ⟨hp, he⟩ | ⟨hb, e, hne, he⟩ | ⟨hp, hb, he⟩ | ⟨-, -, hok, hp⟩
      · rw [settled (by simp [he]), he]
        exact .inl ⟨rfl, hp⟩
      · rw [settled (by simp [he, hne]), he]
        exact .inr ⟨⟨e, _, rfl⟩, hb, rfl⟩
      · rw [← List.reverse_cons] at he
        have hadd := makeFoldersUp_addsFolders t anchor above
        rcases ih (t := t) hna hf.front with ⟨hok, hpass⟩ | ⟨⟨e, q, herr⟩, hbar, -⟩
        · obtain ⟨made, hmade⟩ : ∃ made, t.makeFoldersUp anchor above = (made, .ok ()) :=
            ⟨_, Prod.ext rfl hok⟩
          rw [hmade] at hadd hpass
          have hsame : made.look (above.reverse ++ [name]) = t.look (above.reverse ++ [name]) :=
            hadd.look_of_not (not_onTheWay_concat hna)
          rw [makeFoldersUp_of_missing he hmade, if_pos rfl, List.reverse_cons]
          rcases ensureFolder_cases (t := made) hn hf with
            ⟨hp', he'⟩ | ⟨hb', e, -, he'⟩ | ⟨hp', -⟩ | ⟨-, -, hok', hp'⟩
          · rw [he']
            exact .inl ⟨rfl, hp'⟩
          · rw [he']
            exact .inr ⟨⟨e, _, rfl⟩, hb', hsame⟩
          · exact absurd hpass hp'
          · exact .inl ⟨hok', hp'⟩
        · obtain ⟨made, hmade⟩ :
              ∃ made, t.makeFoldersUp anchor above = (made, .error (.refused e q)) :=
            ⟨_, Prod.ext rfl herr⟩
          rw [hmade] at hadd hbar
          rw [makeFoldersUp_of_missing he hmade, if_neg (by simp)]
          exact .inr ⟨⟨e, q, rfl⟩, hbar.append [name],
            hadd.look_of_not (not_onTheWay_concat hna)⟩
      · rw [settled (by simp [hok])]
        exact .inl ⟨hok, hp⟩

/-- **Making a folder and those above it.** On a plain path that fits, the way is passable
afterwards if that succeeds; otherwise the file system refuses, the way is barred, and
nothing new stands at its end. -/
theorem makeFolders_cases {p : Path} (hn : p.IsPlain) (hf : p.Fits) :
    (t.makeFolders p).2 = .ok () ∧ (t.makeFolders p).1.Passable [] p.names ∨
    (∃ e q, (t.makeFolders p).2 = .error (.refused e q)) ∧
      (t.makeFolders p).1.Barred [] p.names ∧
      (t.makeFolders p).1.look p.names = t.look p.names := by
  rw [← List.reverse_reverse p.names]
  exact makeFoldersUp_cases (by rwa [List.reverse_reverse]) (by rwa [List.reverse_reverse])

/-- An answer to the whole path that asks for nothing above is the answer. -/
theorem makeFolders_of_settled {p : Path}
    (h : ∀ q, (t.ensureFolder p).2 ≠ .error (.refused .notFound q)) :
    t.makeFolders p = t.ensureFolder p := by
  obtain ⟨anchor, names⟩ := p
  rcases names.eq_nil_or_concat with rfl | ⟨front, last, rfl⟩
  · rfl
  · rw [List.concat_eq_append] at h ⊢
    have hr : (last :: front.reverse).reverse = front ++ [last] := by simp
    rw [← hr] at h ⊢
    rw [makeFolders, List.reverse_reverse]
    exact makeFoldersUp_of_settled h

/-- Where folders stand all along, nothing is left to do. -/
theorem makeFolders_of_passable {p : Path} (hn : p.IsPlain) (hf : p.Fits)
    (h : t.Passable [] p.names) : t.makeFolders p = (t, .ok ()) := by
  have he : t.ensureFolder p = (t, .ok ()) := by
    have hr : t.resolve p = .ok p.names := by
      rw [resolve_of_fits hf, slot_of_passable hn (look_nil t) h]
      rfl
    rw [ensureFolder_of_some hr (h.look_eq (look_nil t))]
    rfl
  rw [makeFolders_of_settled (by simp [he]), he]

/-- A path with a NUL is not passed on. -/
theorem makeFolders_of_hasNul {p : Path} (h : p.hasNul = true) :
    t.makeFolders p = (t, .error .embeddedNul) := by
  have he := ensureFolder_of_error (resolve_of_hasNul (t := t) h)
  rw [makeFolders_of_settled (by simp [he]), he]

/-- Only the character NUL keeps a folder from being tried. -/
theorem ensureFolder_ne_embeddedNul {p : Path} (h : p.hasNul = false) :
    (t.ensureFolder p).2 ≠ .error .embeddedNul := by
  cases hr : t.resolve p with
  | error f =>
      rw [ensureFolder_of_error hr]
      rintro hf
      obtain rfl : f = .embeddedNul := by simpa using hf
      exact resolve_ne_embeddedNul h hr
  | ok l =>
      cases hl : t.look l with
      | none => simp [ensureFolder_of_none hr hl]
      | some e =>
          rw [ensureFolder_of_some hr hl]
          dsimp only
          split_ifs <;> simp

/-- Without a NUL in the path, no folder on the way is refused for one. -/
theorem makeFoldersUp_ne_embeddedNul {anchor : Anchor} {up : List String}
    (h : (Path.mk anchor up.reverse).hasNul = false) :
    (t.makeFoldersUp anchor up).2 ≠ .error .embeddedNul := by
  induction up generalizing t with
  | nil => exact ensureFolder_ne_embeddedNul h
  | cons name above ih =>
      have habove : (Path.mk anchor above.reverse).hasNul = false := by
        rw [Path.hasNul, List.reverse_cons, List.any_append, Bool.or_eq_false_iff] at h
        exact h.1
      rw [makeFoldersUp]
      split
      · have hmade := ih (t := t) habove
        split
        · exact ensureFolder_ne_embeddedNul h
        · rename_i made f heq
          rw [heq] at hmade
          exact hmade
      · exact ensureFolder_ne_embeddedNul h

/-- Only the character NUL keeps folders from being tried. -/
theorem makeFolders_ne_embeddedNul {p : Path} (h : p.hasNul = false) :
    (t.makeFolders p).2 ≠ .error .embeddedNul := by
  refine makeFoldersUp_ne_embeddedNul ?_
  rwa [List.reverse_reverse]

/-- A path that is too long is refused. -/
theorem makeFolders_of_long {p : Path} (h : p.hasNul = false)
    (hs : maxPathBytes < p.toString.utf8ByteSize) :
    t.makeFolders p = (t, .error (.refused .nameTooLong p)) := by
  have he := ensureFolder_of_error (resolve_of_long (t := t) h hs)
  rw [makeFolders_of_settled (by simp [he]), he]

/-- Only a path that fits is made. -/
theorem fits_of_makeFolders_eq_ok {p : Path} (h : (t.makeFolders p).2 = .ok ()) : p.Fits := by
  cases hn : p.hasNul with
  | true => simp [makeFolders_of_hasNul hn] at h
  | false =>
      refine ⟨hn, Nat.not_lt.mp fun hs => ?_⟩
      simp [makeFolders_of_long hn hs] at h

/-- What a path that is made says: it fits, and folders stand all along it. -/
theorem fits_passable_of_makeFolders_eq_ok {p : Path} {made : FileTree} (hn : p.IsPlain)
    (h : t.makeFolders p = (made, .ok ())) : p.Fits ∧ made.Passable [] p.names := by
  have hf : p.Fits := fits_of_makeFolders_eq_ok (by rw [h])
  rcases makeFolders_cases (t := t) hn hf with ⟨-, hp⟩ | ⟨⟨e, q, he⟩, -⟩
  · rw [h] at hp
    exact ⟨hf, hp⟩
  · rw [h] at he
    exact absurd he (by simp)

/-- Where the way is barred, the file system refuses and the tree stays as it is. -/
theorem makeFolders_of_barred {p : Path} (hn : p.IsPlain) (hnul : p.hasNul = false)
    (h : t.Barred [] p.names) : ∃ e, t.makeFolders p = (t, .error (.refused e p)) := by
  by_cases hs : maxPathBytes < p.toString.utf8ByteSize
  · exact ⟨_, makeFolders_of_long hnul hs⟩
  have hf : p.Fits := ⟨hnul, Nat.not_lt.mp hs⟩
  obtain ⟨anchor, names⟩ := p
  rcases names.eq_nil_or_concat with rfl | ⟨front, last, rfl⟩
  · exact h.elim
  rw [List.concat_eq_append] at *
  rcases ensureFolder_cases (t := t) hn hf with
    ⟨hp, -⟩ | ⟨-, e, hne, he⟩ | ⟨hp, hb, -⟩ | ⟨hpf, hnone, -, hp⟩
  · exact absurd h hp.not_barred
  · exact ⟨e, by rw [makeFolders_of_settled (by simp [he, hne]), he]⟩
  · rcases barred_concat.mp h with hb' | ⟨hp', -⟩
    · exact absurd hb' hb
    · exact absurd hp' hp
  · rcases barred_concat.mp h with hb' | ⟨-, hl | ⟨content, hc⟩⟩
    · exact absurd hb' hpf.not_barred
    · exact absurd hl (Nat.not_lt.mpr (passable_concat.mp hp).2.1)
    · rw [List.nil_append, hnone] at hc
      exact absurd hc (by simp)

end Plain

/-! ### What is present -/

/-- A resolution that succeeds has met no name that is too long. -/
theorem short_of_slot_eq_ok {l : Location} (hn : ".." ∉ names) (h : t.slot here names = .ok l) :
    ∀ name ∈ names, name.utf8ByteSize ≤ maxNameBytes := by
  induction names generalizing here with
  | nil => simp
  | cons name rest ih =>
      obtain ⟨hd, hr⟩ := Path.plain_cons.mp hn
      have first : ∀ {m : Location}, t.step here name = .ok m →
          name.utf8ByteSize ≤ maxNameBytes := by
        intro m hm
        rw [step_of_plain (step_eq_ok hm).1 hd] at hm
        by_contra hs
        simp [Nat.not_le.mp hs] at hm
      cases rest with
      | nil => simpa using first h
      | cons next more =>
          rw [slot_cons_cons] at h
          cases hs : t.step here name with
          | error e => simp [hs] at h
          | ok m =>
              by_cases hm : t.look m = none
              · simp [hs, hm] at h
              · simp only [hs, hm, if_false] at h
                exact List.forall_mem_cons.mpr ⟨first hs, ih hr h⟩

/-- Where no name is too long, no resolution fails for that reason. -/
theorem slot_ne_nameTooLong (hs : ∀ name ∈ names, name.utf8ByteSize ≤ maxNameBytes) :
    t.slot here names ≠ .error .nameTooLong := by
  induction names generalizing here with
  | nil => simp [slot]
  | cons name rest ih =>
      obtain ⟨hname, hrest⟩ := List.forall_mem_cons.mp hs
      have first : t.step here name ≠ .error .nameTooLong := by
        rw [step]
        split
        · simp
        · split
          · simp
          · simp [hname]
      cases rest with
      | nil => exact first
      | cons next more =>
          rw [slot_cons_cons]
          cases hstep : t.step here name with
          | error e => exact fun h => first (by rw [hstep]; simpa using h)
          | ok m =>
              by_cases hm : t.look m = none
              · simp [hm]
              · simpa [hm] using ih hrest

/-- What stands at plain names of acceptable length is reached by folders. -/
theorem passable_of_look {e : Entry} (hs : ∀ name ∈ names, name.utf8ByteSize ≤ maxNameBytes)
    (hl : t.look (here ++ names ++ [last]) = some e) : t.Passable here names := by
  induction names generalizing here with
  | nil => trivial
  | cons name rest ih =>
      obtain ⟨hname, hrest⟩ := List.forall_mem_cons.mp hs
      have hassoc : here ++ name :: rest ++ [last] = here ++ [name] ++ rest ++ [last] := by simp
      rw [hassoc] at hl
      have hbelow : t.look (here ++ [name] ++ (rest ++ [last])) ≠ none := by
        rw [← List.append_assoc, hl]
        simp
      exact ⟨hname, look_append hbelow (by simp), ih hrest hl⟩

end FileTree

/-- A path is **nameable** if the file system takes its spelling and each of its names. -/
def Path.Nameable (p : Path) : Prop :=
  p.Fits ∧ ∀ name ∈ p.names, name.utf8ByteSize ≤ maxNameBytes

namespace FileTree

/-- What stands at a nameable plain path is what is found there. -/
theorem resolve_of_look {t : FileTree} {p : Path} {e : Entry} (hn : p.IsPlain) (hp : p.Nameable)
    (hl : t.look p.names = some e) : t.resolve p = .ok p.names := by
  obtain ⟨anchor, names⟩ := p
  obtain ⟨hf, hs⟩ := hp
  dsimp only at hl
  rw [resolve_of_fits hf]
  rcases names.eq_nil_or_concat with rfl | ⟨front, last, rfl⟩
  · rfl
  rw [List.concat_eq_append] at *
  have hnf : ".." ∉ front := fun hm => hn (List.mem_append_left _ hm)
  have hnl : last ≠ ".." := fun he => hn (by simp [he])
  have hsf := fun name hm => hs name (List.mem_append_left _ hm)
  have hpass : t.Passable [] front := passable_of_look hsf (by simpa using hl)
  have hup : t.look front = some .folder := hpass.look_eq (look_nil t)
  have hshort : last.utf8ByteSize ≤ maxNameBytes := hs last (by simp)
  dsimp only
  rw [slot_concat, slot_of_passable hnf (look_nil t) hpass]
  simp only [List.nil_append, hup, reduceCtorEq, and_false, if_false,
    step_of_plain hup hnl, Nat.not_lt.mpr hshort]
  rfl

/-- **Presence at a nameable plain path** is that something stands at its names. -/
theorem present_of_nameable {t : FileTree} {p : Path} (hn : p.IsPlain) (hp : p.Nameable) :
    t.present p = .ok (t.look p.names).isSome := by
  cases hl : t.look p.names with
  | some e =>
      have hr := resolve_of_look hn hp hl
      cases hnode : t.at? p.names with
      | none => simp [look, hnode] at hl
      | some node => simp [present, stat, hr, hnode, Bind.bind, Except.bind, Pure.pure, Except.pure]
  | none =>
      have hne : t.slot [] p.names ≠ .error .nameTooLong := slot_ne_nameTooLong hp.2
      rw [present, stat]
      rw [resolve_of_fits hp.1]
      cases hs : t.slot [] p.names with
      | error e =>
          rw [hs] at hne
          cases e <;> first | exact absurd rfl hne | rfl
      | ok l =>
          obtain rfl : l = p.names := (slot_eq_place hs).trans hn.place_eq
          simp [at?_eq_none_iff.mpr hl, Bind.bind, Except.bind]

/-- A plain path is present exactly if it is nameable and something stands at its names. -/
theorem present_eq_true_iff {t : FileTree} {p : Path} (hn : p.IsPlain) :
    t.present p = .ok true ↔ p.Nameable ∧ t.look p.names ≠ none := by
  constructor
  · intro h
    have hp : p.Nameable := by
      cases hr : t.resolve p with
      | error f =>
          rw [present, stat] at h
          rw [hr] at h
          cases f with
          | embeddedNul => simp [Bind.bind, Except.bind] at h
          | refused e q => cases e <;> simp [Bind.bind, Except.bind] at h
      | ok l =>
          obtain ⟨hs, -⟩ := resolve_eq_ok hr
          exact ⟨fits_of_resolve_eq_ok hr, short_of_slot_eq_ok hn hs⟩
    rw [present_of_nameable hn hp] at h
    exact ⟨hp, by simpa [Option.isSome_iff_ne_none] using h⟩
  · rintro ⟨hp, hl⟩
    rw [present_of_nameable hn hp, Option.isSome_iff_ne_none.mpr hl]

/-- A path that is too long cannot even be looked for. -/
theorem present_of_long {t : FileTree} {p : Path} (h : p.hasNul = false)
    (hs : maxPathBytes < p.toString.utf8ByteSize) :
    t.present p = .error (.refused .nameTooLong p) := by
  simp [present, stat, resolve_of_long h hs, Bind.bind, Except.bind]

/-! ### The empty tree -/

/-- In the empty tree nothing stands below the root. -/
theorem look_empty {m : Location} (hm : m ≠ []) : look ([] : FileTree) m = none := by
  cases m with
  | nil => exact absurd rfl hm
  | cons name rest => exact look_cons_none rfl rest

/-- Where there are no files, only a name that is too long bars the way. -/
theorem not_barred_of_no_files {t : FileTree} {here : Location} {names : List String}
    (hf : ∀ m content, t.look m ≠ some (.file content))
    (hs : ∀ name ∈ names, name.utf8ByteSize ≤ maxNameBytes) : ¬ t.Barred here names := by
  induction names generalizing here with
  | nil => exact id
  | cons name rest ih =>
      obtain ⟨hname, hrest⟩ := List.forall_mem_cons.mp hs
      rintro (hlong | ⟨content, hfile⟩ | ⟨-, hbar⟩)
      · exact absurd hname (Nat.not_le.mpr hlong)
      · exact hf _ content hfile
      · exact ih hrest hbar

/-- In the empty tree every folder with a nameable plain path can be made. -/
theorem makeFolders_empty {p : Path} (hn : p.IsPlain) (hp : p.Nameable) :
    (makeFolders [] p).2 = .ok () := by
  rcases makeFolders_cases (t := []) hn hp.1 with ⟨hok, -⟩ | ⟨-, hbar, -⟩
  · exact hok
  · refine absurd hbar (not_barred_of_no_files (fun m content => ?_) hp.2)
    rcases makeFolders_addsFolders [] p m with hm | ⟨-, -, hm⟩
    · rw [hm]
      cases m with
      | nil => simp [look_nil]
      | cons name rest => simp [look_empty]
    · simp [hm]

/-- A folder that the file system refuses in the empty tree has a path that it does not take,
but not for a NUL. -/
theorem not_nameable_of_refused {p : Path} {made : FileTree} {e : Errno} {q : Path}
    (hn : p.IsPlain) (h : makeFolders [] p = (made, .error (.refused e q))) :
    p.hasNul = false ∧ ¬ p.Nameable := by
  constructor
  · by_contra hc
    rw [makeFolders_of_hasNul (by simpa using hc)] at h
    simp at h
  · intro hp
    have hok := makeFolders_empty hn hp
    rw [h] at hok
    cases hok

end FileTree

end CommandGate
