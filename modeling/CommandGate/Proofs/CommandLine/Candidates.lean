import CommandGate.Proofs.CommandLine.Language
import Mathlib.Data.List.Sort
import Mathlib.Data.String.Basic

/-!
# Candidates and What Is Accepted

The candidates for the last of some words are found by going down the tree of commands, and
so are the commands on a command line when it is read. The two agree: a path of the tree
that needs no command below its end is accepted as a command line, and the commands on a
line that is accepted are a path of the tree.

## Main results

* `CommandLine.mem_candidates_iff`: what the candidates are.
* `CommandLine.candidates_increasing`: they are in order, none of them twice.
* `CommandLine.accepts_of_at?`, `CommandLine.Accepts.exists_at?`: paths and command lines.
-/

namespace CommandGate

namespace CommandLine

variable {c d : Command} {path more words : List String} {word last : String}

/-! ### Going down the tree -/

/-- A string begins with another if its characters do. -/
theorem beginsWith_iff {front s : String} : beginsWith front s = true ↔ front.toList <+: s.toList :=
  List.isPrefixOf_iff_prefix

/-- The words that do not begin with a dash. -/
def undashed (words : List String) : List String :=
  words.filter fun word => !beginsWith "-" word

/-- The words that are no options are a path from the command. -/
theorem descend_eq (c : Command) (words : List String) :
    descend c words = c.at? (undashed words) := by
  induction words generalizing c with
  | nil => rfl
  | cons word rest ih =>
      rw [descend, undashed, List.filter_cons]
      by_cases hd : beginsWith "-" word = true
      · rw [if_pos hd, ih, if_neg (by simp [hd])]
        rfl
      · rw [if_neg hd, if_pos (by simp [hd]), Command.at?]
        simp only [ih]
        rfl

/-- Going down in two parts. -/
theorem at?_append (c : Command) (path more : List String) :
    c.at? (path ++ more) = (c.at? path).bind (·.at? more) := by
  induction path generalizing c with
  | nil => rfl
  | cons name rest ih =>
      rw [List.cons_append, Command.at?, Command.at?, Option.bind_assoc]
      simp only [ih]

/-- A single name leads to the child of that name. -/
theorem at?_singleton (c : Command) (name : String) : c.at? [name] = c.child? name := by
  rw [Command.at?]
  cases c.child? name <;> rfl

/-- The names below a command are those that a command below it has. -/
theorem mem_childNames_iff {name : String} :
    name ∈ c.childNames ↔ (c.child? name).isSome = true := by
  rw [Command.child?, Option.isSome_map, List.lookup_isSome_iff, Command.childNames, List.mem_map]
  constructor
  · rintro ⟨child, hm, rfl⟩
    exact ⟨child, hm, beq_self_eq_true _⟩
  · rintro ⟨child, hm, hname⟩
    exact ⟨child, hm, (beq_iff_eq.mp hname).symm⟩

/-! ### The candidates -/

/-- The words before the last lead to the command whose names are offered. -/
theorem candidates_concat (root : Command) (words : List String) (last : String) :
    candidates root (words ++ [last]) =
      match root.at? (undashed words) with
      | none => []
      | some c => (c.childNames.filter (beginsWith last)).mergeSort (· ≤ ·) := by
  rw [candidates, List.dropLast_concat, List.getLast?_concat, descend_eq]
  rfl

/-- No words are completed as one empty word is. -/
theorem candidates_nil (root : Command) : candidates root [] = candidates root [""] :=
  rfl

/-- **What the candidates are**: the names that begin with the last word and lead on from
where the words before it lead, those with a dash passed over. -/
theorem mem_candidates_iff {root : Command} {name : String} :
    name ∈ candidates root (words ++ [last]) ↔
      last.toList <+: name.toList ∧ (root.at? (undashed words ++ [name])).isSome = true := by
  rw [candidates_concat, at?_append]
  cases root.at? (undashed words) with
  | none => simp
  | some c =>
      dsimp only
      rw [List.mem_mergeSort, List.mem_filter, mem_childNames_iff, beginsWith_iff, and_comm,
        Option.bind_some, at?_singleton]

/-- **The candidates are in order**, none of them twice, if the names below each command are
distinct. -/
theorem candidates_increasing {root : Command}
    (h : ∀ path c, root.at? path = some c → c.childNames.Nodup) (words : List String)
    (last : String) : (candidates root (words ++ [last])).Pairwise (· < ·) := by
  rw [candidates_concat]
  cases hc : root.at? (undashed words) with
  | none => exact .nil
  | some c =>
      have hnodup : (c.childNames.filter (beginsWith last)).Nodup := (h _ c hc).filter _
      have hsorted := List.pairwise_mergeSort' (· ≤ ·) (c.childNames.filter (beginsWith last))
      exact hsorted.imp₂ (fun _ _ hle hne => lt_of_le_of_ne hle hne)
        ((List.mergeSort_perm _ _).nodup_iff.mpr hnodup)

/-! ### Paths as command lines -/

/-- **A path is accepted as a command line** if nothing more is required at its end. -/
theorem accepts_of_at? {blanks : Bool} (h : c.at? path = some d) (hr : d.required = false) :
    Accepts blanks c path path [] := by
  induction path generalizing c with
  | nil =>
      obtain rfl := Option.some.inj h
      exact .alone hr .nil
  | cons name rest ih =>
      obtain ⟨child, hchild, hrest⟩ := Option.bind_eq_some_iff.mp h
      exact .enter .nil hchild (ih hrest)

/-- **The commands on a command line** are a path of the tree. -/
theorem Accepts.exists_at? {blanks : Bool} {args : List String} {items : List Item}
    (h : Accepts blanks c args path items) : ∃ d, c.at? path = some d ∧ d.required = false := by
  induction h with
  | alone hr _ => exact ⟨_, rfl, hr⟩
  | enter _ hc _ ih =>
      obtain ⟨d, hd, hr⟩ := ih
      exact ⟨d, by rw [Command.at?, hc, Option.bind_some, hd], hr⟩

/-- The commands on a command line are among its arguments, in order. -/
theorem Accepts.sublist {blanks : Bool} {args : List String} {items : List Item}
    (h : Accepts blanks c args path items) : path.Sublist args := by
  induction h with
  | alone _ _ => exact List.nil_sublist _
  | enter _ _ _ ih => exact (ih.cons_cons _).trans (List.sublist_append_right _ _)

end CommandLine

end CommandGate
