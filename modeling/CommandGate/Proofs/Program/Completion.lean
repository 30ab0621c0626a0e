import CommandGate.Proofs.CommandLine.Candidates
import CommandGate.Proofs.Program.Language
import Mathlib.Algebra.GroupWithZero.Nat

/-!
# Completing Command Lines

The candidates for the last word of a partial command line are the names that make a path of
the program's commands. Such a path is a command line that is carried out under the names on
it, except the one that leads to completion scripts and names no shell. The other way round,
a command line without options that is carried out under the names on it ends with a
candidate.

## Main results

* `Program.at?_grammar`: the paths of the program's commands.
* `Program.commandPath_injOn`: a command path tells which of the arguments are commands.
* `Program.completion_agrees`: the candidates and the command lines that are carried out.
-/

namespace CommandGate

namespace Program

open CommandLine

variable {path args names : List String} {c d : Command}

/-! ### The paths of the program's commands -/

/-- Below a command without commands there is nothing. -/
theorem at?_leaf {options : List OptionSpec} (h : (leaf options).at? path = some d) :
    path = [] ∧ d = leaf options := by
  cases path with
  | nil => exact ⟨rfl, (Option.some.inj h).symm⟩
  | cons name rest => simp [Command.at?, Command.child?, leaf] at h

/-- **What a path of the program's commands leads to**: the program itself, the command for
completion scripts, a command without commands below it, or the one for the script of a
shell, which has no option but its request for help. -/
theorem at?_grammar (h : grammar.at? path = some d) :
    path = [] ∧ d = grammar ∨ path = ["completion"] ∧ d = completionCommand ∨
      (∃ options, d = leaf (helpOption :: stdinOption :: options) ∧
        options ⊆ [modeOption, enabledOption]) ∨
      ∃ shell : Shell, path = ["completion", shell.name] ∧ d = leaf [helpOption] := by
  cases path with
  | nil => exact .inl ⟨rfl, (Option.some.inj h).symm⟩
  | cons name rest =>
      obtain ⟨child, hchild, hrest⟩ := Option.bind_eq_some_iff.mp h
      rcases child_grammar hchild with ⟨-, rfl⟩ | ⟨-, rfl⟩ | ⟨-, rfl⟩ | ⟨-, rfl⟩ | ⟨rfl, rfl⟩
      · exact .inr (.inr (.inl ⟨[], (at?_leaf hrest).2, by simp⟩))
      · exact .inr (.inr (.inl ⟨[], (at?_leaf hrest).2, by simp⟩))
      · exact .inr (.inr (.inl ⟨[modeOption], (at?_leaf hrest).2, by simp⟩))
      · exact .inr (.inr (.inl ⟨[enabledOption], (at?_leaf hrest).2, by simp⟩))
      · cases rest with
        | nil => exact .inr (.inl ⟨rfl, (Option.some.inj hrest).symm⟩)
        | cons next more =>
            obtain ⟨child, hchild, hmore⟩ := Option.bind_eq_some_iff.mp hrest
            obtain ⟨shell, rfl, rfl⟩ := child_completion hchild
            obtain ⟨rfl, rfl⟩ := at?_leaf hmore
            exact .inr (.inr (.inr ⟨shell, rfl, rfl⟩))

/-- The names below each command are distinct. -/
theorem nodup_childNames (h : grammar.at? path = some c) : c.childNames.Nodup := by
  rcases at?_grammar h with ⟨-, rfl⟩ | ⟨-, rfl⟩ | ⟨options, rfl, -⟩ | ⟨shell, -, rfl⟩
  · decide
  · decide
  · exact .nil
  · exact .nil

/-- Only the path to completion scripts asks for more. -/
theorem required_eq_false (h : grammar.at? path = some d) (hp : path ≠ ["completion"]) :
    d.required = false := by
  rcases at?_grammar h with ⟨-, rfl⟩ | ⟨he, -⟩ | ⟨options, rfl, -⟩ | ⟨shell, -, rfl⟩
  · rfl
  · exact absurd he hp
  · rfl
  · rfl

/-! ### Command paths -/

/-- Names joined by blanks are as long as they are with one blank before each but the first. -/
theorem length_intercalate (first : String) (names : List String) :
    (" ".intercalate (first :: names)).length =
      first.length + (names.map fun name => name.length + 1).sum := by
  induction names generalizing first with
  | nil => simp
  | cons name rest ih =>
      rw [String.intercalate_cons_cons, String.length_append, String.length_append, ih,
        List.map_cons, List.sum_cons, show " ".length = 1 from rfl]
      omega

/-- Leaving out names makes a command path shorter. -/
theorem sum_length_le (h : path.Sublist args) :
    (path.map fun name => name.length + 1).sum + args.length ≤
      (args.map fun name => name.length + 1).sum + path.length := by
  induction h with
  | slnil => rfl
  | cons name _ ih =>
      rw [List.map_cons, List.sum_cons, List.length_cons]
      omega
  | cons_cons name _ ih =>
      rw [List.map_cons, List.map_cons, List.sum_cons, List.sum_cons, List.length_cons,
        List.length_cons]
      omega

/-- **A command path tells which arguments are commands**: all of them, if it is the path of
all of them. -/
theorem commandPath_injOn (h : path.Sublist args)
    (he : Gate.commandPath path = Gate.commandPath args) : path = args := by
  have hlength := congrArg String.length he
  rw [Gate.commandPath, Gate.commandPath, length_intercalate, length_intercalate] at hlength
  have hle := sum_length_le h
  exact h.eq_of_length_le (by omega)

/-! ### Candidates and command lines -/

variable (s : Surroundings) (w : World)

/-- A path of the program's commands is carried out under its names. -/
theorem start_of_at? (h : (grammar.at? path).isSome = true) (hp : path ≠ ["completion"]) :
    ∃ i, start s path w = .ok (.invocation i) w ∧ i.commandPath = Gate.commandPath path := by
  obtain ⟨d, hd⟩ := Option.isSome_iff_exists.mp h
  have haccepts : Accepts true grammar path path [] :=
    accepts_of_at? hd (required_eq_false hd hp)
  have hnames := (sentence_iff.mpr ⟨_, haccepts, rfl⟩).names
  refine ⟨_, start_of_accepts s w haccepts, ?_⟩
  rw [Invocation.commandPath, hnames]

/-- Arguments that are carried out under the names on them are a path of the program's
commands. -/
theorem at?_of_start {i : Invocation} {w' : World} (h : start s args w = .ok (.invocation i) w')
    (hp : i.commandPath = Gate.commandPath args) : (grammar.at? args).isSome = true := by
  rcases sentence_or_ends s w args with ⟨path, j, hsentence, hj⟩ | hends
  · rw [hj] at h
    obtain ⟨hij, -⟩ := EStateM.Result.ok.inj h
    obtain rfl := Start.invocation.inj hij
    obtain ⟨items, haccepts, -⟩ := sentence_iff.mp hsentence
    rw [Invocation.commandPath, hsentence.names] at hp
    obtain rfl := commandPath_injOn haccepts.sublist hp
    obtain ⟨d, hd, -⟩ := haccepts.exists_at?
    rw [hd]
    rfl
  · rcases hends with ⟨code, w'', hend, -⟩ | ⟨-, kind, message, w'', -, hend⟩ <;>
      simp [hend] at h

/-- The path to completion scripts on its own only lacks a shell. -/
theorem start_completion :
    start s ["completion"] w = .ok (.ended 2) { w with
      stderr := w.stderr ++ (Text.ofString (usageOf s.environment ["completion"]) ++ "\n" ++
        "rit completion: error: the following arguments are required: <shell>\n") } := by
  have hread : read grammar ["completion"] =
      .rejected ["completion"] (.commandMissing "<shell>") := rfl
  have hmessage :
      Text.ofString "rit completion: error: the following arguments are required: <shell>\n" =
        Gate.commandPath ["completion"] ++
          (Text.ofString ": error: " ++ ((Complaint.commandMissing "<shell>").message ++ "\n")) :=
    rfl
  rw [start, hmessage]
  rw [hread]
  simp only [List.append_assoc]
  rfl

/-- **Completion agrees with the command lines.** The candidates for the last of some words
are in order, none of them twice. They are the names that begin with the last word and
complete the words before it, those with a dash passed over, to a path of the program's
commands. The path is carried out as a command line under its names, unless it only lacks
the shell for a completion script; and a command line without words that begin with a dash
that is carried out under the names on it ends with a candidate. No words are completed as
one empty word is. -/
theorem completion_agrees (words : List String) (last : String) :
    (candidates grammar (words ++ [last])).Pairwise (· < ·) ∧
    (∀ name, name ∈ candidates grammar (words ++ [last]) ↔
      last.toList <+: name.toList ∧ (grammar.at? (undashed words ++ [name])).isSome = true) ∧
    (∀ name ∈ candidates grammar (words ++ [last]),
      ¬ (undashed words = [] ∧ name = "completion") →
        ∃ i, start s (undashed words ++ [name]) w = .ok (.invocation i) w ∧
          i.commandPath = Gate.commandPath (undashed words ++ [name])) ∧
    start s ["completion"] w = .ok (.ended 2) { w with
      stderr := w.stderr ++ (Text.ofString (usageOf s.environment ["completion"]) ++ "\n" ++
        "rit completion: error: the following arguments are required: <shell>\n") } ∧
    (∀ name i w', last.toList <+: name.toList →
      start s (undashed words ++ [name]) w = .ok (.invocation i) w' →
      i.commandPath = Gate.commandPath (undashed words ++ [name]) →
        name ∈ candidates grammar (words ++ [last])) ∧
    candidates grammar [] = candidates grammar [""] := by
  refine ⟨candidates_increasing (fun _ _ => nodup_childNames) words last,
    fun name => mem_candidates_iff, fun name hname hne => ?_, start_completion s w, ?_,
    candidates_nil grammar⟩
  · refine start_of_at? s w (mem_candidates_iff.mp hname).2 fun he => hne ?_
    simpa [List.append_eq_singleton_iff] using he
  · intro name i w' hlast hstart hpath
    exact mem_candidates_iff.mpr ⟨hlast, at?_of_start s w hstart hpath⟩

end Program

end CommandGate
