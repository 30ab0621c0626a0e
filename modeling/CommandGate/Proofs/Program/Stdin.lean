import CommandGate.Proofs.CommandLine.Insertion
import CommandGate.Proofs.Program.Completion

/-!
# The Switch for Input from a Stream

Every command of the program has the switch `--stdin`, except the commands for the scripts of
single shells. So it can be put into a command line wherever no value is due, and it changes
nothing but that the input from a stream is switched on; only behind the name of a shell it is
left over.

## Main results

* `Program.stdin_anywhere`: where the switch can be put, and what it does there.
* `Program.stdin_leftOver_of_shell`: behind the name of a shell it is left over.
-/

namespace CommandGate

namespace Program

open CommandLine

variable {front rest args path names : List String} {items before after : List Item}
variable {d : Command} {found : Findings}

/-! ### The options of the commands -/

/-- Every command of the grammar takes its options from those of the program. -/
theorem within_allOptions : grammar.Within allOptions := by
  intro path d h
  rcases at?_grammar h with ⟨-, rfl⟩ | ⟨-, rfl⟩ | ⟨options, rfl, hsub⟩ | ⟨shell, -, rfl⟩
  · decide
  · decide
  · intro o ho
    simp only [leaf, List.mem_cons] at ho
    rcases ho with rfl | rfl | ho
    · decide
    · decide
    · have hmore : [modeOption, enabledOption] ⊆ allOptions := by decide
      exact hmore (hsub ho)
  · decide

/-- The options of the program are tidy. -/
theorem tidy_allOptions : Tidy allOptions :=
  tidy_of_sublist (.refl _) (by decide)

/-- Every command has the switch, except those for the scripts of shells. -/
theorem stdinOption_mem_or (h : grammar.at? path = some d) :
    stdinOption ∈ d.options ∨
      ∃ shell : Shell, path = ["completion", shell.name] ∧ d = leaf [helpOption] := by
  rcases at?_grammar h with ⟨-, rfl⟩ | ⟨-, rfl⟩ | ⟨options, rfl, -⟩ | hshell
  · exact .inl (by decide)
  · exact .inl (by decide)
  · exact .inl (by simp [leaf])
  · exact .inr hshell

/-- The switch spells itself wherever it is among the options. -/
theorem spells_stdinOption {options : List OptionSpec} (h : stdinOption ∈ options) :
    Spells true options ["--stdin"] (.switched "--stdin") :=
  .switch h rfl ⟨List.prefix_rfl, by decide⟩

/-! ### What the switch adds -/

/-- A switch that is put in between changes no value. -/
theorem lastValue?_insert_switched (name switch : String) :
    lastValue? name (before ++ .switched switch :: after) = lastValue? name (before ++ after) := by
  induction before with
  | nil => simp [lastValue?, Item.value?]
  | cons item before ih => simp [lastValue?, ih]

/-- A switch among the items changes nothing else about the invocation. -/
theorem invocationOf_insert_stdin :
    invocationOf path (before ++ .switched "--stdin" :: after) =
      { invocationOf path (before ++ after) with stdin := true } := by
  simp only [invocationOf, modeOf, tutorialTask, lastValue?_insert_switched, streamed]
  rw [decide_eq_true (by simp [stdinOption])]

/-! ### Putting the switch in -/

/-- The command for the script of a shell leaves the switch over. -/
theorem walk_leaf_stdin :
    walk (leaf [helpOption]) found ["--stdin"] =
      .rejected [] (.leftOver (found.leftOver ++ ["--stdin"])) := by
  have hclass : classify (leaf [helpOption]).options "--stdin" = .foreign := rfl
  rw [walk]
  dsimp only
  rw [if_neg (by decide), hclass]
  dsimp only
  rw [walk, finish]
  simp [leaf, Findings.leave]

/-- What becomes of a command line into which the switch is put, where it is cut. -/
theorem read_insert_of_cut (hd : Reaches true grammar front path before d)
    (ha : Accepts true d rest names after) :
    (¬ (rest = [] ∧ ∃ shell : Shell, path ++ names = ["completion", shell.name]) →
      CommandLine.read grammar (front ++ "--stdin" :: rest) =
        .accepted (findings (path ++ names) (before ++ .switched "--stdin" :: after))) ∧
    (rest = [] → ∀ shell : Shell, path ++ names = ["completion", shell.name] →
      CommandLine.read grammar (front ++ ["--stdin"]) = .rejected [] (.leftOver ["--stdin"])) := by
  rcases stdinOption_mem_or hd.at? with hs | ⟨shell, rfl, rfl⟩
  · refine ⟨fun _ => ?_, ?_⟩
    · have haccepts := hd.accepts (ha.cons (spells_stdinOption hs))
      exact (read_eq_accepted_iff grammar_orderly).mpr ⟨_, _, haccepts, rfl⟩
    · -- with nothing behind it, the command with the switch would be that of the shell
      rintro rfl shell hpath
      obtain rfl : names = [] := List.sublist_nil.mp ha.sublist
      rw [List.append_nil] at hpath
      have hleaf : grammar.at? path = some (leaf [helpOption]) := by
        rw [hpath]
        cases shell <;> rfl
      obtain rfl := Option.some.inj (hd.at?.symm.trans hleaf)
      exact absurd hs (by decide)
  · obtain ⟨rfl, hp⟩ := accepts_leaf_iff.mp ha
    obtain ⟨rfl, -⟩ := phrases_nil_iff.mp hp
    refine ⟨fun hno => absurd ⟨rfl, shell, rfl⟩ hno, fun _ _ _ => ?_⟩
    have hspells : Spells true allOptions ["--stdin"] (.switched "--stdin") :=
      spells_stdinOption (by decide)
    have htame : ∀ arg ∈ ["--stdin"], Tame arg := hspells.tame tidy_allOptions
    have hall : ∀ arg ∈ front ++ ["--stdin"], Tame arg :=
      List.forall_mem_append.mpr ⟨hd.tame grammar_orderly, htame⟩
    rw [CommandLine.read, firstAmbiguous_of_tame grammar_orderly.tidy.toSeparated hall]
    dsimp only
    rw [walk_reaches hd grammar_orderly htame, walk_leaf_stdin]
    simp [Findings.follow]

/-- Where a value is due the switch is not accepted. -/
theorem read_insert_of_awaitsValue (hv : AwaitsValue allOptions front) (found : Findings) :
    CommandLine.read grammar (front ++ "--stdin" :: rest) ≠ .accepted found := by
  intro h
  obtain ⟨path, items, haccepts, -⟩ := (read_eq_accepted_iff grammar_orderly).mp h
  rcases haccepts.cut grammar_orderly within_allOptions rfl with
    ⟨d, path₁, path₂, before, after, -, -, hd, -⟩ | ⟨-, value, more, hvalue, hbare⟩
  · exact hd.not_awaitsValue grammar_orderly within_allOptions tidy_allOptions hv
  · obtain ⟨rfl, -⟩ := List.cons.inj hvalue
    exact absurd hbare (by decide)

/-- **Where the switch can be put into a command line**: wherever no value is due, unless it
comes last behind the name of a shell, where it is left over. It switches on the input from a
stream, and leaves the commands and all values as they were. Where a value is due it is not
accepted. -/
theorem stdin_anywhere (h : CommandLine.read grammar (front ++ rest) = .accepted found) :
    (¬ AwaitsValue allOptions front →
      ¬ (rest = [] ∧ ∃ shell : Shell, found.path = ["completion", shell.name]) →
        ∃ found', CommandLine.read grammar (front ++ "--stdin" :: rest) = .accepted found' ∧
          found'.path = found.path ∧ (∀ name, found'.value? name = found.value? name) ∧
          Invocation.of found' = { Invocation.of found with stdin := true }) ∧
    (rest = [] → ∀ shell : Shell, found.path = ["completion", shell.name] →
      CommandLine.read grammar (front ++ ["--stdin"]) = .rejected [] (.leftOver ["--stdin"])) ∧
    (AwaitsValue allOptions front →
      ∀ found', CommandLine.read grammar (front ++ "--stdin" :: rest) ≠ .accepted found') := by
  obtain ⟨path, items, haccepts, rfl⟩ := (read_eq_accepted_iff grammar_orderly).mp h
  have hfindings : (({} : Findings).note items).follow path = findings path items := rfl
  rw [hfindings, path_findings, invocation_findings]
  rcases haccepts.cut grammar_orderly within_allOptions rfl with
    ⟨d, path, names, before, after, rfl, rfl, hd, ha⟩ | ⟨hv, value, more, rfl, -⟩
  · obtain ⟨haccepted, hleft⟩ := read_insert_of_cut hd ha
    refine ⟨fun _ hno => ⟨_, haccepted hno, path_findings, fun name => ?_, ?_⟩, hleft,
      read_insert_of_awaitsValue⟩
    · rw [value?_findings, value?_findings, lastValue?_insert_switched]
    · rw [invocation_findings, invocationOf_insert_stdin]
  · exact ⟨fun hno => absurd hv hno, fun hnil => absurd hnil (by simp),
      read_insert_of_awaitsValue⟩

/-- Between a command and an option of its own. -/
theorem stdin_anywhere_upgrade :
    CommandLine.read grammar (["upgrade"] ++ ["--mode", "pip"]) =
        .accepted (findings ["upgrade"] [.valued "--mode" (some "pip")]) ∧
      ∃ found', CommandLine.read grammar (["upgrade"] ++ ["--stdin", "--mode", "pip"]) =
        .accepted found' ∧ Invocation.of found' = ⟨.upgrade .pip, true⟩ := by
  have hread : CommandLine.read grammar (["upgrade"] ++ ["--mode", "pip"]) =
      .accepted (findings ["upgrade"] [.valued "--mode" (some "pip")]) := rfl
  have hword : ¬ AwaitsValue allOptions ["upgrade"] :=
    (show Bare "upgrade" by decide).not_awaitsValue tidy_allOptions []
  obtain ⟨found', h, -, -, hinvocation⟩ := (stdin_anywhere hread).1 hword (by simp)
  exact ⟨hread, found', h, by rw [hinvocation]; rfl⟩

/-- **The switch is not accepted by every command**: behind the name of a shell it is left
over, although no value is due there. -/
theorem stdin_leftOver_of_shell :
    CommandLine.read grammar ["completion", "bash"] =
        .accepted (findings ["completion", "bash"] []) ∧
      ¬ AwaitsValue allOptions ["completion", "bash"] ∧
      CommandLine.read grammar (["completion", "bash"] ++ ["--stdin"]) =
        .rejected [] (.leftOver ["--stdin"]) :=
  ⟨rfl, (show Bare "bash" by decide).not_awaitsValue tidy_allOptions ["completion"], rfl⟩

end Program

end CommandGate
