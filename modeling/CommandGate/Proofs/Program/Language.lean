import CommandGate.Proofs.CommandLine.Language
import CommandGate.Proofs.Program.News

/-!
# The Command Lines of the Program

`Program.Sentence` lists the command lines that the program carries out, command by command,
with what each of them asks for. Every other command line ends with an exit code, unless the
version is asked for and the network fails in a way of its own.

A value can be left blank by attaching two dashes to its option, although the words of an
option are listed and two dashes are not among them; `blanks` says whether such lines are
among those considered.

## Main results

* `Program.sentence_iff`: the command lines as what the program's grammar accepts.
* `Program.sentence_false_iff`: those that leave no value blank.
* `Program.sentence_or_ends`: how all others end.
* `Program.command_lines`: what becomes of a command line.
-/

namespace CommandGate

namespace Program

open CommandLine

/-- Whether items switch on the input from a stream. -/
def streamed (items : List Item) : Bool :=
  decide (.switched stdinOption.long ∈ items)

/-- The mode that items give: that of the last value, and `print` without one. -/
def modeOf (items : List Item) : UpgradeMode :=
  ((lastValue? modeOption.long items).map UpgradeMode.ofName).getD .print

/-- What items ask about the tutorial: to set the last state given, or to show the state. -/
def tutorialTask (items : List Item) : Task :=
  match lastValue? enabledOption.long items with
  | none => .showTutorial
  | some state => .setTutorial state

/-- **The command lines of the program**, with the names of the commands on them and the
invocation that they ask for. Each has phrases for the options of the program, and most have
a command and phrases for the options of that. -/
inductive Sentence (blanks : Bool) : List String → List String → Invocation → Prop
  | overview {args : List String} {items : List Item}
      (hp : Phrases blanks [stdinOption] args items) :
      Sentence blanks args [] ⟨.overview, streamed items⟩
  | help {front rest : List String} {items others : List Item}
      (hf : Phrases blanks [stdinOption] front items)
      (hr : Phrases blanks [stdinOption] rest others) :
      Sentence blanks (front ++ "help" :: rest) ["help"] ⟨.help, streamed (items ++ others)⟩
  | init {front rest : List String} {items others : List Item}
      (hf : Phrases blanks [stdinOption] front items)
      (hr : Phrases blanks [stdinOption] rest others) :
      Sentence blanks (front ++ "init" :: rest) ["init"] ⟨.init, streamed (items ++ others)⟩
  | upgrade {front rest : List String} {items others : List Item}
      (hf : Phrases blanks [stdinOption] front items)
      (hr : Phrases blanks [stdinOption, modeOption] rest others) :
      Sentence blanks (front ++ "upgrade" :: rest) ["upgrade"]
        ⟨.upgrade (modeOf (items ++ others)), streamed (items ++ others)⟩
  | tutorial {front rest : List String} {items others : List Item}
      (hf : Phrases blanks [stdinOption] front items)
      (hr : Phrases blanks [stdinOption, enabledOption] rest others) :
      Sentence blanks (front ++ "tutorial" :: rest) ["tutorial"]
        ⟨tutorialTask (items ++ others), streamed (items ++ others)⟩
  | completion {front rest : List String} {items others : List Item} (shell : Shell)
      (hf : Phrases blanks [stdinOption] front items)
      (hr : Phrases blanks [stdinOption] rest others) :
      Sentence blanks (front ++ "completion" :: (rest ++ [shell.name]))
        ["completion", shell.name]
        ⟨.completionScript shell, streamed (items ++ others)⟩

/-! ### The grammar -/

/-- All options of the program. -/
def allOptions : List OptionSpec :=
  [helpOption, versionOption, stdinOption, modeOption, enabledOption]

/-- The options of the program are told apart by the letter after their dashes. -/
theorem separated_allOptions : Separated allOptions where
  nodup := by decide
  dashes := by decide
  long := by decide
  noValue := by decide
  apart := by decide

/-- The values to choose from are bare words. -/
theorem bare_allOptions : ∀ o ∈ allOptions, ∀ words, o.effect = .choice words →
    ∀ w ∈ words, Bare w := by
  intro o ho words he
  simp only [allOptions, List.mem_cons, List.not_mem_nil, or_false] at ho
  rcases ho with rfl | rfl | rfl | rfl | rfl
  · simp [helpOption] at he
  · simp [versionOption] at he
  · simp [stdinOption] at he
  · obtain rfl := Effect.choice.inj he
    decide
  · obtain rfl := Effect.choice.inj he
    decide

/-- Options of the program are tidy where the request for help is not the only one, or is. -/
theorem tidy_of_sublist {options : List OptionSpec} (h : options.Sublist allOptions)
    (hs : options = [helpOption] ∨ 2 ≤ options.length) : Tidy options where
  nodup := separated_allOptions.nodup.sublist h
  dashes o ho := separated_allOptions.dashes o (h.subset ho)
  long o ho := separated_allOptions.long o (h.subset ho)
  noValue o ho := separated_allOptions.noValue o (h.subset ho)
  apart a ha b hb := separated_allOptions.apart a (h.subset ha) b (h.subset hb)
  several o ho he := by
    rcases hs with rfl | htwo
    · obtain rfl : o = helpOption := by simpa using ho
      simp [OptionSpec.TakesEffect, helpOption] at he
    · exact htwo
  bare o ho := bare_allOptions o (h.subset ho)

/-- A command with tidy options and nothing below it is orderly. -/
theorem orderly_leaf {options : List OptionSpec} (h : Tidy options) : (leaf options).Orderly :=
  .intro h (by simp [Command.child?, leaf]) (by simp [Command.child?, leaf])

/-- The commands below the program's own. -/
theorem child_grammar {word : String} {child : Command} (h : grammar.child? word = some child) :
    word = "help" ∧ child = leaf [helpOption, stdinOption] ∨
    word = "init" ∧ child = leaf [helpOption, stdinOption] ∨
    word = "upgrade" ∧ child = leaf [helpOption, stdinOption, modeOption] ∨
    word = "tutorial" ∧ child = leaf [helpOption, stdinOption, enabledOption] ∨
    word = "completion" ∧ child = completionCommand := by
  obtain ⟨summary, hmem⟩ := mem_of_child? h
  simp only [grammar, List.mem_cons, List.not_mem_nil, or_false, Prod.mk.injEq] at hmem
  rcases hmem with ⟨hw, -, hc⟩ | ⟨hw, -, hc⟩ | ⟨hw, -, hc⟩ | ⟨hw, -, hc⟩ | ⟨hw, -, hc⟩
  · exact .inl ⟨hw, hc⟩
  · exact .inr (.inl ⟨hw, hc⟩)
  · exact .inr (.inr (.inl ⟨hw, hc⟩))
  · exact .inr (.inr (.inr (.inl ⟨hw, hc⟩)))
  · exact .inr (.inr (.inr (.inr ⟨hw, hc⟩)))

/-- The commands below the one for completion scripts. -/
theorem child_completion {word : String} {child : Command}
    (h : completionCommand.child? word = some child) :
    ∃ shell : Shell, word = shell.name ∧ child = leaf [helpOption] := by
  obtain ⟨summary, hmem⟩ := mem_of_child? h
  obtain ⟨shell, -, he⟩ := List.mem_map.mp hmem
  simp only [Prod.mk.injEq] at he
  exact ⟨shell, he.1.symm, he.2.2.symm⟩

/-- The grammar of the program is orderly. -/
theorem grammar_orderly : grammar.Orderly := by
  refine .intro (tidy_of_sublist (by decide) (by decide)) ?_ ?_
  · intro word child h
    rcases child_grammar h with h | h | h | h | h <;> rw [h.1] <;> decide
  · intro word child h
    rcases child_grammar h with ⟨-, rfl⟩ | ⟨-, rfl⟩ | ⟨-, rfl⟩ | ⟨-, rfl⟩ | ⟨-, rfl⟩
    · exact orderly_leaf (tidy_of_sublist (by decide) (by decide))
    · exact orderly_leaf (tidy_of_sublist (by decide) (by decide))
    · exact orderly_leaf (tidy_of_sublist (by decide) (by decide))
    · exact orderly_leaf (tidy_of_sublist (by decide) (by decide))
    · refine .intro (tidy_of_sublist (by decide) (by decide)) ?_ ?_
      · intro word child h
        obtain ⟨shell, rfl, -⟩ := child_completion h
        cases shell <;> decide
      · intro word child h
        obtain ⟨shell, -, rfl⟩ := child_completion h
        exact orderly_leaf (tidy_of_sublist (by decide) (by decide))

variable {blanks : Bool} {args path : List String} {items others : List Item}

/-! ### What is asked for -/

/-- The findings of a command line that was accepted. -/
def findings (path : List String) (items : List Item) : Findings :=
  (({} : Findings).note items).follow path

/-- The value found for an option is the last one that the items give it. -/
theorem value?_findings (name : String) :
    (findings path items).value? name = lastValue? name items := by
  have h : (({} : Findings).note items).value? name = _ := Findings.value?_note {} name
  rw [show Findings.value? {} name = none from rfl, Option.or_none] at h
  exact h

/-- The path of the findings is the one that was followed. -/
theorem path_findings : (findings path items).path = path := by
  simp [findings, Findings.follow]

/-- The invocation that a path and items stand for. -/
def invocationOf (path : List String) (items : List Item) : Invocation where
  task := match path with
    | ["help"] => .help
    | ["init"] => .init
    | ["upgrade"] => .upgrade (modeOf items)
    | ["tutorial"] => tutorialTask items
    | ["completion", name] => ((Shell.ofName? name).map .completionScript).getD .overview
    | _ => .overview
  stdin := streamed items

/-- The invocation that is made of findings is that of the path and the items. -/
theorem invocation_findings : Invocation.of (findings path items) = invocationOf path items := by
  simp only [Invocation.of, invocationOf, Task.of, modeOf, tutorialTask]
  rw [path_findings, value?_findings, value?_findings]
  have h : (({} : Findings).note items).hasSwitch stdinOption.long = _ :=
    Findings.hasSwitch_note {} stdinOption.long
  rw [show Findings.hasSwitch {} stdinOption.long = false from rfl, Bool.false_or] at h
  rw [streamed, ← h]
  rfl

/-- Asking for help is no option that takes effect: it ends the reading. -/
theorem not_takesEffect_helpOption : ¬ helpOption.TakesEffect := by
  simp [OptionSpec.TakesEffect, helpOption]

/-- Phrases for the program's own options. -/
theorem phrases_grammar_iff :
    Phrases blanks grammar.options args items ↔ Phrases blanks [stdinOption] args items := by
  refine (phrases_cons_iff not_takesEffect_helpOption).trans (phrases_cons_iff ?_)
  simp [OptionSpec.TakesEffect, versionOption]

/-- What a command without commands below it accepts, its request for help aside. -/
theorem accepts_leaf_iff {options : List OptionSpec} :
    Accepts blanks (leaf (helpOption :: options)) args path items ↔
      path = [] ∧ Phrases blanks options args items := by
  constructor
  · intro h
    cases h with
    | alone _ hp => exact ⟨rfl, (phrases_cons_iff not_takesEffect_helpOption).mp hp⟩
    | enter _ hc _ => simp [Command.child?, leaf] at hc
  · rintro ⟨rfl, hp⟩
    exact .alone rfl ((phrases_cons_iff not_takesEffect_helpOption).mpr hp)

/-- What the command for completion scripts accepts. -/
theorem accepts_completion_iff :
    Accepts blanks completionCommand args path items ↔
      ∃ rest shell, args = rest ++ [Shell.name shell] ∧ path = [shell.name] ∧
        Phrases blanks [stdinOption] rest items := by
  constructor
  · intro h
    cases h with
    | alone hr _ => simp [completionCommand] at hr
    | enter hp hc hr =>
        obtain ⟨shell, rfl, rfl⟩ := child_completion hc
        obtain ⟨rfl, hnil⟩ := accepts_leaf_iff.mp hr
        obtain ⟨rfl, rfl⟩ := phrases_nil_iff.mp hnil
        refine ⟨_, shell, rfl, rfl, ?_⟩
        rw [List.append_nil]
        exact (phrases_cons_iff not_takesEffect_helpOption).mp hp
  · rintro ⟨rest, shell, rfl, rfl, hp⟩
    have hchild : completionCommand.child? shell.name = some (leaf [helpOption]) := by
      cases shell <;> rfl
    have hleaf : Accepts blanks (leaf [helpOption]) [] [] [] := accepts_leaf_iff.mpr ⟨rfl, .nil⟩
    have hwhole := Accepts.enter ((phrases_cons_iff not_takesEffect_helpOption).mpr hp) hchild hleaf
    rwa [List.append_nil] at hwhole

/-- **The command lines of the program are what its grammar accepts**, read as invocations. -/
theorem sentence_iff {i : Invocation} :
    Sentence blanks args path i ↔
      ∃ items, Accepts blanks grammar args path items ∧ invocationOf path items = i := by
  constructor
  · intro h
    cases h with
    | overview hp => exact ⟨_, .alone rfl (phrases_grammar_iff.mpr hp), rfl⟩
    | help hf hr =>
        exact ⟨_, .enter (phrases_grammar_iff.mpr hf) rfl (accepts_leaf_iff.mpr ⟨rfl, hr⟩), rfl⟩
    | init hf hr =>
        exact ⟨_, .enter (phrases_grammar_iff.mpr hf) rfl (accepts_leaf_iff.mpr ⟨rfl, hr⟩), rfl⟩
    | upgrade hf hr =>
        exact ⟨_, .enter (phrases_grammar_iff.mpr hf) rfl (accepts_leaf_iff.mpr ⟨rfl, hr⟩), rfl⟩
    | tutorial hf hr =>
        exact ⟨_, .enter (phrases_grammar_iff.mpr hf) rfl (accepts_leaf_iff.mpr ⟨rfl, hr⟩), rfl⟩
    | completion shell hf hr =>
        refine ⟨_, .enter (phrases_grammar_iff.mpr hf) rfl
          (accepts_completion_iff.mpr ⟨_, shell, rfl, rfl, hr⟩), ?_⟩
        cases shell <;> rfl
  · rintro ⟨items, h, rfl⟩
    cases h with
    | alone _ hp => exact .overview (phrases_grammar_iff.mp hp)
    | enter hp hc hr =>
        have hp := phrases_grammar_iff.mp hp
        rcases child_grammar hc with ⟨rfl, rfl⟩ | ⟨rfl, rfl⟩ | ⟨rfl, rfl⟩ | ⟨rfl, rfl⟩ | ⟨rfl, rfl⟩
        · obtain ⟨rfl, hrest⟩ := accepts_leaf_iff.mp hr
          exact .help hp hrest
        · obtain ⟨rfl, hrest⟩ := accepts_leaf_iff.mp hr
          exact .init hp hrest
        · obtain ⟨rfl, hrest⟩ := accepts_leaf_iff.mp hr
          exact .upgrade hp hrest
        · obtain ⟨rfl, hrest⟩ := accepts_leaf_iff.mp hr
          exact .tutorial hp hrest
        · obtain ⟨rest, shell, rfl, rfl, hrest⟩ := accepts_completion_iff.mp hr
          have hcompletion := Sentence.completion shell hp hrest
          cases shell <;> exact hcompletion

/-- **The command lines without blanks** are those with no argument that attaches two dashes. -/
theorem sentence_false_iff {i : Invocation} :
    Sentence false args path i ↔
      Sentence true args path i ∧ ∀ arg ∈ args, ¬ AttachesDashes arg := by
  simp only [sentence_iff, accepts_false_iff grammar_orderly]
  constructor
  · rintro ⟨items, ⟨h, hno⟩, hi⟩
    exact ⟨⟨items, h, hi⟩, hno⟩
  · rintro ⟨⟨items, h, hi⟩, hno⟩
    exact ⟨items, ⟨h, hno⟩, hi⟩

/-- The names on a command line are those that lead to the task. -/
theorem Sentence.names {i : Invocation} (h : Sentence blanks args path i) :
    i.task.names = path := by
  cases h with
  | tutorial hf hr =>
      rw [tutorialTask]
      split <;> rfl
  | _ => rfl

/-- The arguments for a task are a command line of the program. -/
theorem sentence_of_task {task : Task} (h : taskOf? args = some task) :
    ∃ path i, Sentence true args path i ∧ i.task = task := by
  rw [taskOf?] at h
  cases hread : read grammar args with
  | accepted found =>
      rw [hread] at h
      obtain rfl : Task.of found = task := Option.some.inj h
      obtain ⟨path, items, haccepts, rfl⟩ := (read_eq_accepted_iff grammar_orderly).mp hread
      refine ⟨path, _, sentence_iff.mpr ⟨items, haccepts, rfl⟩, ?_⟩
      rw [← invocation_findings]
      rfl
  | _ => simp [hread] at h

/-- **A tutorial state that is asked for is one of those that can be written.** -/
theorem mem_states_of_task {state : String}
    (h : taskOf? args = some (.setTutorial (some state))) : state ∈ Tutorial.states := by
  obtain ⟨path, i, hsentence, htask⟩ := sentence_of_task h
  have hstdin : ∀ words, stdinOption.effect ≠ .choice words := by simp [stdinOption]
  cases hsentence with
  | @tutorial front rest items others hf hr =>
      have hlast : lastValue? enabledOption.long (items ++ others) = some (some state) := by
        simp only [tutorialTask] at htask
        split at htask
        · simp at htask
        · rename_i value hvalue
          rw [hvalue, Task.setTutorial.inj htask]
      rcases List.mem_append.mp (mem_of_lastValue? hlast) with hm | hm
      · obtain ⟨spec, hspec, words, heffect, -, -⟩ := hf.mem_words hm
        obtain rfl : spec = stdinOption := by simpa using hspec
        exact absurd heffect (hstdin words)
      · obtain ⟨spec, hspec, words, heffect, -, hwords⟩ := hr.mem_words hm
        rcases List.mem_cons.mp hspec with rfl | hspec
        · exact absurd heffect (hstdin words)
        · obtain rfl : spec = enabledOption := by simpa using hspec
          obtain rfl := Effect.choice.inj heffect
          exact hwords
  | _ => simp at htask

/-! ### Starting -/

variable (s : Surroundings) (w : World)

/-- A command line that is no invocation ends with exit code 0 or 2, or asks for the version
when the network fails in a way of its own. -/
def Ends (s : Surroundings) (args : List String) (w : World) : Prop :=
  (∃ code w', start s args w = .ok (.ended code) w' ∧ (code = 0 ∨ code = 2)) ∨
    read grammar args = .version ∧ ∃ kind message w', s.network = .foreign kind message ∧
      start s args w = .error (.foreign kind message) w'

/-- Arguments of the language start their invocation. -/
theorem start_of_accepts (h : Accepts true grammar args path items) :
    start s args w = .ok (.invocation (invocationOf path items)) w := by
  have hread := (read_eq_accepted_iff grammar_orderly).mpr ⟨path, items, h, rfl⟩
  rw [start]
  rw [hread, ← invocation_findings]
  rfl

/-- Asking for help ends the program. -/
theorem ends_of_help {at? : List String} (h : read grammar args = .help at?) : Ends s args w := by
  refine .inl ⟨0, ?_⟩
  rw [start]
  rw [h]
  exact ⟨_, rfl, .inl rfl⟩

/-- Rejected arguments end the program. -/
theorem ends_of_rejected {at? : List String} {complaint : Complaint}
    (h : read grammar args = .rejected at? complaint) : Ends s args w := by
  refine .inl ⟨2, ?_⟩
  rw [start]
  rw [h]
  exact ⟨_, rfl, .inr rfl⟩

/-- A command line that asks for the version makes one request, and shows the version with what
news there are; a failure of another kind is passed on. -/
theorem start_of_version (h : read grammar args = .version) :
    start s args w = match newsIn s.settings.version s.network with
      | .ok latest =>
        .ok (.ended 0) { asked s w with
          stdout := w.stdout ++ (s!"{Gate.programName} version " ++
            Release.notice s.settings.version s.settings.buildDate latest
              s.environment.interpreter) }
      | .error e => .error e (asked s w) := by
  have hstart : start s args = (do
      let latest ← Release.news? (Release.current s) s.settings.version
      World.print .stdout (s!"{Gate.programName} version " ++
        Release.notice s.settings.version s.settings.buildDate latest s.environment.interpreter)
      return .ended 0) := by
    rw [start]
    rw [h]
    dsimp only
    rw [Release.report]
    simp only [bind_assoc, pure_bind]
  rw [hstart, Act.bind_apply, news?_current]
  cases newsIn s.settings.version s.network <;> rfl

/-- Asking for the version ends the program. -/
theorem ends_of_version (h : read grammar args = .version) : Ends s args w := by
  have hstart := start_of_version s w h
  rcases newsIn_cases s.settings.version s.network with
    ⟨latest, hnews⟩ | ⟨kind, message, hnetwork, hnews⟩
  · rw [hnews] at hstart
    exact .inl ⟨0, _, hstart, .inl rfl⟩
  · rw [hnews] at hstart
    exact .inr ⟨h, kind, message, _, hnetwork, hstart⟩

/-- Arguments that are not accepted end the program. -/
theorem ends_of_not_accepted (h : ∀ found, read grammar args ≠ .accepted found) :
    Ends s args w := by
  cases hread : read grammar args with
  | accepted found => exact absurd hread (h found)
  | help at? => exact ends_of_help s w hread
  | version => exact ends_of_version s w hread
  | rejected at? complaint => exact ends_of_rejected s w hread

/-- A program that ends on its arguments starts no invocation. -/
theorem Ends.ne_invocation (h : Ends s args w) (i : Invocation) :
    start s args w ≠ .ok (.invocation i) w := by
  rcases h with ⟨code, w', hend, -⟩ | ⟨-, kind, message, w', -, hend⟩ <;> rw [hend] <;> simp

/-- A command line is one of the program's, or ends. -/
theorem sentence_or_ends (args : List String) :
    (∃ path i, Sentence true args path i ∧ start s args w = .ok (.invocation i) w) ∨
      Ends s args w := by
  by_cases h : ∃ found, read grammar args = .accepted found
  · obtain ⟨found, hread⟩ := h
    obtain ⟨path, items, haccepts, -⟩ := (read_eq_accepted_iff grammar_orderly).mp hread
    exact .inl ⟨path, _, sentence_iff.mpr ⟨items, haccepts, rfl⟩, start_of_accepts s w haccepts⟩
  · exact .inr (ends_of_not_accepted s w fun found hread => h ⟨found, hread⟩)

/-- **The command lines of the program.** A command line is carried out, as the invocation and
under the names that it has as one of the program's command lines, values left blank
included; the ones without blanks have no argument that attaches two dashes; and any other
command line ends with exit code 0 or 2, unless the network fails in a way of its own when
the version is asked for. -/
theorem command_lines (s : Surroundings) (args : List String) (w : World) :
    (∀ path i, (start s args w = .ok (.invocation i) w ∧ i.task.names = path ∧
        i.commandPath = " ".intercalate ("rit" :: path)) ↔ Sentence true args path i) ∧
    (∀ path i, Sentence false args path i ↔
      Sentence true args path i ∧ ∀ arg ∈ args, ¬ AttachesDashes arg) ∧
    ((∃ path i, Sentence true args path i) ∨ Ends s args w) := by
  refine ⟨fun path i => ⟨?_, ?_⟩, fun path i => sentence_false_iff, ?_⟩
  · rintro ⟨hstart, rfl, -⟩
    rcases sentence_or_ends s w args with ⟨path, j, hsentence, hj⟩ | hends
    · obtain rfl : j = i := by simpa [hstart, eq_comm] using hj
      rwa [hsentence.names]
    · exact absurd hstart (hends.ne_invocation s w i)
  · intro h
    obtain ⟨items, haccepts, rfl⟩ := sentence_iff.mp h
    refine ⟨start_of_accepts s w haccepts, h.names, ?_⟩
    rw [Invocation.commandPath, h.names]
    rfl
  · exact (sentence_or_ends s w args).imp_left fun ⟨path, i, h, _⟩ => ⟨path, i, h⟩

/-- A mode that is left blank is let pass, although it is none of the words listed. -/
theorem not_sentence_of_blank_mode :
    (∀ s w, start s ["upgrade", "--mode=--"] w = .ok (.invocation ⟨.upgrade .blank, false⟩) w) ∧
      ¬ ∃ path i, Sentence false ["upgrade", "--mode=--"] path i := by
  constructor
  · intro s w
    rfl
  · rintro ⟨path, i, h⟩
    exact (sentence_false_iff.mp h).2 "--mode=--" (by simp) rfl

end Program

end CommandGate
