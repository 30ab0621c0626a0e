import CommandGate.Proofs.Program.Events

/-!
# How the Program Is Put Together

`Program.Basic` lists the basic steps of the program: printing, looking whether the
installation is initialized, making a directory, finding and setting the tutorial state,
sending a request, launching a program, and recording one of the events of the program. In
two surroundings that differ in their clocks and in the switch of telemetry only, the
program is put together in the same way from the same basic steps.

## Main results

* `Program.run_paired`: an invocation, in two such surroundings.
* `Program.body_paired`, `Program.leave_paired`, `Program.enter_paired`: its parts.
-/

namespace CommandGate

/-- The same surroundings with another environment and another clock. -/
def Surroundings.moved (s : Surroundings) (env : Environment) (clock : Binary64) :
    Surroundings :=
  { s with environment := env, clock := clock }

/-- Two environments that agree in all variables but one, and have the same interpreter. -/
structure Environment.AgreesBut (name : String) (env env' : Environment) : Prop where
  others : ∀ other, other ≠ name → env'.get? other = env.get? other
  interpreter : env'.interpreter = env.interpreter

theorem Environment.AgreesBut.refl {name : String} (env : Environment) : env.AgreesBut name env :=
  ⟨fun _ _ => rfl, rfl⟩

namespace Program

/-- The basic steps of the program, in two surroundings. The directories that are made and
the tutorial states that are set are among those given. -/
inductive Basic (s s' : Surroundings) (made : List Path) (settable : String → Prop) :
    ∀ {α : Type}, Act World α → Act World α → Prop where
  | print (stream : Stream) (t : Text) :
    Basic s s' made settable (World.print stream t) (World.print stream t)
  | present : Basic s s' made settable (Directory.present s.settings.commonsDir)
      (Directory.present s.settings.commonsDir)
  | create {p : Path} : p ∈ made →
    Basic s s' made settable (Directory.create p) (Directory.create p)
  | findTutorial : Basic s s' made settable (World.look (Tutorial.find s.settings.tutorialFile))
      (World.look (Tutorial.find s.settings.tutorialFile))
  | setTutorial {state : String} : settable state →
    Basic s s' made settable (World.change (Tutorial.set s.settings.tutorialFile state))
      (World.change (Tutorial.set s.settings.tutorialFile state))
  | send (r : Request) : Basic s s' made settable (World.send s r) (World.send s' r)
  | launch (command : List String) :
    Basic s s' made settable (World.launch s command) (World.launch s' command)
  | record {e : Telemetry.Event} : Records s e →
    Basic s s' made settable (Telemetry.record s e) (Telemetry.record s' e)

/-- Two steps that are put together in the same way from basic steps of the program. -/
abbrev Pair (s s' : Surroundings) (made : List Path) (settable : String → Prop) {α : Type}
    (a b : Act World α) : Prop :=
  Act.Paired (Basic s s' made settable) a b

/-- The task that arguments ask for, if they are accepted. -/
def taskOf? (args : List String) : Option Task :=
  match CommandLine.read grammar args with
  | .accepted found => some (.of found)
  | _ => none

/-- How arguments are answered that ask for no task. -/
def conclude (s : Surroundings) : CommandLine.Reading → Act World Int
  | .accepted _ => return 0
  | .help path => do
    World.print .stdout (helpOf s.environment path)
    return 0
  | .version => do
    let text ← Release.report (Release.current s) s.settings.version s.settings.buildDate
      s.environment.interpreter
    World.print .stdout (s!"{Gate.programName} version " ++ text)
    return 0
  | .rejected path complaint => do
    World.print .stderr (usageOf s.environment path ++ "\n" ++ Gate.commandPath path
      ++ ": error: " ++ complaint.message ++ "\n")
    return 2

/-- An invocation completes words, or carries out a task, or answers its arguments. -/
theorem run_eq (s : Surroundings) (args : List String) :
    run s args =
      if args.head? = some Gate.completionMarker then
        runCommand s (Gate.commandPath [Gate.completionMarker]) (complete args.tail)
      else match taskOf? args with
        | some task => runCommand s (Gate.commandPath task.names) (body s task)
        | none => conclude s (CommandLine.read grammar args) := by
  have asArguments (next : Start → Act World Int) (hended : ∀ code, next (.ended code) = pure code)
      (hinvocation : ∀ i, next (.invocation i) = runCommand s i.commandPath (body s i.task)) :
      start s args >>= next =
        match taskOf? args with
        | some task => runCommand s (Gate.commandPath task.names) (body s task)
        | none => conclude s (CommandLine.read grammar args) := by
    rw [start, taskOf?]
    cases CommandLine.read grammar args with
    | accepted found =>
        rw [pure_bind, hinvocation]
        rfl
    | _ => simp only [conclude, bind_assoc, pure_bind, hended]
  simp only [run]
  cases args with
  | nil => exact asArguments _ (fun _ => rfl) fun _ => rfl
  | cons first words =>
      simp only [List.head?_cons, Option.some.injEq, List.tail_cons]
      split
      · rfl
      · exact asArguments _ (fun _ => rfl) fun _ => rfl

/-- The word that asks for candidates is no command, and a command line that begins with it is
rejected. -/
theorem read_completion (words : List String) :
    ∃ commands complaint, CommandLine.read grammar (Gate.completionMarker :: words) =
      .rejected commands complaint := by
  have hwalk : CommandLine.walk grammar {} (Gate.completionMarker :: words) =
      .rejected [] (.notAmong "<command>" Gate.completionMarker grammar.childNames) := by
    rw [CommandLine.walk]
    rfl
  rw [CommandLine.read]
  cases CommandLine.firstAmbiguous grammar.options (Gate.completionMarker :: words) with
  | some complaint => exact ⟨[], complaint, rfl⟩
  | none =>
      dsimp only
      rw [hwalk]
      exact ⟨_, _, rfl⟩

/-- It asks for no task. -/
theorem taskOf?_completion (words : List String) :
    taskOf? (Gate.completionMarker :: words) = none := by
  obtain ⟨commands, complaint, hread⟩ := read_completion words
  rw [taskOf?, hread]

/-- An invocation that asks for a task carries it out. -/
theorem run_of_task {s : Surroundings} {args : List String} {task : Task}
    (h : taskOf? args = some task) :
    run s args = runCommand s (Gate.commandPath task.names) (body s task) := by
  rw [run_eq, if_neg, h]
  intro hm
  cases args with
  | nil => simp at hm
  | cons first words =>
      obtain rfl : first = Gate.completionMarker := by simpa using hm
      rw [taskOf?_completion] at h
      exact absurd h (by simp)

/-! ### Steps that catch faults, in a plain form -/

/-- What comes before a command once the home directory is there. -/
def admission (s : Surroundings) (path : String) : Act World Gate.Decision := do
  if Gate.isListed Gate.openPaths path || Gate.isCompletion path then
    return .proceed
  else if ← Directory.present s.settings.commonsDir then
    return .proceed
  else
    Telemetry.record s (Lifecycle.commandEvent "lifecycle.blocked" path [])
    return .earlyExit Gate.initMessage 0

/-- How a decision of the gate is carried out. -/
def answer : Gate.Decision → Act World (Option Int)
  | .proceed => return none
  | .earlyExit message exitCode => do
    World.printLine .stdout message
    return some exitCode

/-- A directory that cannot be made is reported, and the command ends with 1. -/
def reportDirectory : Fault → Act World (Option Int)
  | .directory fault => do
    reportFailure fault.message
    return some 1
  | fault => throw fault

/-- A tutorial state that cannot be found out is reported, and the command ends with 1. -/
def reportTutorial : Fault → Act World Int
  | .tutorial fault => do
    reportFailure fault.message
    return 1
  | fault => throw fault

/-- A published version that cannot be found out is no news. -/
def noNews {σ : Type} : Fault → Act σ (Option String)
  | .release _ => pure none
  | fault => throw fault

section Forms

variable (s : Surroundings) (path : String)

/-- The look for news, with its handler named. -/
theorem news?_eq {σ : Type} (published : Act σ String) (running : String) :
    Release.news? published running =
      tryCatch (do
        let version ← published
        pure (if version = running then none else some version))
        noNews := by
  rw [Release.news?]
  funext w
  simp only [Act.tryCatch_apply, Act.bind_apply]
  cases published w with
  | ok v w' => rfl
  | error f w' => cases f <;> rfl

/-- A failure to make the home directory is recorded and passed on. -/
def noteDirectory : Fault → Act World Unit
  | .directory fault => do
    Telemetry.record s (Lifecycle.commandEvent "lifecycle.directory_failed" path
      [("home", .string s.settings.homeDir.toString), ("error", .string fault.message)])
    throw (.directory fault)
  | fault => throw fault

/-- Making the home directory, with its handler named. -/
theorem makeHome_eq :
    Lifecycle.makeHome (collaborators s .stdout) s.settings path =
      tryCatch (Directory.create s.settings.homeDir) (noteDirectory s path) :=
  rfl

/-- The gate: the home directory is made, the command is admitted or not, and the decision is
carried out. -/
theorem enter_eq :
    enter s path =
      tryCatch (do
        Lifecycle.makeHome (collaborators s .stdout) s.settings path
        answer (← admission s path))
        reportDirectory := by
  rw [enter]
  funext w
  have hpre : Lifecycle.preRun (collaborators s .stdout) s.settings path = (do
      Lifecycle.makeHome (collaborators s .stdout) s.settings path
      admission s path) := rfl
  rw [hpre]
  simp only [Act.tryCatch_apply, Act.bind_apply]
  cases Lifecycle.makeHome (collaborators s .stdout) s.settings path w with
  | error f w' => cases f <;> rfl
  | ok u w' =>
      dsimp only
      cases admission s path w' with
      | ok d w'' => cases d <;> rfl
      | error f w'' => cases f <;> rfl

/-- Leaving a command, with its handler named. -/
theorem leave_eq (exitCode : Int) :
    leave s path exitCode =
      tryCatch (do
        Lifecycle.postRun
          (collaborators s (if Gate.isCompletion path then .stderr else .stdout)) s.settings path
        pure exitCode)
        reportTutorial := by
  rw [leave]
  funext w
  simp only [Act.tryCatch_apply, Act.bind_apply]
  cases Lifecycle.postRun (collaborators s (if Gate.isCompletion path then .stderr else .stdout))
      s.settings path w with
  | ok u w' => rfl
  | error f w' => cases f <;> rfl

/-- Showing the tutorial, with its handler named. -/
theorem showTutorial_eq :
    showTutorial s =
      tryCatch (do
        let tutorial ← World.look (Tutorial.find s.settings.tutorialFile)
        World.printLine .stdout ("Current tutorial status: " ++ tutorial.current)
        pure 0)
        reportTutorial := by
  rw [showTutorial]
  funext w
  simp only [Act.tryCatch_apply, Act.bind_apply]
  cases World.look (Tutorial.find s.settings.tutorialFile) w with
  | ok t w' => rfl
  | error f w' => cases f <;> rfl

/-- What setting up prints in the end. -/
def setUpLine (already : Bool) : String :=
  if already then
    s!"{Gate.programName} is already initialized at {s.settings.homeDir.toString}"
  else s!"Initialization successful! {Gate.programName} home: {s.settings.homeDir.toString}"

/-- Setting up, with its handler written out. -/
theorem setUp_eq :
    setUp s = (do
      let already ← Directory.present s.settings.commonsDir
      let failure ←
        tryCatch (do
          Directory.create s.settings.commonsDir
          pure none)
          fun e => match e with
            | .directory fault => pure (some fault)
            | fault => throw fault
      match failure with
      | some fault => do
        reportFailure fault.message
        Telemetry.record s
          (event "init" [("status", .string "failed"), ("error", .string fault.message)] .error)
        pure 1
      | none => do
        Telemetry.record s
          (event "init" [("status", .string "ok"), ("already_initialized", .bool already)] .info)
        World.printLine .stdout (setUpLine s already)
        pure 0) := by
  rw [setUp]
  funext w
  simp only [Act.tryCatch_apply, Act.bind_apply]
  cases Directory.present s.settings.commonsDir w with
  | error f w' => rfl
  | ok already w' =>
      dsimp only
      cases Directory.create s.settings.commonsDir w' with
      | ok d w'' => cases already <;> rfl
      | error f w'' =>
          cases f with
          | directory fault =>
              change _ = (reportFailure fault.message >>= fun _ => _) w''
              simp only [Act.bind_apply]
              cases reportFailure fault.message w'' with
              | error f w₃ => rfl
              | ok u w₃ =>
                  dsimp only
                  cases Telemetry.record s (event "init"
                    [("status", .string "failed"), ("error", .string fault.message)] .error) w₃ <;>
                    rfl
          | _ => rfl

end Forms

/-! ### The program in two surroundings -/

section Paired

variable {s : Surroundings} {env : Environment} {clock : Binary64} {made : List Path}
variable {settable : String → Prop} {path : String}

theorem printLine_paired {s' : Surroundings} (stream : Stream) (t : Text) :
    Pair s s' made settable (World.printLine stream t) (World.printLine stream t) :=
  .basic (.print stream (t ++ "\n"))

theorem reportFailure_paired {s' : Surroundings} (message : Text) :
    Pair s s' made settable (reportFailure message) (reportFailure message) :=
  printLine_paired _ _

/-- The published version is asked for by paired steps. -/
theorem current_paired :
    Pair s (s.moved env clock) made settable (Release.current s)
      (Release.current (s.moved env clock)) := by
  rw [Release.current, Release.lookUp]
  refine .bind (.basic (.send _)) fun answer => ?_
  split
  · exact .pure _
  · exact .throw _

/-- Looks for news are paired if those for the version are. -/
theorem news?_paired {s' : Surroundings} {published published' : Act World String}
    (h : Pair s s' made settable published published') (running : String) :
    Pair s s' made settable (Release.news? published running)
      (Release.news? published' running) := by
  rw [news?_eq, news?_eq]
  refine .tryCatch (.bind h fun version => .pure _) fun e => ?_
  simp only [noNews]
  split
  · exact .pure _
  · exact .throw _

/-- Texts are laid out alike where the width of the terminal is the same. -/
theorem helpWidth_eq (henv : s.environment.AgreesBut Telemetry.switchName env) :
    helpWidth env = helpWidth s.environment := by
  have hcolumns : env.get? "COLUMNS" = s.environment.get? "COLUMNS" :=
    henv.others _ (by decide)
  rw [helpWidth, terminalColumns, hcolumns, helpWidth, terminalColumns]

/-- The help does not depend on the switch for recording. -/
theorem helpOf_eq (henv : s.environment.AgreesBut Telemetry.switchName env)
    (commands : List String) : helpOf env commands = helpOf s.environment commands := by
  rw [helpOf, helpWidth_eq henv, helpOf]

/-- The usage does not depend on the switch for recording. -/
theorem usageOf_eq (henv : s.environment.AgreesBut Telemetry.switchName env)
    (commands : List String) : usageOf env commands = usageOf s.environment commands := by
  rw [usageOf, helpWidth_eq henv, usageOf]

/-- A reading is concluded by paired steps. -/
theorem conclude_paired (henv : s.environment.AgreesBut Telemetry.switchName env)
    (reading : CommandLine.Reading) :
    Pair s (s.moved env clock) made settable (conclude s reading)
      (conclude (s.moved env clock) reading) := by
  cases reading with
  | accepted found => exact .pure _
  | help commands =>
      change Pair s _ made settable _ (World.print .stdout (helpOf env commands) >>= _)
      rw [helpOf_eq henv]
      exact .bind (.basic (.print _ _)) fun _ => .pure _
  | version =>
      change Pair s _ made settable _ (Release.report (Release.current (s.moved env clock))
        s.settings.version s.settings.buildDate env.interpreter >>= _)
      rw [henv.interpreter]
      refine .bind (.bind (news?_paired current_paired _) fun latest => .pure _) fun text => ?_
      exact .bind (.basic (.print _ _)) fun _ => .pure _
  | rejected commands complaint =>
      change Pair s _ made settable _
        (World.print .stderr (usageOf env commands ++ _ ++ _ ++ _ ++ _ ++ _) >>= _)
      rw [usageOf_eq henv]
      exact .bind (.basic (.print _ _)) fun _ => .pure _

/-! ### The lifecycle -/

/-- Commands are admitted by paired steps. -/
theorem admission_paired :
    Pair s (s.moved env clock) made settable (admission s path)
      (admission (s.moved env clock) path) := by
  simp only [admission]
  split
  · exact .pure _
  · refine .bind (.basic .present) fun initialized => ?_
    split
    · exact .pure _
    · exact .bind (.basic (.record (.blocked path))) fun _ => .pure _

theorem answer_paired {s' : Surroundings} (d : Gate.Decision) :
    Pair s s' made settable (answer d) (answer d) := by
  cases d with
  | proceed => exact .pure _
  | earlyExit message exitCode => exact .bind (printLine_paired _ _) fun _ => .pure _

/-- A directory that cannot be made is reported by the same step in all surroundings. -/
theorem reportDirectory_paired {s' : Surroundings} (fault : Fault) :
    Pair s s' made settable (reportDirectory fault) (reportDirectory fault) := by
  simp only [reportDirectory]
  split
  · exact .bind (reportFailure_paired _) fun _ => .pure _
  · exact .throw _

/-- So is a tutorial state that cannot be found out. -/
theorem reportTutorial_paired {s' : Surroundings} (fault : Fault) :
    Pair s s' made settable (reportTutorial fault) (reportTutorial fault) := by
  simp only [reportTutorial]
  split
  · exact .bind (reportFailure_paired _) fun _ => .pure _
  · exact .throw _

/-- The home directory is made by paired steps. -/
theorem makeHome_paired (hh : s.settings.homeDir ∈ made) :
    Pair s (s.moved env clock) made settable
      (Lifecycle.makeHome (collaborators s .stdout) s.settings path)
      (Lifecycle.makeHome (collaborators (s.moved env clock) .stdout)
        (s.moved env clock).settings path) := by
  rw [makeHome_eq, makeHome_eq]
  refine .tryCatch (.basic (.create hh)) fun e => ?_
  simp only [noteDirectory]
  split
  · exact .bind (.basic (.record (.directoryFailed path _))) fun _ => .throw _
  · exact .throw _

/-- Commands are entered by paired steps. -/
theorem enter_paired (hh : s.settings.homeDir ∈ made) :
    Pair s (s.moved env clock) made settable (enter s path) (enter (s.moved env clock) path) := by
  rw [enter_eq, enter_eq]
  exact .tryCatch (.bind (makeHome_paired hh) fun _ => .bind admission_paired answer_paired)
    reportDirectory_paired

/-- Versions are looked for by paired steps, if the interpreter is the same. -/
theorem verifyNewVersion_paired (hi : env.interpreter = s.environment.interpreter)
    (stream : Stream) :
    Pair s (s.moved env clock) made settable
      (Lifecycle.verifyNewVersion (collaborators s stream) s.settings path)
      (Lifecycle.verifyNewVersion (collaborators (s.moved env clock) stream) s.settings path) := by
  have hinterpreter : (collaborators (s.moved env clock) stream).interpreter =
      (collaborators s stream).interpreter := hi
  simp only [Lifecycle.verifyNewVersion, hinterpreter]
  split
  · refine .bind (news?_paired current_paired _) fun latest => ?_
    refine .bind (.basic (.record (.versionChecked latest))) fun _ => ?_
    cases latest with
    | none => exact .pure _
    | some v => exact .basic (.print _ _)
  · exact .pure _

/-- The state of the tutorial is found by paired steps. -/
theorem findTutorial_paired (stream : Stream) :
    Pair s (s.moved env clock) made settable
      (Lifecycle.findTutorial (collaborators s stream) path)
      (Lifecycle.findTutorial (collaborators (s.moved env clock) stream) path) := by
  rw [Lifecycle.findTutorial]
  refine .tryCatch (.basic .findTutorial) fun e => ?_
  split
  · exact .bind (.basic (.record (.tutorialFailed path _))) fun _ => .throw _
  · exact .throw _

/-- Commands are left by paired steps, if the interpreter is the same. -/
theorem leave_paired (hi : env.interpreter = s.environment.interpreter) (exitCode : Int) :
    Pair s (s.moved env clock) made settable (leave s path exitCode)
      (leave (s.moved env clock) path exitCode) := by
  rw [leave_eq, leave_eq]
  refine .tryCatch (.bind ?_ fun _ => .pure _) reportTutorial_paired
  refine .bind (verifyNewVersion_paired hi _) fun _ => ?_
  refine .bind (.basic .present) fun initialized => ?_
  split
  · exact .bind (findTutorial_paired _) fun tutorial => .basic (.print _ _)
  · exact .pure _

/-! ### The bodies of the tasks -/

/-- The installation is set up by paired steps. -/
theorem setUp_paired (hc : s.settings.commonsDir ∈ made) :
    Pair s (s.moved env clock) made settable (setUp s) (setUp (s.moved env clock)) := by
  rw [setUp_eq, setUp_eq]
  refine .bind (.basic .present) fun already => ?_
  refine .bind (.tryCatch (.bind (.basic (.create hc)) fun _ => .pure _) fun e => ?_)
    fun failure => ?_
  · split
    · exact .pure _
    · exact .throw _
  · split
    · refine .bind (reportFailure_paired _) fun _ => ?_
      exact .bind (.basic (.record (.initFailed _))) fun _ => .pure _
    · refine .bind (.basic (.record (.initDone already))) fun _ => ?_
      exact .bind (printLine_paired _ _) fun _ => .pure _

/-- What a launch comes to is known beforehand. -/
theorem launch_bind {α : Type} (s : Surroundings) (command : List String)
    (f : LaunchOutcome → Act World α) :
    World.launch s command >>= f = World.launch s command >>= fun _ => f s.launch :=
  rfl

/-- The commands of an upgrade are the same where the interpreter is. -/
theorem upgradeCommand_eq (hi : env.interpreter = s.environment.interpreter)
    (mode : UpgradeMode) :
    upgradeCommand (s.moved env clock).environment mode = upgradeCommand s.environment mode := by
  change upgradeCommand env mode = _
  rw [upgradeCommand, hi, upgradeCommand]

/-- Upgrades are made by paired steps, if the interpreter is the same. -/
theorem upgrade_paired (hi : env.interpreter = s.environment.interpreter) (mode : UpgradeMode) :
    Pair s (s.moved env clock) made settable (upgrade s mode)
      (upgrade (s.moved env clock) mode) := by
  simp only [upgrade, upgradeCommand_eq hi]
  split
  · refine .bind (printLine_paired _ _) fun _ => ?_
    exact .bind (.basic (.record (.upgradeShown mode))) fun _ => .pure _
  · rw [launch_bind s, launch_bind (s.moved env clock)]
    refine .bind (.basic (.launch _)) fun _ => ?_
    have hlaunch : (s.moved env clock).launch = s.launch := rfl
    rw [hlaunch]
    cases hl : s.launch with
    | ended code =>
        exact .bind (.basic (.record (.upgradeEnded mode code hl))) fun _ => .pure _
    | notStarted errno reason =>
        refine .bind (reportFailure_paired _) fun _ => ?_
        exact .bind (.basic (.record (.upgradeNotStarted mode errno reason _))) fun _ => .pure _

theorem showTutorial_paired :
    Pair s (s.moved env clock) made settable (showTutorial s)
      (showTutorial (s.moved env clock)) := by
  rw [showTutorial_eq, showTutorial_eq]
  refine .tryCatch (.bind (.basic .findTutorial) fun tutorial => ?_) reportTutorial_paired
  exact .bind (printLine_paired _ _) fun _ => .pure _

theorem setTutorial_paired {state : Option String} (hset : ∀ t ∈ state, settable t) :
    Pair s (s.moved env clock) made settable (setTutorial s state)
      (setTutorial (s.moved env clock) state) := by
  cases state with
  | none => exact .throw _
  | some state =>
      refine .bind (.basic (.setTutorial (hset state rfl))) fun _ => ?_
      refine .bind (.basic (.record (.tutorialSet state))) fun _ => ?_
      exact .bind (printLine_paired _ _) fun _ => .pure _

/-- Every task is carried out by paired steps. -/
theorem body_paired (henv : s.environment.AgreesBut Telemetry.switchName env) (task : Task)
    (hinit : task = .init → s.settings.commonsDir ∈ made)
    (hset : ∀ state, task = .setTutorial (some state) → settable state) :
    Pair s (s.moved env clock) made settable (body s task) (body (s.moved env clock) task) := by
  have hhelp : helpOf env [] = helpOf s.environment [] := helpOf_eq henv []
  have overview : Pair s (s.moved env clock) made settable
      (body s .overview) (body (s.moved env clock) .overview) := by
    change Pair s _ made settable _ (World.print .stdout (helpOf env []) >>= _)
    rw [hhelp]
    exact .bind (.basic (.print _ _)) fun _ => .pure _
  cases task with
  | overview => exact overview
  | help => exact overview
  | init => exact setUp_paired (hinit rfl)
  | upgrade mode => exact upgrade_paired henv.interpreter mode
  | showTutorial => exact showTutorial_paired
  | setTutorial state =>
      refine setTutorial_paired fun t ht => hset t ?_
      rw [Option.mem_def.mp ht]
  | completionScript shell => exact .bind (.basic (.print _ _)) fun _ => .pure _

/-- Words are completed by the same step in all surroundings. -/
theorem complete_paired {s' : Surroundings} (words : List String) :
    Pair s s' made settable (complete words) (complete words) :=
  .bind (.basic (.print _ _)) fun _ => .pure _

/-! ### Invocations -/

/-- A command in its lifecycle is made of paired steps if the command is. -/
theorem runCommand_paired (hi : env.interpreter = s.environment.interpreter)
    (hh : s.settings.homeDir ∈ made) {command command' : Act World Int}
    (hc : Pair s (s.moved env clock) made settable command command') :
    Pair s (s.moved env clock) made settable (runCommand s path command)
      (runCommand (s.moved env clock) path command') := by
  rw [runCommand]
  refine .bind (enter_paired hh) fun ended => ?_
  cases ended with
  | some exitCode => exact .pure _
  | none => exact .bind hc fun exitCode => leave_paired hi exitCode

/-- **An invocation**, in two surroundings that differ in the clock and in the switch of
telemetry: it is put together in the same way. -/
theorem run_paired (henv : s.environment.AgreesBut Telemetry.switchName env)
    (hh : s.settings.homeDir ∈ made) (args : List String)
    (hinit : taskOf? args = some .init → s.settings.commonsDir ∈ made)
    (hset : ∀ state, taskOf? args = some (.setTutorial (some state)) → settable state) :
    Pair s (s.moved env clock) made settable (run s args) (run (s.moved env clock) args) := by
  rw [run_eq, run_eq]
  split
  · exact runCommand_paired henv.interpreter hh (complete_paired _)
  · cases ht : taskOf? args with
    | none => exact conclude_paired henv _
    | some task =>
        exact runCommand_paired henv.interpreter hh
          (body_paired henv task (fun h => hinit (by rw [ht, h]))
            fun state h => hset state (by rw [ht, h]))

end Paired

end Program

end CommandGate
