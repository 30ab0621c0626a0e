import CommandGate.Proofs.Program.Course
import CommandGate.Proofs.Session.Invocations

/-!
# The Law of the Lifecycle

What an invocation carries out, it carries out as a command under its path, and in workable
surroundings it comes to what the course of that command says. In all other surroundings
there is an invocation that ends with a fault where its course has an exit code: to show the
tutorial state, in an empty tree.

## Main results

* `Program.enter_of_not_workable`: how the gate fails in other surroundings.
* `Program.lifecycle_law`: when an invocation comes to what the course of its command says.
-/

namespace CommandGate

open FileTree

namespace Program

/-! ### Where a path keeps commands from their course -/

section Failing

variable {s : Surroundings} {path : String} {t : FileTree}

/-- Making the home directory in an empty tree does not initialize the installation. -/
theorem not_initialized_of_makeHome (hs : s.settings.Apart) {r : Except FileFault Unit}
    (hhome : makeFolders [] s.settings.homeDir = (t, r)) : ¬ Initialized s.settings t := by
  have hlook := hs.look_makeHome []
  rw [hhome] at hlook
  rw [hs.initialized_congr hlook, Initialized, present_eq_true_iff hs.commonsDir_plain,
    look_empty (by simp [Settings.commonsDir, Path.join])]
  simp

/-- A log directory with a NUL in its path is a fault where telemetry is on. -/
theorem record_of_hasNul (hon : Telemetry.enabled s.environment = true)
    (hn : s.settings.logDir.hasNul = true) {e : Telemetry.Event} (he : e.Sound) (w : World) :
    Telemetry.record s e w = .error (.file .embeddedNul) w := by
  obtain ⟨line, -, hrecord⟩ := Telemetry.record_apply (s := s) he
  rw [hrecord, if_pos hon, World.change_apply, Telemetry.appendLine, s.settings.logFile_parent,
    makeFolders_of_hasNul hn]

/-- There, a home directory that the file system refuses is a fault, too. -/
theorem enter_of_refused_of_hasNul (hon : Telemetry.enabled s.environment = true)
    (hn : s.settings.logDir.hasNul = true) {w : World} {errno : Errno} {q : Path}
    (h : w.tree.makeFolders s.settings.homeDir = (t, .error (.refused errno q))) :
    enter s path w = .error (.file .embeddedNul) { w with tree := t } := by
  let fault : DirectoryFault := .notCreated s.settings.homeDir errno
  have hrecord := record_of_hasNul hon hn (Records.directoryFailed (s := s) path fault).sound
    { w with tree := t }
  rw [enter_eq, Act.tryCatch_apply, Act.bind_apply, makeHome_of_refused h, hrecord]
  rfl

/-- What keeps commands from their course, if nothing about the home directory does. -/
theorem log_of_not_workable (hw : ¬ s.Workable) (hn : s.settings.homeDir.hasNul = false)
    (hf : s.settings.homeDir.Nameable → s.settings.commonsDir.Fits) :
    Telemetry.enabled s.environment = true ∧ s.settings.logDir.hasNul = true := by
  by_contra hc
  refine hw ⟨hn, hf, fun hon => ?_⟩
  simpa using mt (And.intro hon) hc

/-- **In other surroundings** the gate fails before a command that needs an initialized
installation, if the tree is empty. -/
theorem enter_of_not_workable (hs : s.settings.Apart) (hw : ¬ s.Workable)
    (hclosed : (Gate.isListed Gate.openPaths path || Gate.isCompletion path) = false) :
    ∃ f w', enter s path { tree := [] } = .error f w' := by
  rcases hhome : makeFolders [] s.settings.homeDir with ⟨t, f | ⟨⟩⟩
  · cases f with
    | embeddedNul => exact ⟨_, _, enter_of_hasNul (w := { tree := [] }) hhome⟩
    | refused errno q =>
        obtain ⟨hnul, hname⟩ := not_nameable_of_refused hs.home hhome
        obtain ⟨hon, hlog⟩ := log_of_not_workable hw hnul fun h => absurd h hname
        exact ⟨_, _, enter_of_refused_of_hasNul (w := { tree := [] }) hon hlog hhome⟩
  · have hi := not_initialized_of_makeHome hs hhome
    obtain ⟨hfits, hpass⟩ := fits_passable_of_makeFolders_eq_ok hs.home hhome
    by_cases hf : s.settings.commonsDir.Fits
    · obtain ⟨hon, hlog⟩ := log_of_not_workable hw hfits.1 fun _ => hf
      have hrecord := record_of_hasNul hon hlog (Records.blocked (s := s) path).sound
        { tree := t }
      have hpresent := present_eq_false hs (Settings.nameable_commonsDir hf hpass) hi
      refine ⟨.file .embeddedNul, { tree := t }, ?_⟩
      rw [enter_of_absent (w := { tree := [] }) hhome hclosed hpresent, hrecord]
      rfl
    · have hpresent := present_commonsDir_of_not_fits hfits.1 hf t
      exact ⟨_, _, enter_of_unknown (w := { tree := [] }) hhome hclosed hpresent⟩

/-- A command that does not pass comes to an exit code in its course. -/
theorem Course.exists_code {find : Act World Tutorial} {command : Act World Int} {w : World}
    {r : Result Int} (h : Course s path find command w r)
    (hpass : ∀ t, w.tree.makeFolders s.settings.homeDir = (t, .ok ()) → ¬ Passes s path t) :
    ∃ code w', r = .ok code w' := by
  cases h with
  | refused => exact ⟨_, _, rfl⟩
  | blocked => exact ⟨_, _, rfl⟩
  | bodyFails hhome hpass' => exact absurd hpass' (hpass _ hhome)
  | bodyEnds hhome hpass' => exact absurd hpass' (hpass _ hhome)

end Failing

/-! ### Invocations -/

/-- **What arguments make the program carry out**, under which command path: the task that
they ask for, or completing the words after the word for that. -/
inductive CarriesOut (s : Surroundings) : List String → String → Act World Int → Prop
  | task {args : List String} {task : Task} (h : taskOf? args = some task) :
    CarriesOut s args (Gate.commandPath task.names) (body s task)
  | completion (words : List String) :
    CarriesOut s (Gate.completionMarker :: words) (Gate.commandPath [Gate.completionMarker])
      (complete words)

section Invocations

variable {s : Surroundings} {args : List String} {path : String} {command : Act World Int}

/-- No task is under a path of completion. -/
theorem isCompletion_names (task : Task) :
    Gate.isCompletion (Gate.commandPath task.names) = false := by
  have plain : ∀ names ∈ [[], ["help"], ["init"], ["upgrade"], ["tutorial"]],
      Gate.isCompletion (Gate.commandPath names) = false := by decide
  cases task with
  | completionScript shell => cases shell <;> decide
  | _ => exact plain _ (by simp [Task.names])

/-- The path of a command is one of completion exactly if its first argument asks for that. -/
theorem CarriesOut.isCompletion_iff (h : CarriesOut s args path command) :
    Gate.isCompletion path = true ↔ args.head? = some Gate.completionMarker := by
  cases h with
  | completion words => exact ⟨fun _ => rfl, fun _ => by decide⟩
  | task h =>
      rename_i task
      rw [isCompletion_names]
      refine ⟨fun hc => absurd hc (by simp), fun hm => ?_⟩
      cases args with
      | nil => simp at hm
      | cons first words =>
          obtain rfl : first = Gate.completionMarker := by simpa using hm
          rw [taskOf?_completion] at h
          exact absurd h (by simp)

/-- What arguments make the program carry out, it runs under their path. -/
theorem CarriesOut.run_eq (h : CarriesOut s args path command) :
    run s args = runCommand s path command := by
  cases h with
  | task h => exact run_of_task h
  | completion words =>
      rw [Program.run_eq, List.head?_cons, if_pos rfl, List.tail_cons]

end Invocations

/-- **The law of the lifecycle.** An invocation that carries something out is a command under
its path, which is part of completing a command line exactly if the first argument says so.
In workable surroundings a command comes to what its course says, whatever its body is and
however the tutorial state is found. In other surroundings some invocation does not come to
that. -/
theorem lifecycle_law (s : Surroundings) (hs : s.settings.Apart) :
    (∀ args path command, CarriesOut s args path command →
      (Gate.isCompletion path = true ↔ args.head? = some Gate.completionMarker) ∧
      run s args =
        carryOut s path (World.look (Tutorial.find s.settings.tutorialFile)) command) ∧
    (s.Workable → ∀ path find command w r,
      Course s path find command w r ↔ carryOut s path find command w = r) ∧
    (¬ s.Workable → ∃ args path command w, CarriesOut s args path command ∧
      ¬ Course s path (World.look (Tutorial.find s.settings.tutorialFile)) command w
        (run s args w)) := by
  refine ⟨fun args path command h => ⟨h.isCompletion_iff, ?_⟩,
    fun hw path find command w r => course_iff path find hs hw command w r, fun hw => ?_⟩
  · rw [h.run_eq, runCommand_eq]
  · -- showing the tutorial state needs an initialized installation
    have htask : taskOf? ["tutorial"] = some .showTutorial := rfl
    have hclosed : (Gate.isListed Gate.openPaths (Gate.commandPath Task.showTutorial.names) ||
        Gate.isCompletion (Gate.commandPath Task.showTutorial.names)) = false := by decide
    refine ⟨["tutorial"], _, _, { tree := [] }, .task htask, fun hcourse => ?_⟩
    obtain ⟨f, w', henter⟩ := enter_of_not_workable hs hw hclosed
    rw [run_of_task htask, runCommand_of_error henter] at hcourse
    obtain ⟨code, w'', hcode⟩ := hcourse.exists_code fun t hhome => by
      rw [Bool.or_eq_false_iff] at hclosed
      rw [Passes, hclosed.1, hclosed.2]
      simpa using not_initialized_of_makeHome hs hhome
    cases hcode

open Session in
/-- The course of the bare command in an empty tree. -/
theorem lifecycle_law_home :
    atHome.settings.Apart ∧ atHome.Workable ∧
      Course atHome Gate.programName (World.look (Tutorial.find atHome.settings.tutorialFile))
        (body atHome .overview) { tree := [] } (run atHome [] { tree := [] }) := by
  have hs : atHome.settings.Apart := ⟨by decide, by decide, by decide⟩
  have hw : atHome.Workable := ⟨by decide, fun _ => by decide, fun _ => by decide⟩
  obtain ⟨hcommand, hcourse, -⟩ := lifecycle_law atHome hs
  refine ⟨hs, hw, ?_⟩
  rw [(hcommand [] _ _ (.task rfl)).2]
  exact (hcourse hw _ _ _ _ _).mpr rfl

open Session in
/-- A home directory with a NUL in its path cannot be made, and asking for help does not come to
what its course says. -/
theorem not_course_of_nul :
    (quietAt ⟨.relative, ["a\x00b"]⟩).settings.Apart ∧
      CarriesOut (quietAt ⟨.relative, ["a\x00b"]⟩) ["help"] (Gate.commandPath ["help"])
        (body (quietAt ⟨.relative, ["a\x00b"]⟩) .help) ∧
      ∀ find, ¬ Course (quietAt ⟨.relative, ["a\x00b"]⟩) (Gate.commandPath ["help"]) find
        (body (quietAt ⟨.relative, ["a\x00b"]⟩) .help) { tree := [] }
        (run (quietAt ⟨.relative, ["a\x00b"]⟩) ["help"] { tree := [] }) := by
  have htask : taskOf? ["help"] = some .help := rfl
  refine ⟨⟨by decide, by decide, by decide⟩, .task htask, fun find hcourse => ?_⟩
  have hmake : makeFolders [] (quietAt ⟨.relative, ["a\x00b"]⟩).settings.homeDir =
      ([], .error .embeddedNul) := makeFolders_of_hasNul (by decide)
  have hrun : run (quietAt ⟨.relative, ["a\x00b"]⟩) ["help"] { tree := [] } =
      .error (.file .embeddedNul) { tree := [] } := rfl
  rw [hrun] at hcourse
  obtain ⟨code, w', hcode⟩ := hcourse.exists_code fun t hhome => by
    rw [hmake] at hhome
    cases hhome
  cases hcode

end Program

end CommandGate
