import CommandGate.Proofs.Program.Initialization
import CommandGate.Proofs.Session.Invocations
import Mathlib.Data.List.Induction

/-!
# Initialization over Whole Sessions

In a session of invocations the installation is initialized from the first invocation on
that sets it up, and no other invocation initializes it. Before that point an invocation
that concerns the tutorial is answered by the gate; from that point on the gate lets every
command pass.

## Main results

* `Session.initialized_treeAfter_iff`: when an installation is initialized.
* `Session.initialization_gate`: the gate before and after that point.
-/

namespace CommandGate

open FileTree Program

namespace Session

/-- An invocation that sets up the installation: it asks for that and ends with 0. -/
def SetsUp (settings : Settings) (t : FileTree) (o : Occasion) (args : List String) : Prop :=
  taskOf? args = some .init ∧ (perform settings t o (.invoke args)).outcome = .ok (.exit 0)

/-- The two ends announced for a command that needs an initialized installation: a message
and 0, or 1 where the home directory cannot be made. -/
def EndsAsAnnounced (settings : Settings) (t : FileTree) (report : Report) : Prop :=
  report.outcome = .ok (.exit 0) ∧
      report.world.stdout = Text.ofString Gate.initMessage ++ Text.ofString "\n" ∨
    report.outcome = .ok (.exit 1) ∧ ∃ f, (t.makeFolders settings.homeDir).2 = .error f

variable {settings : Settings} {t : FileTree} {o : Occasion} {args : List String}

/-! ### One invocation -/

/-- **One invocation** leaves the installation initialized exactly if it was before or if the
invocation sets it up. -/
theorem initialized_perform_iff (hs : settings.Usual) :
    Initialized settings (perform settings t o (.invoke args)).world.tree ↔
      Initialized settings t ∨ SetsUp settings t o args := by
  rw [perform_invoke_world]
  have hs' : (o.surroundings settings).settings.Usual := hs
  by_cases hi : Initialized settings t
  · -- what is initialized stays so
    simp only [hi, true_or, iff_true]
    obtain ⟨hname, hl⟩ := hs.initialized_iff.mp hi
    exact hs.initialized_iff.mpr ⟨hname, look_run_ne_none (w := { tree := t }) hl args⟩
  · rw [SetsUp, perform_invoke_outcome_iff]
    by_cases ht : taskOf? args = some .init
    · simp only [hi, ht, false_or, true_and]
      exact run_init (w := { tree := t }) hs' ht hi
    · simp only [hi, ht, false_or, false_and, iff_false]
      have hpair : Pair (o.surroundings settings)
          ((o.surroundings settings).moved o.environment o.clock) [settings.homeDir]
          (fun _ => True) (run (o.surroundings settings) args) (run _ args) :=
        run_paired (.refl _) (by simp [Occasion.surroundings]) args
          (fun h => absurd h ht) fun _ _ => trivial
      have hsame := hpair.look_commonsDir hs' (by simp [Occasion.surroundings]) { tree := t }
      exact fun h => hi (hs.initialized_iff.mpr (hsame ▸ hs.initialized_iff.mp h))

/-! ### Sessions of invocations -/

/-- **When an installation is initialized**: exactly if some invocation so far has set it
up. -/
theorem initialized_treeAfter_iff (hs : settings.Usual) (ht : ¬ Initialized settings t)
    (runs : List (Occasion × List String)) :
    Initialized settings (treeAfter settings t (invocations runs)) ↔
      ∃ before o args, before ++ [(o, args)] <+: runs ∧
        SetsUp settings (treeAfter settings t (invocations before)) o args := by
  induction runs using List.reverseRecOn with
  | nil => simpa [treeAfter, invocations] using ht
  | append_singleton runs last ih =>
      obtain ⟨o, args⟩ := last
      rw [treeAfter_invocations_concat, initialized_perform_iff hs, ih]
      constructor
      · rintro (⟨before, o', args', hp, hset⟩ | hset)
        · exact ⟨before, o', args', hp.trans (List.prefix_append _ _), hset⟩
        · exact ⟨runs, o, args, List.prefix_rfl, hset⟩
      · rintro ⟨before, o', args', hp, hset⟩
        rcases List.prefix_concat_iff.mp hp with he | hp
        · obtain ⟨rfl, he⟩ := List.append_inj' he rfl
          obtain ⟨rfl, rfl⟩ : o' = o ∧ args' = args := by simpa using he
          exact .inr hset
        · exact .inl ⟨before, o', args', hp, hset⟩

/-- What is initialized stays so. -/
theorem initialized_treeAfter (hs : settings.Usual) (hi : Initialized settings t)
    (runs : List (Occasion × List String)) :
    Initialized settings (treeAfter settings t (invocations runs)) := by
  induction runs using List.reverseRecOn with
  | nil => exact hi
  | append_singleton runs last ih =>
      rw [treeAfter_invocations_concat, initialized_perform_iff hs]
      exact .inl ih

/-! ### The gate before and after -/

/-- An invocation is **answered by the gate** if it comes to the same whatever the body of
its command is, and the tutorial file is kept as it is. -/
structure AnsweredByGate (settings : Settings) (t : FileTree) (o : Occasion) (args : List String)
    (names : List String) : Prop where
  body_not_run : ∀ command : Act World Int,
    runCommand (o.surroundings settings) (Gate.commandPath names) command { tree := t } =
      run (o.surroundings settings) args { tree := t }
  tutorialFile_kept : (perform settings t o (.invoke args)).world.tree.look
    settings.tutorialFile.place = t.look settings.tutorialFile.place

section Answered

variable {names : List String} {task : Task} {u : FileTree} {w' : World}

/-- A command that ends at the gate is answered by it. -/
theorem answeredByGate_of_ended {code : Int} (ht : taskOf? args = some task)
    (hn : task.names = names)
    (henter : enter (o.surroundings settings) (Gate.commandPath names) { tree := t } =
      .ok (some code) w')
    (hkept : w'.tree.look settings.tutorialFile.place = t.look settings.tutorialFile.place) :
    AnsweredByGate settings t o args names ∧
      perform settings t o (.invoke args) = ⟨.ok (.exit code), w'⟩ := by
  have hrun : run (o.surroundings settings) args { tree := t } = .ok code w' := by
    rw [run_of_task ht, hn]
    exact runCommand_of_ended henter
  have hperform : perform settings t o (.invoke args) = ⟨.ok (.exit code), w'⟩ :=
    perform_invoke_of_ok hrun
  refine ⟨⟨fun command => ?_, ?_⟩, hperform⟩
  · rw [hrun]
    exact runCommand_of_ended henter
  · rwa [hperform]

/-- A command that ends with a fault at the gate is answered by it. -/
theorem answeredByGate_of_error {f : Fault} (ht : taskOf? args = some task)
    (hn : task.names = names)
    (henter : enter (o.surroundings settings) (Gate.commandPath names) { tree := t } =
      .error f w')
    (hkept : w'.tree.look settings.tutorialFile.place = t.look settings.tutorialFile.place) :
    AnsweredByGate settings t o args names ∧
      perform settings t o (.invoke args) = ⟨.error f, w'⟩ := by
  have hrun : run (o.surroundings settings) args { tree := t } = .error f w' := by
    rw [run_of_task ht, hn]
    exact runCommand_of_error henter
  have hperform : perform settings t o (.invoke args) = ⟨.error f, w'⟩ :=
    perform_invoke_of_error hrun
  refine ⟨⟨fun command => ?_, ?_⟩, hperform⟩
  · rw [hrun]
    exact runCommand_of_error henter
  · rwa [hperform]

end Answered

/-- **An invocation that concerns the tutorial**, where the installation is not initialized,
is answered by the gate. It ends as announced exactly if the path of the commons directory
fits or the file system refuses the home directory. -/
theorem answeredByGate_of_uninitialized (hs : settings.Usual) {task : Task}
    (ht : taskOf? args = some task) (hn : task.names = ["tutorial"])
    (hi : ¬ Initialized settings t) :
    AnsweredByGate settings t o args ["tutorial"] ∧
      (EndsAsAnnounced settings t (perform settings t o (.invoke args)) ↔
        settings.commonsDir.Fits ∨
          ∃ e q, (t.makeFolders settings.homeDir).2 = .error (.refused e q)) := by
  have hplace : settings.tutorialFile.place = settings.homeDir.names ++ ["tutorial.json"] :=
    hs.tutorialFile_place
  have hnotlogs : ¬ settings.homeDir.names ++ ["logs"] <+:
      settings.homeDir.names ++ ["tutorial.json"] := by
    rw [List.prefix_append_right_inj]
    decide
  have hs' : (o.surroundings settings).settings.Usual := hs
  rcases enter_of_uninitialized (w := { tree := t }) hs' tutorialPath_closed hi with
    ⟨e, q, u, message, hmake, henter⟩ | ⟨u, hfits, hmade, hu, henter⟩ |
      ⟨f, u, hfits, hmade, hu, henter⟩
  · have hrefused : t.makeFolders settings.homeDir = (u, .error (.refused e q)) := hmake
    have hkept := hs.look_makeFolders_home t ["tutorial.json"] (by simp)
    rw [hrefused, ← hplace] at hkept
    obtain ⟨hanswered, hperform⟩ := answeredByGate_of_ended ht hn henter hkept
    refine ⟨hanswered, ?_⟩
    rw [hperform, EndsAsAnnounced, hrefused]
    simp
  · have hkept : u.look settings.tutorialFile.place = t.look settings.tutorialFile.place := by
      rw [hplace]
      exact hu _ (not_append_front (by simp)) hnotlogs
    obtain ⟨hanswered, hperform⟩ := answeredByGate_of_ended ht hn henter hkept
    refine ⟨hanswered, ?_⟩
    rw [hperform, EndsAsAnnounced]
    exact ⟨fun _ => .inl hfits, fun _ => .inl ⟨rfl, rfl⟩⟩
  · have hkept : u.look settings.tutorialFile.place = t.look settings.tutorialFile.place := by
      rw [hplace]
      exact hu _ (not_append_front (by simp))
    obtain ⟨hanswered, hperform⟩ := answeredByGate_of_error ht hn henter hkept
    refine ⟨hanswered, ?_⟩
    rw [hperform, EndsAsAnnounced]
    constructor
    · rintro (⟨he, -⟩ | ⟨he, -⟩) <;> cases he
    · rintro (h | ⟨e, q, h⟩)
      · exact absurd h hfits
      · exact absurd h (hmade e q)

/-- **The gate over whole sessions.** In a session of invocations that starts where the
installation is not initialized, it is initialized from the first invocation on that sets it
up. Before that, every invocation that concerns the tutorial is answered by the gate, and it
ends as announced exactly if the path of the commons directory fits or the file system refuses
the home directory. From then on the gate lets every command pass and leaves the world as it
is. -/
theorem initialization_gate (hs : settings.Usual) (ht : ¬ Initialized settings t)
    (runs : List (Occasion × List String)) :
    (Initialized settings (treeAfter settings t (invocations runs)) ↔
      ∃ before o args, before ++ [(o, args)] <+: runs ∧
        SetsUp settings (treeAfter settings t (invocations before)) o args) ∧
    (¬ Initialized settings (treeAfter settings t (invocations runs)) →
      ∀ o args task, taskOf? args = some task → task.names = ["tutorial"] →
        AnsweredByGate settings (treeAfter settings t (invocations runs)) o args ["tutorial"] ∧
        (EndsAsAnnounced settings (treeAfter settings t (invocations runs))
            (perform settings (treeAfter settings t (invocations runs)) o (.invoke args)) ↔
          settings.commonsDir.Fits ∨
            ∃ e q, ((treeAfter settings t (invocations runs)).makeFolders
              settings.homeDir).2 = .error (.refused e q))) ∧
    (Initialized settings (treeAfter settings t (invocations runs)) →
      ∀ (more : List (Occasion × List String)) (o : Occasion) (stream : Stream) (path : String)
        (w : World), w.tree = treeAfter settings t (invocations (runs ++ more)) →
        Lifecycle.preRun (collaborators (o.surroundings settings) stream) settings path w =
          .ok .proceed w) := by
  refine ⟨initialized_treeAfter_iff hs ht runs, fun hi o args task htask hnames => ?_,
    fun hi more o stream path w hw => ?_⟩
  · exact answeredByGate_of_uninitialized hs htask hnames hi
  · refine preRun_of_initialized (s := o.surroundings settings) hs ?_ stream path
    have hmore := initialized_treeAfter hs hi more
    change Initialized settings w.tree
    rw [hw]
    simpa [treeAfter, invocations] using hmore

set_option maxRecDepth 4000 in
/-- The gate over a session that asks for the tutorial state, sets the installation up, and
goes on. -/
theorem initialization_gate_home :
    (settingsAt ⟨.relative, ["home"]⟩).Usual ∧
      ¬ Initialized (settingsAt ⟨.relative, ["home"]⟩) [] ∧
      EndsAsAnnounced (settingsAt ⟨.relative, ["home"]⟩) []
        (perform (settingsAt ⟨.relative, ["home"]⟩) [] quiet (.invoke ["tutorial"])) ∧
      Initialized (settingsAt ⟨.relative, ["home"]⟩)
        (treeAfter (settingsAt ⟨.relative, ["home"]⟩) [] (invocations [(quiet, ["init"])])) := by
  have hs : (settingsAt ⟨.relative, ["home"]⟩).Usual := usual_settingsAt (by decide)
  have ht : ¬ Initialized (settingsAt ⟨.relative, ["home"]⟩) [] := by
    intro h
    have hl := (hs.initialized_iff.mp h).2
    exact hl rfl
  refine ⟨hs, ht, ?_, ?_⟩
  · exact ((initialization_gate hs ht []).2.1 ht quiet ["tutorial"] .showTutorial rfl rfl).2.mpr
      (.inl (by decide))
  · exact (initialization_gate hs ht [(quiet, ["init"])]).1.mpr
      ⟨[], quiet, ["init"], List.prefix_rfl, rfl, rfl⟩

/-- A home directory with a NUL in its path cannot be made, and an invocation that concerns
the tutorial then does not end as announced. -/
theorem not_endsAsAnnounced_of_nul :
    (settingsAt ⟨.relative, ["a\x00b"]⟩).Usual ∧
      ¬ Initialized (settingsAt ⟨.relative, ["a\x00b"]⟩) [] ∧
      taskOf? ["tutorial"] = some .showTutorial ∧
      ¬ EndsAsAnnounced (settingsAt ⟨.relative, ["a\x00b"]⟩) []
        (perform (settingsAt ⟨.relative, ["a\x00b"]⟩) [] quiet (.invoke ["tutorial"])) := by
  have hs : (settingsAt ⟨.relative, ["a\x00b"]⟩).Usual := usual_settingsAt (by decide)
  refine ⟨hs, fun h => (hs.initialized_iff.mp h).2 rfl, rfl, ?_⟩
  have hend : (perform (settingsAt ⟨.relative, ["a\x00b"]⟩) [] quiet
      (.invoke ["tutorial"])).outcome = .error (.file .embeddedNul) := rfl
  rw [EndsAsAnnounced, hend]
  simp

end Session

end CommandGate
