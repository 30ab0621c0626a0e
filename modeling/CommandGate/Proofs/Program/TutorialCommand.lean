import CommandGate.Proofs.Program.Initialization
import CommandGate.Proofs.Tutorial.Stored

/-!
# The Command for the Tutorial

A command is blocked if the gate ends it early. Where a tutorial state is stored, the command
for the tutorial is blocked or passes in an initialized installation; if it passes, it shows
the state, or stores another one. Nothing else that the program does disturbs a state that is
stored.

## Main results

* `Program.initialized_of_not_blocked`: what a command for the tutorial says that is not
  blocked.
* `Program.run_showTutorial`, `Program.run_setTutorial`: what it comes to.
* `Program.stored_of_run`: a state that was set is stored, whatever was there before.
* `Program.Pair.stored`: what leaves a state stored.
-/

namespace CommandGate

open FileTree Tutorial

/-- The path of the commons directory is as long as that of the tutorial file. -/
theorem Settings.fits_commonsDir_iff {settings : Settings} :
    settings.commonsDir.Fits ↔ settings.tutorialFile.Fits := by
  have hsize : settings.commonsDir.toString.utf8ByteSize =
      settings.tutorialFile.toString.utf8ByteSize := by
    rw [Settings.commonsDir, Settings.tutorialFile, Path.join, Path.join]
    rcases eq_or_ne settings.homeDir.names [] with hnames | hnames
    · rw [hnames]
      cases settings.homeDir.anchor <;> rfl
    · simp only [Path.toString, List.append_eq_nil_iff, hnames, false_and, and_false, if_false]
      rw [String.intercalate_append_of_ne_nil hnames (by simp),
        String.intercalate_append_of_ne_nil hnames (by simp)]
      simp only [String.utf8ByteSize_append]
      rfl
  have hnul : settings.commonsDir.hasNul = settings.tutorialFile.hasNul := by
    simp only [Settings.commonsDir, Settings.tutorialFile, Path.hasNul, Path.join, List.any_append]
    rfl
  rw [Path.Fits, Path.Fits, hsize, hnul]

namespace Program

variable {s : Surroundings} {w w' : World} {args : List String} {state old : String}

/-! ### Blocked commands -/

/-- The gate **blocks** a command under a path: it ends the command early. -/
def Blocked (s : Surroundings) (path : String) (w : World) : Prop :=
  ∃ message code w', Lifecycle.preRun (collaborators s .stdout) s.settings path w =
    .ok (.earlyExit message code) w'

/-- What is before a command, in a plain form. -/
theorem preRun_eq (s : Surroundings) (path : String) :
    Lifecycle.preRun (collaborators s .stdout) s.settings path = (do
      Lifecycle.makeHome (collaborators s .stdout) s.settings path
      admission s path) :=
  rfl

/-- Entering a command is what comes before it, answered and with its failures reported. -/
theorem enter_eq_preRun (s : Surroundings) (path : String) :
    enter s path =
      tryCatch (do answer (← Lifecycle.preRun (collaborators s .stdout) s.settings path))
        reportDirectory := by
  rw [enter_eq, preRun_eq, bind_assoc]

/-- How a command begins that is not blocked: it passes, or the home directory is refused, or
there is a fault. -/
theorem enter_of_not_blocked {path : String} (h : ¬ Blocked s path w) :
    (∃ w', enter s path w = .ok none w') ∨ (∃ w', enter s path w = .ok (some 1) w') ∨
      ∃ f w', enter s path w = .error f w' := by
  rw [enter_eq_preRun, Act.tryCatch_apply, Act.bind_apply]
  cases hpre : Lifecycle.preRun (collaborators s .stdout) s.settings path w with
  | ok decision w₁ =>
      cases decision with
      | proceed => exact .inl ⟨w₁, rfl⟩
      | earlyExit message code => exact absurd ⟨message, code, w₁, hpre⟩ h
  | error f w₁ =>
      cases f with
      | directory fault => exact .inr (.inl ⟨_, rfl⟩)
      | _ => exact .inr (.inr ⟨_, _, rfl⟩)

/-- A blocked command is answered by the gate. -/
theorem enter_of_blocked {path : String} (h : Blocked s path w) :
    ∃ code w', enter s path w = .ok (some code) w' := by
  obtain ⟨message, code, w₁, hpre⟩ := h
  rw [enter_eq_preRun, Act.tryCatch_apply, Act.bind_apply, hpre]
  exact ⟨code, _, rfl⟩

/-- A command that needs an initialized installation is blocked where the commons directory is
absent, once that is recorded. -/
theorem blocked_of_absent {path : String} {t : FileTree}
    (hmake : w.tree.makeFolders s.settings.homeDir = (t, .ok ()))
    (hclosed : (Gate.isListed Gate.openPaths path || Gate.isCompletion path) = false)
    (hpresent : t.present s.settings.commonsDir = .ok false)
    (hrecord : Telemetry.record s (Lifecycle.commandEvent "lifecycle.blocked" path [])
      { w with tree := t } = .ok () w') : Blocked s path w := by
  refine ⟨Gate.initMessage, 0, w', ?_⟩
  rw [preRun_eq, Act.bind_apply, makeHome_eq, Act.tryCatch_apply, Directory.create_apply, hmake]
  dsimp only
  rw [admission, hclosed, if_neg (by simp), Act.bind_apply, Directory.present_apply, hpresent]
  dsimp only
  rw [if_neg (by simp), Act.bind_apply, hrecord]
  rfl

/-! ### What leaves a state stored -/

/-- Appending to the log leaves a state stored. -/
theorem stored_appendLine {settings : Settings} {t : FileTree}
    (h : Stored settings.tutorialFile state t) (line : Text) :
    Stored settings.tutorialFile state (Telemetry.appendLine settings.logFile line t).1 :=
  h.rewrites (Telemetry.appendLine_rewrites settings.logFile line t)
    settings.logFile_place_ne.symm

/-- **What is put together from basic steps that set no state leaves a state stored.** -/
theorem Pair.stored {s' : Surroundings} {made : List Path} {α : Type} {a b : Act World α}
    (h : Pair s s' made (fun _ => False) a b)
    (hstored : Stored s.settings.tutorialFile state w.tree) :
    Stored s.settings.tutorialFile state (a.after w).tree :=
  h.keeps (R := fun t u => Stored s.settings.tutorialFile state t →
      Stored s.settings.tutorialFile state u) (fun _ ht => ht)
    (fun _ _ _ htu huv ht => huv (htu ht))
    (fun p _ t ht => ht.addsFolders (makeFolders_addsFolders t p))
    (fun _ hno => hno.elim) (fun _ _ r _ _ _ ht => stored_appendLine ht r.line) w hstored

/-! ### Setting a state -/

/-- Arguments that set the tutorial run the command that does so. -/
theorem run_of_setTutorial (ht : taskOf? args = some (.setTutorial (some state))) :
    run s args = runCommand s tutorialPath (setTutorial s (some state)) := by
  rw [run_of_task ht, Task.names, body, tutorialPath]

/-- What setting a state does once it is set. -/
def afterSetting (s : Surroundings) (state : String) : Act World Int := do
  Telemetry.record s (event "tutorial.set" [("state", .string state)] .info)
  World.printLine .stdout s!"Tutorial {state}"
  leave s tutorialPath 0

/-- A command that sets a state, once it passes. -/
theorem setTutorial_leave (state : String) :
    (do leave s tutorialPath (← setTutorial s (some state)) : Act World Int) = (do
      World.change (Tutorial.set s.settings.tutorialFile state)
      afterSetting s state) := by
  simp only [setTutorial, afterSetting, bind_assoc, pure_bind]

/-- **A state that was set is stored**, whatever was there before: where a command that sets
it is not blocked and ends with 0. -/
theorem stored_of_run (ht : taskOf? args = some (.setTutorial (some state)))
    (hb : ¬ Blocked s tutorialPath w) (h : run s args w = .ok 0 w') :
    Stored s.settings.tutorialFile state w'.tree := by
  rw [run_of_setTutorial ht] at h
  rcases enter_of_not_blocked hb with ⟨w₁, henter⟩ | ⟨w₁, henter⟩ | ⟨f, w₁, henter⟩
  · rw [runCommand_of_passed henter, setTutorial_leave, Act.bind_apply] at h
    cases hset : (Tutorial.set s.settings.tutorialFile state w₁.tree).2 with
    | error f =>
        rw [World.change_of_error hset] at h
        cases h
    | ok =>
        rw [World.change_of_ok hset] at h
        dsimp only at h
        have hpair : Pair s (s.moved s.environment s.clock) [] (fun _ => False)
            (afterSetting s state) (afterSetting (s.moved s.environment s.clock) state) :=
          .bind (.basic (.record (.tutorialSet state))) fun _ =>
            .bind (printLine_paired _ _) fun _ => leave_paired rfl 0
        let set : World :=
          { w₁ with tree := (Tutorial.set s.settings.tutorialFile state w₁.tree).1 }
        have hafter := hpair.stored (w := set) (stored_of_set hset)
        rw [Act.after, h] at hafter
        exact hafter
  · rw [runCommand_of_ended henter] at h
    simp at h
  · rw [runCommand_of_error henter] at h
    cases h

/-! ### Where a state is stored -/

/-- No version is looked for after the commands for the tutorial. -/
theorem tutorialPath_unlisted : Gate.isListed Gate.versionPaths tutorialPath = false := by
  decide

/-- In an initialized installation, what setting a state does afterwards ends with 0. -/
theorem afterSetting_of_initialized (hs : s.settings.Usual) (hi : Initialized s.settings w.tree) :
    ∃ w', afterSetting s state w = .ok 0 w' := by
  obtain ⟨hfits, hpass⟩ := hs.passable_of_initialized hi
  obtain ⟨u, hrecord, hu⟩ := record_of_passable hs hfits.1
    (Records.tutorialSet (s := s) state).sound hpass
  have hlook : u.look s.settings.commonsDir.names = w.tree.look s.settings.commonsDir.names :=
    hu _ (not_logs_front (by simp))
  have hinitialized : Initialized s.settings u := by
    rw [hs.initialized_iff, hlook]
    exact hs.initialized_iff.mp hi
  refine ⟨{ w with tree := u, stdout := w.stdout ++ (s!"Tutorial {state}" ++ "\n") }, ?_⟩
  rw [afterSetting, Act.bind_apply, hrecord]
  exact leave_of_initialized tutorialPath_unlisted hinitialized 0

section Stored

variable (hs : s.settings.Usual) (h : Stored s.settings.tutorialFile state w.tree)

include hs h

/-- The home directory is there. -/
theorem makeFolders_home_of_stored :
    w.tree.makeFolders s.settings.homeDir = (w.tree, .ok ()) := by
  have hparent : s.settings.tutorialFile.parent = s.settings.homeDir := by
    simp [Settings.tutorialFile, Path.parent, Path.join]
  rw [← hparent]
  exact h.makeFolders_parent (hs.join_plain (by decide))

/-- **A command for the tutorial that is not blocked** finds an initialized installation. -/
theorem initialized_of_not_blocked (hb : ¬ Blocked s tutorialPath w) :
    Initialized s.settings w.tree := by
  have hmake := makeFolders_home_of_stored hs h
  obtain ⟨hfits, hpass⟩ := fits_passable_of_makeFolders_eq_ok hs.plain hmake
  have hcommons : s.settings.commonsDir.Fits :=
    Settings.fits_commonsDir_iff.mpr (fits_of_resolve_eq_ok h.resolve)
  have hname : s.settings.commonsDir.Nameable := Settings.nameable_commonsDir hcommons hpass
  have hpresent := present_of_nameable (t := w.tree) hs.commonsDir_plain hname
  rw [Initialized, hpresent]
  by_contra hi
  have habsent : w.tree.present s.settings.commonsDir = .ok false := by
    rw [hpresent]
    simpa using hi
  obtain ⟨u, hrecord, -⟩ := record_of_passable (w := { w with tree := w.tree }) hs hfits.1
    (Records.blocked (s := s) tutorialPath).sound hpass
  exact hb (blocked_of_absent hmake tutorialPath_closed habsent hrecord)

/-- Where it is not blocked, the command is entered without a change. -/
theorem enter_of_stored (hb : ¬ Blocked s tutorialPath w) : enter s tutorialPath w = .ok none w :=
  enter_of_present (makeFolders_home_of_stored hs h) (initialized_of_not_blocked hs h hb)

/-- **Showing the state that is stored**, where that is not blocked: it is printed, and nothing
else is done. -/
theorem run_showTutorial (ht : taskOf? args = some .showTutorial)
    (hb : ¬ Blocked s tutorialPath w) :
    run s args w = .ok 0 { w with
      stdout := w.stdout ++ ("Current tutorial status: " ++ Text.ofString state ++ "\n") } := by
  have hrun : run s args = runCommand s tutorialPath (showTutorial s) := by
    rw [run_of_task ht, Task.names, body, tutorialPath]
  let shown : World := { w with
    stdout := w.stdout ++ ("Current tutorial status: " ++ Text.ofString state ++ "\n") }
  have hshow : showTutorial s w = .ok 0 shown := by
    rw [showTutorial_eq, Act.tryCatch_apply, Act.bind_apply, World.look_apply, h.find]
    rfl
  have hi : Initialized s.settings w.tree := initialized_of_not_blocked hs h hb
  rw [hrun, runCommand_of_passed (enter_of_stored hs h hb), Act.bind_apply, hshow]
  exact leave_of_initialized (w := shown) tutorialPath_unlisted hi 0

/-- **Setting another state**, where that is not blocked: the command ends with 0. -/
theorem run_setTutorial {new : String} (ht : taskOf? args = some (.setTutorial (some new)))
    (hnew : new ∈ states) (hb : ¬ Blocked s tutorialPath w) : ∃ w', run s args w = .ok 0 w' := by
  have hplain : s.settings.tutorialFile.IsPlain := hs.join_plain (by decide)
  have hset := h.set hplain hnew
  have hlook : look (Tutorial.set s.settings.tutorialFile new w.tree).1
      s.settings.commonsDir.names = w.tree.look s.settings.commonsDir.names :=
    hs.look_setTutorial new w.tree (by simp) (by simp)
  have hi : Initialized s.settings (Tutorial.set s.settings.tutorialFile new w.tree).1 := by
    rw [hs.initialized_iff, hlook]
    exact hs.initialized_iff.mp (initialized_of_not_blocked hs h hb)
  rw [run_of_setTutorial ht, runCommand_of_passed (enter_of_stored hs h hb), setTutorial_leave,
    Act.bind_apply, World.change_of_ok hset]
  exact afterSetting_of_initialized hs hi

/-- Setting a state that cannot be written is a fault, and changes nothing. -/
theorem run_setTutorial_of_not_mem {new : String}
    (ht : taskOf? args = some (.setTutorial (some new))) (hnew : new ∉ states)
    (hb : ¬ Blocked s tutorialPath w) : run s args w = .error .unknownState w := by
  rw [run_of_setTutorial ht, runCommand_of_passed (enter_of_stored hs h hb), setTutorial_leave,
    Act.bind_apply, World.change_apply, set_of_not_mem _ hnew]

end Stored

end Program

end CommandGate
