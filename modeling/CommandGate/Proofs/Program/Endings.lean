import CommandGate.Proofs.Program.Language
import CommandGate.Proofs.Program.Lifecycle
import CommandGate.Proofs.Program.Reminder
import CommandGate.Proofs.Program.TutorialCommand
import CommandGate.Proofs.Tutorial.Contents

/-!
# How Invocations End

An invocation ends with an exit code, or with a fault that nothing recovers from. Where the
network gives a response or a failed request, and events can be recorded, it ends with such a
fault exactly if it escapes (`Program.Escapes`): a path of the settings cannot be used, a
tutorial state cannot be set, or the tutorial state is asked for where the file is garbled. A
tutorial state that cannot be found out otherwise is reported, and the exit code is 1.

## Main results

* `Program.escapes_of_error`, `Program.error_of_escapes`: when an invocation fails.
* `Program.run_of_unreadable`: how a tutorial state that cannot be found out is reported.
* `Program.invocation_ends`: when an invocation ends with an exit code.
* `Program.no_exitCode_of_garbled`: an invocation that ends with none.
-/

namespace CommandGate

open FileTree Tutorial

namespace Program

variable {s : Surroundings} {args : List String} {path : String} {command : Act World Int}
variable {w w₁ w₂ : World} {t : FileTree} {code : Int}

/-! ### What is found below the home directory -/

section Home

variable (h : Stands t s.settings.homeDir) (hf : s.settings.commonsDir.Fits)

include h hf

/-- The commons directory can be looked for. -/
theorem present_of_stands :
    t.present s.settings.commonsDir =
      .ok (t.look (s.settings.homeDir.place ++ ["repos", "commons"])).isSome :=
  h.present_pair hf (by decide) (by decide) (by decide) (by decide)

/-- Where the commons are not there, asking for them says so. -/
theorem present_of_not_initialized (hi : ¬ Initialized s.settings t) :
    t.present s.settings.commonsDir = .ok false := by
  have hpresent := present_of_stands h hf
  rw [Initialized, hpresent] at hi
  rw [hpresent]
  simpa using hi

/-- When finding the tutorial state is a fault that is passed on. -/
theorem find_tutorial_error_iff :
    (∃ f, find s.settings.tutorialFile t = .error f ∧ ∀ fault, f ≠ .tutorial fault) ↔
      ∃ bytes, t.look s.settings.tutorialFile.place = some (.file bytes) ∧ Garbled bytes := by
  have hplace : s.settings.tutorialFile.place = s.settings.homeDir.place ++ ["tutorial.json"] :=
    Path.place_join_file _ (by decide)
  rw [hplace]
  exact find_error_iff h (Settings.fits_commonsDir_iff.mp hf) (by decide) (by decide)

/-- When a tutorial state can be set. -/
theorem set_tutorial_iff {state : String} (hstate : state ∈ states) :
    (Tutorial.set s.settings.tutorialFile state t).2 = .ok () ↔
      t.look s.settings.tutorialFile.place ≠ some .folder := by
  have hplace : s.settings.tutorialFile.place = s.settings.homeDir.place ++ ["tutorial.json"] :=
    Path.place_join_file _ (by decide)
  rw [hplace]
  exact set_of_stands h (Settings.fits_commonsDir_iff.mp hf) (by decide) (by decide) hstate

end Home

/-- What is present can be looked for. -/
theorem fits_of_present {p : Path} (h : t.present p = .ok true) : p.Fits := by
  rw [present_eq_look] at h
  cases hr : t.resolve p with
  | ok l => exact fits_of_resolve_eq_ok hr
  | error f =>
      rw [hr] at h
      split at h <;> simp_all

/-- A tutorial state that cannot be found out is in a file whose path fits. -/
theorem fits_of_find {fault : TutorialFault}
    (h : find s.settings.tutorialFile t = .error (.tutorial fault)) :
    s.settings.commonsDir.Fits := by
  rw [Settings.fits_commonsDir_iff]
  rw [find] at h
  cases hp : t.present s.settings.tutorialFile with
  | error f => simp [hp] at h
  | ok found =>
      cases found with
      | false => simp [hp] at h
      | true => exact fits_of_present hp

/-! ### What stays -/

/-- Whatever is put together from basic steps leaves folders in their places, and something
where something stood. -/
theorem Pair.keeps_standing {s' : Surroundings} {made : List Path} {settable : String → Prop}
    {α : Type} {a b : Act World α} (h : Pair s s' made settable a b) (w : World) :
    (∀ m, w.tree.look m = some .folder → (a.after w).tree.look m = some .folder) ∧
      ∀ m, w.tree.look m ≠ none → (a.after w).tree.look m ≠ none := by
  refine h.keeps (R := fun t u => (∀ m, t.look m = some .folder → u.look m = some .folder) ∧
    ∀ m, t.look m ≠ none → u.look m ≠ none) (fun t => ⟨fun _ hm => hm, fun _ hm => hm⟩)
    (fun t u v htu huv => ⟨fun m hm => huv.1 m (htu.1 m hm), fun m hm => huv.2 m (htu.2 m hm)⟩)
    ?_ ?_ ?_ w
  · intro p _ t
    have hadd := makeFolders_addsFolders t p
    refine ⟨fun _ hm => hadd.look_of_some hm, fun m hm => ?_⟩
    obtain ⟨e, he⟩ := Option.ne_none_iff_exists'.mp hm
    rw [hadd.look_of_some he]
    simp
  · intro state _ t
    have hset := set_rewrites s.settings.tutorialFile state t
    exact ⟨fun _ hm => hset.look_of_folder hm, fun _ hm => hset.look_ne_none hm⟩
  · intro _ e r _ _ t
    have happend := Telemetry.appendLine_rewrites s.settings.logFile r.line t
    exact ⟨fun _ hm => happend.look_of_folder hm, fun _ hm => happend.look_ne_none hm⟩

/-- Whatever is put together from basic steps that set no state leaves the tutorial file as it
was. -/
theorem Pair.keeps_tutorialFile {s' : Surroundings} {made : List Path} {α : Type}
    {a b : Act World α} (h : Pair s s' made (fun _ => False) a b) (w : World) (bytes : Bytes) :
    (a.after w).tree.look s.settings.tutorialFile.place = some (.file bytes) ↔
      w.tree.look s.settings.tutorialFile.place = some (.file bytes) :=
  h.keeps (R := fun t u => u.look s.settings.tutorialFile.place = some (.file bytes) ↔
      t.look s.settings.tutorialFile.place = some (.file bytes)) (fun _ => Iff.rfl)
    (fun _ _ _ htu huv => huv.trans htu)
    (fun p _ t => (makeFolders_addsFolders t p).look_file_iff)
    (fun _ hno => hno.elim)
    (fun _ _ r _ _ t => (Telemetry.appendLine_rewrites _ r.line t).look_file_iff
      s.settings.logFile_place_ne.symm) w

/-- What an invocation carries out is put together from basic steps. -/
theorem CarriesOut.exists_pair (h : CarriesOut s args path command) :
    ∃ command', Pair s (s.moved s.environment s.clock) [s.settings.commonsDir]
      (fun state => taskOf? args = some (.setTutorial (some state))) command command' := by
  cases h with
  | completion words => exact ⟨_, complete_paired words⟩
  | task ht =>
      refine ⟨_, body_paired (.refl _) _ (fun _ => List.mem_singleton_self _) ?_⟩
      rintro state rfl
      exact ht

/-- The look for a version leaves the tree that steps leave that set no state. -/
theorem Checks.exists_pair (h : Checks s path w (.ok () w₁)) :
    ∃ a a' : Act World Unit, Pair s (s.moved s.environment s.clock) [] (fun _ => False) a a' ∧
      (a.after w).tree = w₁.tree := by
  cases h with
  | passedOver h => exact ⟨_, _, .pure (), rfl⟩
  | @answered latest u h hnews hrecord =>
      refine ⟨_, _, .bind (.basic (.send ⟨s.settings.url, Release.headers, s.settings.timeout⟩))
        fun _ => .basic (.record (.versionChecked latest)), ?_⟩
      have hsend : World.send s ⟨s.settings.url, Release.headers, s.settings.timeout⟩ w =
          .ok s.network (asked s w) := rfl
      rw [versionEvent] at hrecord
      rw [Act.after, Act.bind_apply, hsend]
      dsimp only
      rw [hrecord]

/-- **Between the gate and the reminder** folders stay, and something stays where something
stood. -/
theorem CarriesOut.keeps_standing (hc : CarriesOut s args path command)
    (hbody : command w = .ok code w₁) (hcheck : Checks s path w₁ (.ok () w₂)) :
    (∀ m, w.tree.look m = some .folder → w₂.tree.look m = some .folder) ∧
      ∀ m, w.tree.look m ≠ none → w₂.tree.look m ≠ none := by
  obtain ⟨command', hpair⟩ := hc.exists_pair
  obtain ⟨a, a', hpair', htree⟩ := hcheck.exists_pair
  have hfirst := hpair.keeps_standing w
  have hsecond := hpair'.keeps_standing w₁
  rw [Act.after, hbody] at hfirst
  rw [htree] at hsecond
  exact ⟨fun m hm => hsecond.1 m (hfirst.1 m hm), fun m hm => hsecond.2 m (hfirst.2 m hm)⟩

/-- So does the home directory. -/
theorem CarriesOut.stands (hc : CarriesOut s args path command)
    (hbody : command w = .ok code w₁) (hcheck : Checks s path w₁ (.ok () w₂))
    (h : Stands w.tree s.settings.homeDir) : Stands w₂.tree s.settings.homeDir :=
  h.of_folders (hc.keeps_standing hbody hcheck).1

/-- And an initialized installation stays one. -/
theorem CarriesOut.initialized (hc : CarriesOut s args path command)
    (hbody : command w = .ok code w₁) (hcheck : Checks s path w₁ (.ok () w₂))
    (h : Stands w.tree s.settings.homeDir) (hi : Initialized s.settings w.tree) :
    Initialized s.settings w₂.tree := by
  have hf := fits_of_present hi
  rw [Initialized, present_of_stands h hf, Except.ok.injEq, Option.isSome_iff_ne_none] at hi
  rw [Initialized, present_of_stands (hc.stands hbody hcheck h) hf, Except.ok.injEq,
    Option.isSome_iff_ne_none]
  exact (hc.keeps_standing hbody hcheck).2 _ hi

/-! ### How bodies end -/

section Bodies

variable (hr : s.Recordable)

/-- A failure is reported on the error stream, whatever it is. -/
theorem reportFailure_succeeds (message : Text) : Act.Succeeds (reportFailure message) :=
  fun _ => ⟨(), _, rfl⟩

include hr

/-- An event of the program is recorded without failing, in surroundings that let it be. -/
theorem record_succeeds {e : Telemetry.Event} (he : Records s e) :
    Act.Succeeds (Telemetry.record s e) := by
  intro w
  obtain ⟨u, hrecord⟩ := record_of_recordable hr he w
  exact ⟨(), _, hrecord⟩

/-- Setting up ends with an exit code where the commons directory can be looked for. -/
theorem setUp_ends (hf : s.settings.commonsDir.Fits) {found : Bool}
    (hp : w.tree.present s.settings.commonsDir = .ok found) :
    ∃ code w', setUp s w = .ok code w' := by
  have failed (fault : DirectoryFault) : Act.Succeeds (do
      reportFailure fault.message
      Telemetry.record s
        (event "init" [("status", .string "failed"), ("error", .string fault.message)] .error)
      pure 1 : Act World Int) :=
    (reportFailure_succeeds _).bind fun _ =>
      (record_succeeds hr (.initFailed fault)).bind fun _ => .pure 1
  have done : Act.Succeeds (do
      Telemetry.record s
        (event "init" [("status", .string "ok"), ("already_initialized", .bool found)] .info)
      World.printLine .stdout (setUpLine s found)
      pure 0 : Act World Int) :=
    (record_succeeds hr (.initDone found)).bind fun _ =>
      (World.print_succeeds _ _).bind fun _ => .pure 0
  rw [setUp_eq, Act.bind_apply, Directory.present_apply, hp]
  dsimp only
  rw [Act.bind_apply, Act.tryCatch_apply, Act.bind_apply, Directory.create_apply]
  rcases hmake : w.tree.makeFolders s.settings.commonsDir with ⟨t, f | ⟨⟩⟩
  · cases f with
    | refused errno q => exact failed _ _
    | embeddedNul =>
        exact absurd (by rw [hmake]) (makeFolders_ne_embeddedNul (t := w.tree) hf.1)
  · exact done _

/-- An upgrade ends with an exit code. -/
theorem upgrade_succeeds (mode : UpgradeMode) : Act.Succeeds (upgrade s mode) := by
  simp only [upgrade]
  split
  · exact (World.print_succeeds _ _).bind fun _ =>
      (record_succeeds hr (.upgradeShown mode)).bind fun _ => .pure 0
  · have hlaunch : Act.Succeeds (World.launch s (upgradeCommand s.environment mode)) :=
      fun _ => ⟨_, _, rfl⟩
    rw [launch_bind s]
    refine hlaunch.bind fun _ => ?_
    cases hl : s.launch with
    | ended code =>
        exact (record_succeeds hr (.upgradeEnded mode code hl)).bind fun _ => .pure code
    | notStarted errno reason =>
        exact (reportFailure_succeeds _).bind fun _ =>
          (record_succeeds hr (.upgradeNotStarted mode errno reason _)).bind fun _ => .pure 1

/-- Setting a tutorial state ends with an exit code where the state can be set. -/
theorem setTutorial_ends {state : String}
    (hset : (Tutorial.set s.settings.tutorialFile state w.tree).2 = .ok ()) :
    ∃ code w', setTutorial s (some state) w = .ok code w' := by
  have hafter : Act.Succeeds (do
      Telemetry.record s (event "tutorial.set" [("state", .string state)] .info)
      World.printLine .stdout s!"Tutorial {state}"
      pure 0 : Act World Int) :=
    (record_succeeds hr (.tutorialSet state)).bind fun _ =>
      (World.print_succeeds _ _).bind fun _ => .pure 0
  rw [setTutorial, Act.bind_apply, World.change_of_ok hset]
  exact hafter _

end Bodies

/-- Setting a tutorial state is a fault where the state cannot be set. -/
theorem setTutorial_fails {state : String}
    (hset : (Tutorial.set s.settings.tutorialFile state w.tree).2 ≠ .ok ()) :
    ∃ f w', setTutorial s (some state) w = .error f w' := by
  cases herror : (Tutorial.set s.settings.tutorialFile state w.tree).2 with
  | ok => exact absurd herror hset
  | error f =>
      rw [setTutorial, Act.bind_apply, World.change_of_error herror]
      exact ⟨f, _, rfl⟩

/-- Showing the tutorial state, in a plain form. -/
theorem showTutorial_apply (s : Surroundings) (w : World) :
    showTutorial s w =
      match find s.settings.tutorialFile w.tree with
      | .ok tutorial => .ok 0 { w with
          stdout := w.stdout ++ ("Current tutorial status: " ++ tutorial.current ++ "\n") }
      | .error (.tutorial fault) => .ok 1 (w.complaining fault.message)
      | .error f => .error f w := by
  rw [showTutorial_eq, Act.tryCatch_apply, Act.bind_apply, World.look_apply]
  cases find s.settings.tutorialFile w.tree with
  | ok tutorial => rfl
  | error f => cases f <;> rfl

/-- Another fault in finding the tutorial state than a tutorial fault is passed on. -/
theorem showTutorial_of_error {f : Fault}
    (hfind : find s.settings.tutorialFile w.tree = .error f) (hf : ∀ fault, f ≠ .tutorial fault) :
    showTutorial s w = .error f w := by
  rw [showTutorial_apply, hfind]
  cases f with
  | tutorial fault => exact absurd rfl (hf fault)
  | _ => rfl

/-! ### When the tutorial state is asked for -/

/-- When an invocation **asks for the tutorial state**, and in which tree: to show it, in an
initialized installation, or after the body of a command and the look for a version, in one that
is not. -/
inductive AsksFor (s : Surroundings) (args : List String) (w : World) : FileTree → Prop
  | toShow {t : FileTree} (ht : taskOf? args = some .showTutorial)
      (hhome : w.tree.makeFolders s.settings.homeDir = (t, .ok ()))
      (hi : Initialized s.settings t) : AsksFor s args w t
  | toRemind {path : String} {command : Act World Int} {t : FileTree} {code : Int}
      {w₁ w₂ : World} (hc : CarriesOut s args path command)
      (hhome : w.tree.makeFolders s.settings.homeDir = (t, .ok ())) (hpass : Passes s path t)
      (hbody : command { w with tree := t } = .ok code w₁)
      (hcheck : Checks s path w₁ (.ok () w₂)) (hi : ¬ Initialized s.settings w₂.tree) :
      AsksFor s args w w₂.tree

/-- **When an invocation escapes**: when it carries something out, and the path of the home
directory holds a NUL, or that of the commons directory is too long although the home directory
can be made; when it passes and sets no state, or one where a folder stands in the place of the
tutorial file; and when it asks for the tutorial state where that file is garbled. -/
inductive Escapes (s : Surroundings) (args : List String) (w : World) : Prop
  | nul {path : String} {command : Act World Int} (hc : CarriesOut s args path command)
      (hnul : s.settings.homeDir.hasNul = true)
  | long {path : String} {command : Act World Int} {t : FileTree}
      (hc : CarriesOut s args path command)
      (hhome : w.tree.makeFolders s.settings.homeDir = (t, .ok ()))
      (hlong : ¬ s.settings.commonsDir.Fits)
  | blank {t : FileTree} (ht : taskOf? args = some (.setTutorial none))
      (hhome : w.tree.makeFolders s.settings.homeDir = (t, .ok ()))
      (hi : Initialized s.settings t)
  | occupied {t : FileTree} {state : String} (ht : taskOf? args = some (.setTutorial (some state)))
      (hhome : w.tree.makeFolders s.settings.homeDir = (t, .ok ()))
      (hi : Initialized s.settings t)
      (hfolder : t.look s.settings.tutorialFile.place = some .folder)
  | garbled {t : FileTree} {bytes : Bytes} (ha : AsksFor s args w t)
      (hfile : t.look s.settings.tutorialFile.place = some (.file bytes)) (hg : Garbled bytes)

/-- The command for the tutorial passes in an initialized installation only. -/
theorem initialized_of_passes (h : Passes s tutorialPath t) : Initialized s.settings t := by
  have hclosed := tutorialPath_closed
  rw [Bool.or_eq_false_iff] at hclosed
  rw [Passes, hclosed.1, hclosed.2] at h
  simpa using h

/-- With the commons there, every command passes. -/
theorem passes_of_initialized (hi : Initialized s.settings t) (path : String) : Passes s path t :=
  .inr (.inr hi)

/-- What sets a tutorial state is the command for the tutorial. -/
theorem CarriesOut.path_of_setTutorial (hc : CarriesOut s args path command) {state : String}
    (ht : taskOf? args = some (.setTutorial (some state))) : path = tutorialPath := by
  cases hc with
  | completion words => simp [taskOf?_completion] at ht
  | task ht' =>
      obtain rfl := Option.some.inj (ht'.symm.trans ht)
      rfl

/-- **The tutorial file that is asked for is the one that stood there** when the invocation
began. -/
theorem AsksFor.look_tutorialFile (h : AsksFor s args w t) (bytes : Bytes) :
    t.look s.settings.tutorialFile.place = some (.file bytes) ↔
      w.tree.look s.settings.tutorialFile.place = some (.file bytes) := by
  have made {u : FileTree} (hhome : w.tree.makeFolders s.settings.homeDir = (u, .ok ())) :
      u.look s.settings.tutorialFile.place = some (.file bytes) ↔
        w.tree.look s.settings.tutorialFile.place = some (.file bytes) :=
    (addsFolders_of_makeFolders hhome).look_file_iff
  cases h with
  | toShow ht hhome hi => exact made hhome
  | @toRemind path command t code w₁ w₂ hc hhome hpass hbody hcheck hi =>
      -- A body that sets a state passes in an initialized installation, where nothing is asked.
      have hunset : (fun state => taskOf? args = some (.setTutorial (some state))) =
          fun _ => False := by
        funext state
        rw [eq_iff_iff, iff_false]
        intro ht
        obtain rfl := hc.path_of_setTutorial ht
        exact hi (hc.initialized hbody hcheck (stands_of_makeFolders hhome)
          (initialized_of_passes hpass))
      obtain ⟨command', hpair⟩ := hc.exists_pair
      obtain ⟨a, a', hpair', htree⟩ := hcheck.exists_pair
      rw [hunset] at hpair
      have hcommand := hpair.keeps_tutorialFile { w with tree := t } bytes
      have hlook := hpair'.keeps_tutorialFile w₁ bytes
      rw [Act.after, hbody] at hcommand
      rw [htree] at hlook
      exact hlook.trans (hcommand.trans (made hhome))

/-! ### How invocations go -/

/-- An invocation carries something out, or answers its arguments. -/
theorem carriesOut_or (s : Surroundings) (args : List String) :
    (∃ path command, CarriesOut s args path command) ∨
      run s args = conclude s (CommandLine.read grammar args) := by
  by_cases hm : args.head? = some Gate.completionMarker
  · obtain ⟨words, rfl⟩ := List.head?_eq_some_iff.mp hm
    exact .inl ⟨_, _, .completion words⟩
  · cases ht : taskOf? args with
    | some task => exact .inl ⟨_, _, .task ht⟩
    | none =>
        rw [run_eq, if_neg hm, ht]
        exact .inr rfl

/-- Arguments are answered with an exit code. -/
theorem conclude_succeeds (hnetwork : ∀ kind message, s.network ≠ .foreign kind message)
    (reading : CommandLine.Reading) : Act.Succeeds (conclude s reading) := by
  cases reading with
  | accepted found => exact .pure 0
  | help commands => exact (World.print_succeeds _ _).bind fun _ => .pure 0
  | rejected commands complaint => exact (World.print_succeeds _ _).bind fun _ => .pure 2
  | version =>
      have hnews : Act.Succeeds
          (Release.news? (Release.current s) s.settings.version) := by
        intro w
        rcases newsIn_cases s.settings.version s.network with
          ⟨latest, hlatest⟩ | ⟨kind, message, hforeign, -⟩
        · rw [news?_current, hlatest]
          exact ⟨_, _, rfl⟩
        · exact absurd hforeign (hnetwork kind message)
      exact (hnews.bind fun _ => .pure _).bind fun _ =>
        (World.print_succeeds _ _).bind fun _ => .pure 0

/-- What an invocation comes to that passes the gate. -/
theorem CarriesOut.run_of_passes (hc : CarriesOut s args path command)
    (hhome : w.tree.makeFolders s.settings.homeDir = (t, .ok ())) (hpass : Passes s path t) :
    run s args w = (do leave s path (← command) : Act World Int) { w with tree := t } := by
  rw [hc.run_eq, runCommand_of_passed (enter_of_passes hhome hpass)]

/-- What it comes to if its body ends with an exit code. -/
theorem CarriesOut.run_of_body (hc : CarriesOut s args path command)
    (hhome : w.tree.makeFolders s.settings.homeDir = (t, .ok ())) (hpass : Passes s path t)
    (hbody : command { w with tree := t } = .ok code w₁)
    (hcheck : Checks s path w₁ (.ok () w₂)) : run s args w = remind s path code w₂ := by
  rw [hc.run_of_passes hhome hpass, Act.bind_apply, hbody]
  exact leave_of_checks hcheck

/-- **What the body of a command comes to**: it ends with an exit code, unless it is for the
tutorial and asks for a state that is garbled, or sets none, or sets one where a folder stands. -/
theorem CarriesOut.ends_or (hc : CarriesOut s args path command) (hr : s.Recordable)
    (hstands : Stands w.tree s.settings.homeDir) (hf : s.settings.commonsDir.Fits) :
    (∃ code w', command w = .ok code w') ∨
      path = tutorialPath ∧
        (taskOf? args = some .showTutorial ∧
            (∃ bytes, w.tree.look s.settings.tutorialFile.place = some (.file bytes) ∧
              Garbled bytes) ∨
          taskOf? args = some (.setTutorial none) ∨
          ∃ state, taskOf? args = some (.setTutorial (some state)) ∧
            w.tree.look s.settings.tutorialFile.place = some .folder) := by
  cases hc with
  | completion words => exact .inl ⟨0, _, rfl⟩
  | task ht =>
      rename_i task
      cases task with
      | overview => exact .inl ⟨0, _, rfl⟩
      | help => exact .inl ⟨0, _, rfl⟩
      | init => exact .inl (setUp_ends hr hf (present_of_stands hstands hf))
      | upgrade mode => exact .inl (upgrade_succeeds hr mode w)
      | completionScript shell => exact .inl ⟨0, _, rfl⟩
      | showTutorial =>
          have hgarbled := find_tutorial_error_iff hstands hf
          rw [body, showTutorial_apply]
          cases hfind : find s.settings.tutorialFile w.tree with
          | ok tutorial => exact .inl ⟨_, _, rfl⟩
          | error f =>
              by_cases hfault : ∃ fault, f = .tutorial fault
              · obtain ⟨fault, rfl⟩ := hfault
                exact .inl ⟨_, _, rfl⟩
              · refine .inr ⟨rfl, .inl ⟨ht, hgarbled.mp ⟨f, hfind, fun fault he => ?_⟩⟩⟩
                exact hfault ⟨fault, he⟩
      | setTutorial state =>
          cases state with
          | none => exact .inr ⟨rfl, .inr (.inl ht)⟩
          | some state =>
              have hset := set_tutorial_iff hstands hf (mem_states_of_task ht)
              by_cases hfolder : w.tree.look s.settings.tutorialFile.place = some .folder
              · exact .inr ⟨rfl, .inr (.inr ⟨state, ht, hfolder⟩)⟩
              · exact .inl (setTutorial_ends hr (hset.mpr hfolder))

section Ends

variable (hr : s.Recordable)

include hr

/-- A command whose home directory is refused ends with 1. -/
theorem CarriesOut.run_of_refused (hc : CarriesOut s args path command) {errno : Errno} {q : Path}
    (hhome : w.tree.makeFolders s.settings.homeDir = (t, .error (.refused errno q))) :
    ∃ w', run s args w = .ok 1 w' := by
  obtain ⟨u, hrecord⟩ := record_of_recordable hr
    (.directoryFailed path (.notCreated s.settings.homeDir errno)) { w with tree := t }
  rw [hc.run_eq, runCommand_of_ended (enter_of_refused_of_record hhome hrecord)]
  exact ⟨_, rfl⟩

/-- A command that does not pass ends with 0. -/
theorem CarriesOut.run_of_not_passes (hc : CarriesOut s args path command)
    (hf : s.settings.commonsDir.Fits)
    (hhome : w.tree.makeFolders s.settings.homeDir = (t, .ok ())) (hpass : ¬ Passes s path t) :
    ∃ w', run s args w = .ok 0 w' := by
  rw [Passes, not_or, not_or, Bool.not_eq_true, Bool.not_eq_true] at hpass
  obtain ⟨hlisted, hcompletion, hi⟩ := hpass
  have hclosed : (Gate.isListed Gate.openPaths path || Gate.isCompletion path) = false := by
    rw [hlisted, hcompletion, Bool.or_false]
  have hpresent := present_of_not_initialized (stands_of_makeFolders hhome) hf hi
  obtain ⟨u, hrecord⟩ := record_of_recordable hr (.blocked path) { w with tree := t }
  have henter := enter_of_absent hhome hclosed hpresent
  rw [hrecord] at henter
  rw [hc.run_eq, runCommand_of_ended henter]
  exact ⟨_, rfl⟩

/-- **A tutorial state that cannot be found out is reported**, where it is asked for, and the exit
code is 1. -/
theorem run_of_unreadable (ha : AsksFor s args w t) {fault : TutorialFault}
    (hfind : find s.settings.tutorialFile t = .error (.tutorial fault)) :
    ∃ w' before, run s args w = .ok 1 w' ∧
      w'.stderr = before ++ (Text.ofString "rit: " ++ fault.message ++ Text.ofString "\n") := by
  have hf : s.settings.commonsDir.Fits := fits_of_find hfind
  cases ha with
  | toShow ht hhome hi =>
      let told : World := { w with tree := t }.complaining fault.message
      have hshow : showTutorial s { w with tree := t } = .ok 1 told := by
        rw [showTutorial_apply, hfind]
      have hleave : leave s tutorialPath 1 told = .ok 1 told :=
        leave_of_initialized tutorialPath_unlisted hi 1
      rw [(CarriesOut.task ht).run_of_passes hhome (passes_of_initialized hi _), Act.bind_apply,
        body, hshow]
      exact ⟨told, w.stderr, hleave, rfl⟩
  | toRemind hc hhome hpass hbody hcheck hi =>
      have hstands := hc.stands hbody hcheck (stands_of_makeFolders hhome)
      rw [hc.run_of_body hhome hpass hbody hcheck, remind_apply hr,
        present_of_not_initialized hstands hf hi, hfind]
      exact ⟨_, _, rfl, rfl⟩

variable (hnetwork : ∀ kind message, s.network ≠ .foreign kind message)

include hnetwork

/-- Where no failure is passed on, the look for a version ends. -/
theorem exists_checks_ok (path : String) (w : World) : ∃ w', Checks s path w (.ok () w') := by
  obtain ⟨r, hcheck⟩ := exists_checks path hr w
  cases r with
  | ok u w' => exact ⟨w', hcheck⟩
  | error f w' =>
      cases hcheck with
      | foreign h hforeign => exact absurd hforeign (hnetwork _ _)

/-- **An invocation that ends with a fault escapes.** -/
theorem escapes_of_error {f : Fault} {w' : World} (h : run s args w = .error f w') :
    Escapes s args w := by
  have ends {a : Result Int} (ha : run s args w = a) (hok : ∃ code u, a = .ok code u) :
      Escapes s args w := by
    obtain ⟨code, u, rfl⟩ := hok
    rw [ha] at h
    cases h
  rcases carriesOut_or s args with ⟨path, command, hc⟩ | hrun
  swap
  · exact ends (congrFun hrun w) (conclude_succeeds hnetwork _ w)
  rcases hhome : w.tree.makeFolders s.settings.homeDir with ⟨t, g | ⟨⟩⟩
  · cases g with
    | embeddedNul =>
        refine .nul hc (by_contra fun hn => ?_)
        exact makeFolders_ne_embeddedNul (t := w.tree) (by simpa using hn) (by rw [hhome])
    | refused errno q => exact ends rfl ⟨1, hc.run_of_refused hr hhome⟩
  by_cases hf : s.settings.commonsDir.Fits
  swap
  · exact .long hc hhome hf
  by_cases hpass : Passes s path t
  swap
  · exact ends rfl ⟨0, hc.run_of_not_passes hr hf hhome hpass⟩
  have hstands : Stands t s.settings.homeDir := stands_of_makeFolders hhome
  rcases hc.ends_or (w := { w with tree := t }) hr hstands hf with
    ⟨code, w₁, hbody⟩ | ⟨rfl, hbody⟩
  · obtain ⟨w₂, hcheck⟩ := exists_checks_ok hr hnetwork path w₁
    have hrun : run s args w = remind s path code w₂ := hc.run_of_body hhome hpass hbody hcheck
    by_cases hi : Initialized s.settings w₂.tree
    · exact ends (hrun.trans (remind_of_initialized hr hi)) ⟨_, _, rfl⟩
    have hstands' : Stands w₂.tree s.settings.homeDir :=
      hc.stands (w := { w with tree := t }) hbody hcheck hstands
    rw [remind_apply hr, present_of_not_initialized hstands' hf hi] at hrun
    cases hfind : find s.settings.tutorialFile w₂.tree with
    | ok tutorial =>
        rw [hfind] at hrun
        exact ends hrun ⟨_, _, rfl⟩
    | error g =>
        by_cases hg : ∃ fault, g = .tutorial fault
        · obtain ⟨fault, rfl⟩ := hg
          rw [hfind] at hrun
          exact ends hrun ⟨_, _, rfl⟩
        · obtain ⟨bytes, hfile, hgarbled⟩ := (find_tutorial_error_iff hstands' hf).mp
            ⟨g, hfind, fun fault he => hg ⟨fault, he⟩⟩
          exact .garbled (.toRemind hc hhome hpass hbody hcheck hi) hfile hgarbled
  · have hi := initialized_of_passes hpass
    rcases hbody with ⟨ht, bytes, hfile, hgarbled⟩ | ht | ⟨state, ht, hfolder⟩
    · exact .garbled (.toShow ht hhome hi) hfile hgarbled
    · exact .blank ht hhome hi
    · exact .occupied ht hhome hi hfolder

/-- An invocation ends with a fault where the path of its commons directory is too long. -/
theorem CarriesOut.error_of_long (hc : CarriesOut s args path command)
    (hhome : w.tree.makeFolders s.settings.homeDir = (t, .ok ()))
    (hlong : ¬ s.settings.commonsDir.Fits) : ∃ f w', run s args w = .error f w' := by
  have hn : s.settings.homeDir.hasNul = false := (fits_of_makeFolders_eq_ok (by rw [hhome])).1
  by_cases hopen : (Gate.isListed Gate.openPaths path || Gate.isCompletion path) = true
  · have hpass : Passes s path t := by
      rw [Bool.or_eq_true] at hopen
      exact hopen.imp_right .inl
    cases hbody : command { w with tree := t } with
    | error f w₁ =>
        rw [hc.run_of_passes hhome hpass, Act.bind_apply, hbody]
        exact ⟨f, w₁, rfl⟩
    | ok code w₁ =>
        obtain ⟨w₂, hcheck⟩ := exists_checks_ok hr hnetwork path w₁
        rw [hc.run_of_body hhome hpass hbody hcheck, remind_apply hr,
          present_commonsDir_of_not_fits hn hlong]
        exact ⟨_, _, rfl⟩
  · have henter := enter_of_unknown hhome (by simpa using hopen)
      (present_commonsDir_of_not_fits hn hlong t)
    rw [hc.run_eq, runCommand_of_error henter]
    exact ⟨_, _, rfl⟩

/-- **An invocation that escapes ends with a fault.** -/
theorem error_of_escapes (h : Escapes s args w) : ∃ f w', run s args w = .error f w' := by
  cases h with
  | nul hc hnul =>
      rw [hc.run_eq, runCommand_of_error (enter_of_hasNul (makeFolders_of_hasNul hnul))]
      exact ⟨_, _, rfl⟩
  | long hc hhome hlong => exact hc.error_of_long hr hnetwork hhome hlong
  | blank ht hhome hi =>
      rw [(CarriesOut.task ht).run_of_passes hhome (passes_of_initialized hi _)]
      exact ⟨.unknownState, _, rfl⟩
  | @occupied t state ht hhome hi hfolder =>
      have hstands := stands_of_makeFolders hhome
      have hset := set_tutorial_iff hstands (fits_of_present hi) (mem_states_of_task ht)
      obtain ⟨f, w', hbody⟩ := setTutorial_fails (w := { w with tree := t })
        (mt hset.mp (not_not_intro hfolder))
      rw [(CarriesOut.task ht).run_of_passes hhome (passes_of_initialized hi _), Act.bind_apply,
        body, hbody]
      exact ⟨f, w', rfl⟩
  | garbled ha hfile hg =>
      cases ha with
      | toShow ht hhome hi =>
          obtain ⟨f, hfind, hf⟩ := (find_tutorial_error_iff (stands_of_makeFolders hhome)
            (fits_of_present hi)).mpr ⟨_, hfile, hg⟩
          rw [(CarriesOut.task ht).run_of_passes hhome (passes_of_initialized hi _),
            Act.bind_apply, body, showTutorial_of_error hfind hf]
          exact ⟨f, _, rfl⟩
      | toRemind hc hhome hpass hbody hcheck hi =>
          by_cases hlong : s.settings.commonsDir.Fits
          · have hstands := hc.stands hbody hcheck (stands_of_makeFolders hhome)
            obtain ⟨f, hfind, hf⟩ := (find_tutorial_error_iff hstands hlong).mpr ⟨_, hfile, hg⟩
            rw [hc.run_of_body hhome hpass hbody hcheck,
              remind_of_error hr (present_of_not_initialized hstands hlong hi) hfind hf]
            exact ⟨f, _, rfl⟩
          · exact hc.error_of_long hr hnetwork hhome hlong

end Ends

/-- **Where events cannot be recorded**, an upgrade ends with a fault. -/
theorem error_of_not_recordable (hr : ¬ s.Recordable) (w : World) :
    ∃ f w', run s ["upgrade"] w = .error f w' := by
  rw [Surroundings.Recordable, Classical.not_imp, Bool.not_eq_false] at hr
  obtain ⟨hon, hnul⟩ := hr
  have ht : taskOf? ["upgrade"] = some (.upgrade .print) := rfl
  have hc : CarriesOut s ["upgrade"] (Gate.commandPath ["upgrade"]) (upgrade s .print) := .task ht
  rcases hhome : w.tree.makeFolders s.settings.homeDir with ⟨t, g | ⟨⟩⟩
  · cases g with
    | embeddedNul =>
        rw [hc.run_eq, runCommand_of_error (enter_of_hasNul hhome)]
        exact ⟨_, _, rfl⟩
    | refused errno q =>
        rw [hc.run_eq, runCommand_of_error (enter_of_refused_of_hasNul hon hnul hhome)]
        exact ⟨_, _, rfl⟩
  · have hpass : Passes s (Gate.commandPath ["upgrade"]) t := .inl (by decide)
    have hrecord := record_of_hasNul hon hnul (Records.upgradeShown (s := s) .print).sound
    obtain ⟨shown, hbody⟩ : ∃ shown, upgrade s .print { w with tree := t } =
        .error (.file .embeddedNul) shown := by
      simp only [upgrade, if_true]
      rw [Act.bind_apply]
      exact ⟨_, (Act.bind_apply _ _ _).trans (by rw [hrecord])⟩
    rw [hc.run_of_passes hhome hpass, Act.bind_apply, hbody]
    exact ⟨_, _, rfl⟩

/-- **How invocations end.** Let the network give a response or a failed request. If events can
be recorded, an invocation ends with an exit code unless it escapes, and a tutorial state that
cannot be found out is reported on the error stream and makes the exit code 1. If they cannot, an
upgrade always ends with a fault. -/
theorem invocation_ends (s : Surroundings)
    (hnetwork : ∀ kind message, s.network ≠ .foreign kind message) :
    (s.Recordable → ∀ args w,
      ((∃ code w', run s args w = .ok code w') ↔ ¬ Escapes s args w) ∧
      ∀ t, AsksFor s args w t →
        (∀ bytes, t.look s.settings.tutorialFile.place = some (.file bytes) ↔
          w.tree.look s.settings.tutorialFile.place = some (.file bytes)) ∧
        ∀ fault, find s.settings.tutorialFile t = .error (.tutorial fault) →
          ∃ w' before, run s args w = .ok 1 w' ∧
            w'.stderr =
              before ++ (Text.ofString "rit: " ++ fault.message ++ Text.ofString "\n")) ∧
    (¬ s.Recordable → ∀ w, ∃ f w', run s ["upgrade"] w = .error f w') := by
  refine ⟨fun hr args w => ⟨⟨?_, ?_⟩, fun t ha => ⟨ha.look_tutorialFile, fun fault hfind =>
    run_of_unreadable hr ha hfind⟩⟩, fun hr w => error_of_not_recordable hr w⟩
  · rintro ⟨code, w', hok⟩ hescapes
    obtain ⟨f, u, herror⟩ := error_of_escapes hr hnetwork hescapes
    rw [hok] at herror
    cases herror
  · intro hescapes
    cases h : run s args w with
    | ok code w' => exact ⟨code, w', rfl⟩
    | error f w' => exact absurd (escapes_of_error hr hnetwork h) hescapes

open Session in
/-- A completion where a folder stands in the place of the tutorial file: the state is asked for,
cannot be found out, and is reported. -/
theorem invocation_ends_home :
    let s := atHome
    let w : World := { tree := [("home", .folder [("tutorial.json", .folder [])])] }
    let fault : TutorialFault := .unreadable s.settings.tutorialFile (.refused .isDirectory)
    (∀ kind message, s.network ≠ .foreign kind message) ∧ s.Recordable ∧
      AsksFor s ["__complete", "x"] w w.tree ∧
      find s.settings.tutorialFile w.tree = .error (.tutorial fault) ∧
      ¬ Escapes s ["__complete", "x"] w ∧
      ∃ w' before, run s ["__complete", "x"] w = .ok 1 w' ∧
        w'.stderr = before ++ (Text.ofString "rit: " ++ fault.message ++ Text.ofString "\n") := by
  let w : World := { tree := [("home", .folder [("tutorial.json", .folder [])])] }
  have hnetwork : ∀ kind message, atHome.network ≠ .foreign kind message :=
    fun kind message => by simp [atHome, quietAt, quiet, Occasion.surroundings]
  have hr : atHome.Recordable := fun _ => by decide
  have hpath : Gate.commandPath [Gate.completionMarker] ≠ Gate.programName := by decide
  have hi : ¬ Initialized atHome.settings w.tree := by
    rw [Initialized]
    decide
  have hpass : Passes atHome (Gate.commandPath [Gate.completionMarker]) w.tree :=
    .inr (.inl (by decide))
  have hasks := AsksFor.toRemind (w := w) (.completion ["x"]) rfl hpass rfl (.passedOver hpath) hi
  obtain ⟨hends, hasked⟩ := (invocation_ends atHome hnetwork).1 hr ["__complete", "x"] w
  obtain ⟨w', before, hrun, hstderr⟩ := (hasked _ hasks).2 _ rfl
  exact ⟨hnetwork, hr, hasks, rfl, hends.mp ⟨1, w', hrun⟩, w', before, hrun, hstderr⟩

open Session in
/-- An invocation that ends with no exit code: a completion where the tutorial file holds a byte
that begins no UTF-8. -/
theorem no_exitCode_of_garbled :
    let w : World := { tree := [("home", .folder [("tutorial.json", .file [0xff])])] }
    (∃ e w', run atHome ["__complete", "x"] w = .error (.decoding e) w') ∧
      ∀ code w', run atHome ["__complete", "x"] w ≠ .ok code w' := by
  let w : World := { tree := [("home", .folder [("tutorial.json", .file [0xff])])] }
  have hrun : ∃ e w', run atHome ["__complete", "x"] w = .error (.decoding e) w' := ⟨_, _, rfl⟩
  refine ⟨hrun, fun code w' h => ?_⟩
  obtain ⟨e, u, herror⟩ := hrun
  rw [herror] at h
  cases h

end Program

end CommandGate
