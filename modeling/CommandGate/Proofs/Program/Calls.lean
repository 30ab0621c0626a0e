import CommandGate.Proofs.Program.Endings
import CommandGate.Proofs.Program.Touches
import CommandGate.Proofs.Program.Version

/-!
# The Calls That an Invocation Makes

An invocation reaches outside the file tree in two ways: it asks the network for the published
version, and it launches a program for an upgrade. Only the answer to the version option and the
look for a version after the bare command make a request, and only the body of an upgrade
launches anything; every other part of an invocation makes no call (`World.SameCalls`).

## Main results

* `Program.body_makes`, `Program.leave_makes`: the calls of a body and of what follows it.
* `Program.run_makes_of_version`, `Program.run_makes_of_overview`: the invocations that make a
  request.
* `Program.run_makes_of_upgrade`: those that launch a program.
* `Program.run_sameCalls`: no other invocation makes a call.
-/

namespace CommandGate

namespace World

/-- What calls a step **makes**: requests and launches that are added to those made before. -/
structure Makes (requests : List Request) (launches : List (List String)) (w w' : World) :
    Prop where
  requests : w'.requests = w.requests ++ requests
  launches : w'.launches = w.launches ++ launches

/-- No calls are made. -/
abbrev SameCalls : World → World → Prop :=
  Makes [] []

variable {requests requests' : List Request} {launches launches' : List (List String)}

/-- The calls of two steps are made in their order. -/
theorem Makes.append {u v w : World} (h : Makes requests launches u v)
    (h' : Makes requests' launches' v w) :
    Makes (requests ++ requests') (launches ++ launches') u w :=
  ⟨by rw [h'.requests, h.requests, List.append_assoc],
    by rw [h'.launches, h.launches, List.append_assoc]⟩

/-- A step that makes no calls adds none to those before it. -/
theorem Makes.append_same {u v w : World} (h : Makes requests launches u v)
    (h' : SameCalls v w) : Makes requests launches u w := by
  have hboth := h.append h'
  rwa [List.append_nil, List.append_nil] at hboth

theorem SameCalls.of_eq {w w' : World} (h : w'.requests = w.requests)
    (h' : w'.launches = w.launches) : SameCalls w w' :=
  ⟨by rw [h, List.append_nil], by rw [h', List.append_nil]⟩

theorem SameCalls.refl (w : World) : SameCalls w w :=
  .of_eq rfl rfl

/-- Two steps that make no calls make none together. -/
theorem SameCalls.trans (u v w : World) (h : SameCalls u v) (h' : SameCalls v w) :
    SameCalls u w :=
  h.append h'

/-- Calls are made by the first of two steps only. -/
theorem makes_bind {α β : Type} {a : Act World α} {f : α → Act World β}
    (ha : Act.Keeps (Makes requests launches) a) (hf : ∀ x, Act.Keeps SameCalls (f x)) :
    Act.Keeps (Makes requests launches) (a >>= f) := by
  intro w
  have h := ha w
  rw [Act.after] at h
  rw [Act.after_bind]
  cases hw : a w with
  | ok x w' =>
      rw [hw] at h
      exact h.append_same (hf x w')
  | error e w' =>
      rw [hw] at h
      exact h

/-- No calls are made in answer to a fault. -/
theorem makes_tryCatch {α : Type} {a : Act World α} {f : Fault → Act World α}
    (ha : Act.Keeps (Makes requests launches) a) (hf : ∀ e, Act.Keeps SameCalls (f e)) :
    Act.Keeps (Makes requests launches) (tryCatch a f) := by
  intro w
  have h := ha w
  rw [Act.after] at h ⊢
  rw [Act.tryCatch_apply]
  cases hw : a w with
  | ok x w' =>
      rw [hw] at h
      exact h
  | error e w' =>
      rw [hw] at h
      exact h.append_same (hf e w')

end World

namespace Program

open World (Makes SameCalls makes_bind makes_tryCatch)

/-! ### Steps without calls -/

theorem print_sameCalls (stream : Stream) (t : Text) :
    Act.Keeps SameCalls (World.print stream t) := by
  intro w
  cases stream <;> exact .of_eq rfl rfl

theorem look_sameCalls {α : Type} (f : FileTree → Except Fault α) :
    Act.Keeps SameCalls (World.look f) := by
  intro w
  rw [World.after_look]
  exact .refl w

theorem change_sameCalls (f : FileTree → FileTree × Except Fault Unit) :
    Act.Keeps SameCalls (World.change f) := by
  intro w
  rw [World.after_change]
  exact .of_eq rfl rfl

variable (s : Surroundings) (path : String)

/-- Recording makes no calls. -/
theorem record_sameCalls (e : Telemetry.Event) : Act.Keeps SameCalls (Telemetry.record s e) := by
  intro w
  rcases Telemetry.after_record s e w with hafter | ⟨r, -, -, hafter⟩
  · rw [hafter]
    exact .refl w
  · rw [hafter]
    exact .of_eq rfl rfl

theorem printLine_sameCalls (stream : Stream) (t : Text) :
    Act.Keeps SameCalls (World.printLine stream t) :=
  print_sameCalls stream (t ++ "\n")

theorem reportFailure_sameCalls (message : Text) : Act.Keeps SameCalls (reportFailure message) :=
  printLine_sameCalls _ _

/-- The gate makes no calls. -/
theorem enter_sameCalls : Act.Keeps SameCalls (enter s path) := by
  have hhome : Act.Keeps SameCalls
      (Lifecycle.makeHome (collaborators s .stdout) s.settings path) := by
    rw [makeHome_eq]
    refine .tryCatch SameCalls.trans (change_sameCalls _) fun f => ?_
    simp only [noteDirectory]
    split
    · exact .bind SameCalls.trans (record_sameCalls s _) fun _ => .throw SameCalls.refl _
    · exact .throw SameCalls.refl _
  have hadmission : Act.Keeps SameCalls (admission s path) := by
    rw [admission]
    split
    · exact .pure SameCalls.refl _
    · refine .bind SameCalls.trans (look_sameCalls _) fun found => ?_
      split
      · exact .pure SameCalls.refl _
      · exact .bind SameCalls.trans (record_sameCalls s _) fun _ => .pure SameCalls.refl _
  have hanswer (decision : Gate.Decision) : Act.Keeps SameCalls (answer decision) := by
    cases decision with
    | proceed => exact .pure SameCalls.refl _
    | earlyExit message code =>
        exact .bind SameCalls.trans (print_sameCalls _ _) fun _ => .pure SameCalls.refl _
  rw [enter_eq]
  refine .tryCatch SameCalls.trans
    (.bind SameCalls.trans hhome fun _ => .bind SameCalls.trans hadmission hanswer) fun f => ?_
  rw [reportDirectory.eq_def]
  split
  · exact .bind SameCalls.trans (reportFailure_sameCalls _) fun _ => .pure SameCalls.refl _
  · exact .throw SameCalls.refl _

theorem showBanner_sameCalls : Act.Keeps SameCalls (showBanner s path) := by
  have hnote (f : Fault) : Act.Keeps SameCalls (noteTutorial s path f) := by
    rw [noteTutorial.eq_def]
    split
    · exact .bind SameCalls.trans (record_sameCalls s _) fun _ => .throw SameCalls.refl _
    · exact .throw SameCalls.refl _
  rw [showBanner]
  refine .bind SameCalls.trans (look_sameCalls _) fun found => ?_
  split
  · exact .pure SameCalls.refl _
  · exact .bind SameCalls.trans (.tryCatch SameCalls.trans (look_sameCalls _) hnote)
      fun tutorial => print_sameCalls _ _

/-- A fault that is caught after a body is answered without calls. -/
theorem reportTutorial_sameCalls (f : Fault) : Act.Keeps SameCalls (reportTutorial f) := by
  rw [reportTutorial.eq_def]
  split
  · exact .bind SameCalls.trans (reportFailure_sameCalls _) fun _ => .pure SameCalls.refl _
  · exact .throw SameCalls.refl _

/-- The reminder makes no calls. -/
theorem remind_sameCalls (code : Int) : Act.Keeps SameCalls (remind s path code) := by
  rw [remind]
  exact .tryCatch SameCalls.trans
    (.bind SameCalls.trans (showBanner_sameCalls s path) fun _ => .pure SameCalls.refl _)
    reportTutorial_sameCalls

/-! ### The request for the published version -/

/-- The request for the published version. -/
def publishedRequest : Request :=
  ⟨s.settings.url, Release.headers, s.settings.timeout⟩

/-- Looking for news makes one request. -/
theorem news?_makes (running : String) :
    Act.Keeps (Makes [publishedRequest s] []) (Release.news? (Release.current s) running) := by
  have hsend : Act.Keeps (Makes [publishedRequest s] []) (World.send s (publishedRequest s)) :=
    fun w => ⟨rfl, (List.append_nil _).symm⟩
  have hcurrent : Act.Keeps (Makes [publishedRequest s] []) (Release.current s) := by
    rw [Release.current, Release.lookUp]
    refine makes_bind hsend fun a => ?_
    split
    · exact .pure SameCalls.refl _
    · exact .throw SameCalls.refl _
  rw [news?_eq]
  refine makes_tryCatch (makes_bind hcurrent fun _ => .pure SameCalls.refl _) fun f => ?_
  rw [noNews.eq_def]
  split
  · exact .pure SameCalls.refl _
  · exact .throw SameCalls.refl _

/-- What follows a body makes no calls but after the bare command. -/
theorem leave_sameCalls (hp : path ≠ Gate.programName) (code : Int) :
    Act.Keeps SameCalls (leave s path code) := by
  intro w
  have hleave : leave s path code w = remind s path code w := leave_of_checks (.passedOver hp)
  rw [Act.after, hleave]
  exact remind_sameCalls s path code w

/-- **After the bare command one request is made.** -/
theorem leave_makes (code : Int) :
    Act.Keeps (Makes [publishedRequest s] []) (leave s Gate.programName code) := by
  have hlisted : Gate.isListed Gate.versionPaths Gate.programName = true := by decide
  have hverify : Act.Keeps (Makes [publishedRequest s] [])
      (Lifecycle.verifyNewVersion
        (finding s (World.look (Tutorial.find s.settings.tutorialFile))
          (streamAfter Gate.programName)) s.settings Gate.programName) := by
    rw [verifyNewVersion_eq, if_pos hlisted]
    refine makes_bind (news?_makes s _) fun latest => ?_
    refine .bind SameCalls.trans (record_sameCalls s _) fun _ => ?_
    cases latest with
    | none => exact .pure SameCalls.refl _
    | some version => exact print_sameCalls _ _
  rw [leave_eq_showBanner]
  refine makes_tryCatch (makes_bind hverify fun _ => ?_) reportTutorial_sameCalls
  exact .bind SameCalls.trans (showBanner_sameCalls s _) fun _ => .pure SameCalls.refl _

/-! ### Bodies -/

/-- What the body of a task launches. -/
def launchesOf (env : Environment) : Task → List (List String)
  | .upgrade mode => if mode = .print then [] else [upgradeCommand env mode]
  | _ => []

/-- Setting up makes no calls. -/
theorem setUp_sameCalls : Act.Keeps SameCalls (setUp s) := by
  rw [setUp_eq]
  refine .bind SameCalls.trans (look_sameCalls _) fun already => ?_
  have hcreate : Act.Keeps SameCalls (Directory.create s.settings.commonsDir) :=
    change_sameCalls _
  refine .bind SameCalls.trans (.tryCatch SameCalls.trans
    (.bind SameCalls.trans hcreate fun _ => .pure SameCalls.refl _) fun f => ?_) fun failure => ?_
  · split
    · exact .pure SameCalls.refl _
    · exact .throw SameCalls.refl _
  · split
    · refine .bind SameCalls.trans (reportFailure_sameCalls _) fun _ => ?_
      exact .bind SameCalls.trans (record_sameCalls s _) fun _ => .pure SameCalls.refl _
    · refine .bind SameCalls.trans (record_sameCalls s _) fun _ => ?_
      exact .bind SameCalls.trans (printLine_sameCalls _ _) fun _ => .pure SameCalls.refl _

/-- Neither does showing the tutorial state. -/
theorem showTutorial_sameCalls : Act.Keeps SameCalls (showTutorial s) := by
  rw [showTutorial_eq]
  refine .tryCatch SameCalls.trans (.bind SameCalls.trans (look_sameCalls _) fun tutorial =>
    .bind SameCalls.trans (printLine_sameCalls _ _) fun _ => .pure SameCalls.refl _)
    reportTutorial_sameCalls

/-- Nor does setting it. -/
theorem setTutorial_sameCalls (state : Option String) :
    Act.Keeps SameCalls (setTutorial s state) := by
  cases state with
  | none => exact .throw SameCalls.refl _
  | some state =>
      refine .bind SameCalls.trans (change_sameCalls _) fun _ => ?_
      refine .bind SameCalls.trans (record_sameCalls s _) fun _ => ?_
      exact .bind SameCalls.trans (printLine_sameCalls _ _) fun _ => .pure SameCalls.refl _

/-- **An upgrade launches the command of its mode**, unless the commands are only shown. -/
theorem upgrade_makes (mode : UpgradeMode) :
    Act.Keeps (Makes [] (launchesOf s.environment (.upgrade mode))) (upgrade s mode) := by
  rw [launchesOf]
  simp only [upgrade]
  split
  · refine .bind SameCalls.trans (printLine_sameCalls _ _) fun _ => ?_
    exact .bind SameCalls.trans (record_sameCalls s _) fun _ => .pure SameCalls.refl _
  · have hlaunch : Act.Keeps (Makes [] [upgradeCommand s.environment mode])
        (World.launch s (upgradeCommand s.environment mode)) :=
      fun w => ⟨(List.append_nil _).symm, rfl⟩
    refine makes_bind hlaunch fun outcome => ?_
    cases outcome with
    | ended code =>
        exact .bind SameCalls.trans (record_sameCalls s _) fun _ => .pure SameCalls.refl _
    | notStarted errno reason =>
        refine .bind SameCalls.trans (reportFailure_sameCalls _) fun _ => ?_
        exact .bind SameCalls.trans (record_sameCalls s _) fun _ => .pure SameCalls.refl _

/-- **The calls of a body.** -/
theorem body_makes (task : Task) :
    Act.Keeps (Makes [] (launchesOf s.environment task)) (body s task) := by
  have printed (t : Text) : Act.Keeps SameCalls (do
      World.print .stdout t
      pure 0 : Act World Int) :=
    .bind SameCalls.trans (print_sameCalls _ _) fun _ => .pure SameCalls.refl _
  cases task with
  | overview => exact printed _
  | help => exact printed _
  | init => exact setUp_sameCalls s
  | upgrade mode => exact upgrade_makes s mode
  | showTutorial => exact showTutorial_sameCalls s
  | setTutorial state => exact setTutorial_sameCalls s state
  | completionScript shell => exact printed _

/-! ### Invocations -/

variable {s path} {args : List String} {command : Act World Int} {w : World} {t : FileTree}

/-- A task is under the path of the bare command only if it is for the bare command. -/
theorem commandPath_names_eq_iff {task : Task} :
    Gate.commandPath task.names = Gate.programName ↔ task = .overview := by
  have others : ∀ names ∈ [["help"], ["init"], ["upgrade"], ["tutorial"]],
      Gate.commandPath names ≠ Gate.programName := by decide
  cases task with
  | overview => decide
  | completionScript shell => cases shell <;> decide
  | _ => simpa using others _ (by simp [Task.names])

/-- Whatever recording comes to, it changes no more than the tree. -/
theorem record_cases (e : Telemetry.Event) :
    ∃ u, Telemetry.record s e w = .ok () { w with tree := u } ∨
      ∃ f, Telemetry.record s e w = .error f { w with tree := u } := by
  have hafter : ∃ u, (Telemetry.record s e).after w = { w with tree := u } := by
    rcases Telemetry.after_record s e w with hsame | ⟨r, -, -, happended⟩
    · exact ⟨w.tree, hsame⟩
    · exact ⟨_, happended⟩
  obtain ⟨u, hu⟩ := hafter
  rw [Act.after] at hu
  cases hrecord : Telemetry.record s e w with
  | ok x w' =>
      rw [hrecord] at hu
      exact ⟨u, .inl (congrArg _ hu)⟩
  | error f w' =>
      rw [hrecord] at hu
      exact ⟨u, .inr ⟨f, congrArg _ hu⟩⟩

/-- **A command ends where its home directory cannot be made**: with 1 and a message on the error
stream, or with a fault. -/
theorem runCommand_of_not_made {g : FileFault}
    (hhome : w.tree.makeFolders s.settings.homeDir = (t, .error g)) :
    ∃ u, (∃ message, runCommand s path command w =
        .ok 1 ({ w with tree := u }.complaining message)) ∨
      ∃ f, runCommand s path command w = .error f { w with tree := u } := by
  cases g with
  | embeddedNul => exact ⟨t, .inr ⟨_, runCommand_of_error (enter_of_hasNul hhome)⟩⟩
  | refused errno q =>
      obtain ⟨f, u, hmake⟩ : ∃ f u, Lifecycle.makeHome (collaborators s .stdout) s.settings
          path w = .error f { w with tree := u } := by
        rw [makeHome_of_refused hhome]
        obtain ⟨u, hrecord | ⟨f, hrecord⟩⟩ := record_cases (s := s) (w := { w with tree := t })
          (Lifecycle.commandEvent "lifecycle.directory_failed" path
            [("home", .string s.settings.homeDir.toString),
              ("error", .string (DirectoryFault.notCreated s.settings.homeDir errno).message)])
        · exact ⟨_, u, by rw [hrecord]⟩
        · exact ⟨f, u, by rw [hrecord]⟩
      have henter : enter s path w = reportDirectory f { w with tree := u } := by
        rw [enter_eq, Act.tryCatch_apply, Act.bind_apply, hmake]
      by_cases hf : ∃ fault, f = .directory fault
      · obtain ⟨fault, rfl⟩ := hf
        exact ⟨u, .inl ⟨fault.message, runCommand_of_ended henter⟩⟩
      · refine ⟨u, .inr ⟨f, runCommand_of_error (henter.trans ?_)⟩⟩
        cases f with
        | directory fault => exact absurd ⟨fault, rfl⟩ hf
        | _ => rfl

/-- A command makes no calls if its body makes none and it is not the bare command. -/
theorem runCommand_sameCalls (hbody : Act.Keeps SameCalls command)
    (hp : path ≠ Gate.programName) : Act.Keeps SameCalls (runCommand s path command) := by
  rw [runCommand]
  refine .bind SameCalls.trans (enter_sameCalls s path) fun decision => ?_
  cases decision with
  | some code => exact .pure SameCalls.refl _
  | none => exact .bind SameCalls.trans hbody fun code => leave_sameCalls s path hp code

/-- A command makes no calls where the home directory cannot be made. -/
theorem runCommand_sameCalls_of_not_made
    (hhome : ∀ t, w.tree.makeFolders s.settings.homeDir ≠ (t, .ok ())) :
    SameCalls w ((runCommand s path command).after w) := by
  rcases h : w.tree.makeFolders s.settings.homeDir with ⟨t, g | ⟨⟩⟩
  · obtain ⟨u, hends⟩ : ∃ u, (∃ message, runCommand s path command w =
        .ok 1 ({ w with tree := u }.complaining message)) ∨
        ∃ f, runCommand s path command w = .error f { w with tree := u } :=
      runCommand_of_not_made h
    rcases hends with ⟨message, hrun⟩ | ⟨f, hrun⟩
    · rw [Act.after, hrun]
      exact .of_eq rfl rfl
    · rw [Act.after, hrun]
      exact .of_eq rfl rfl
  · exact absurd h (hhome t)

/-- **A command line that asks for the version** makes one request, and changes no file. -/
theorem run_makes_of_version (h : CommandLine.read grammar args = .version) (w : World) :
    Makes [publishedRequest s] [] w ((run s args).after w) ∧
      ((run s args).after w).tree = w.tree := by
  rw [run_of_version h]
  refine ⟨?_, conclude_tree s .version w⟩
  have hreport : Act.Keeps (Makes [publishedRequest s] [])
      (Release.report (Release.current s) s.settings.version s.settings.buildDate
        s.environment.interpreter) :=
    makes_bind (news?_makes s _) fun _ => .pure SameCalls.refl _
  exact makes_bind hreport
    (fun _ => .bind SameCalls.trans (print_sameCalls _ _) fun _ => .pure SameCalls.refl _) w

/-- **The bare command makes one request** once the home directory is made. -/
theorem run_makes_of_overview (ht : taskOf? args = some .overview)
    (hhome : w.tree.makeFolders s.settings.homeDir = (t, .ok ())) :
    Makes [publishedRequest s] [] w ((run s args).after w) := by
  have hleave := leave_makes s 0 (helped s t w)
  rw [Act.after, run_of_overview ht hhome]
  exact ⟨hleave.requests, hleave.launches⟩

/-- **An upgrade launches the command of its mode** once the home directory is made. -/
theorem run_makes_of_upgrade {mode : UpgradeMode} (ht : taskOf? args = some (.upgrade mode))
    (hhome : w.tree.makeFolders s.settings.homeDir = (t, .ok ())) :
    Makes [] (launchesOf s.environment (.upgrade mode)) w ((run s args).after w) := by
  have hpass : Passes s (Gate.commandPath ["upgrade"]) t := .inl (by decide)
  have hmakes := makes_bind (upgrade_makes s mode)
    (leave_sameCalls s (Gate.commandPath ["upgrade"]) (by decide)) { w with tree := t }
  have hrun : run s args w = (do leave s (Gate.commandPath ["upgrade"]) (← upgrade s mode) :
      Act World Int) { w with tree := t } := (CarriesOut.task ht).run_of_passes hhome hpass
  rw [Act.after, hrun]
  exact ⟨hmakes.requests, hmakes.launches⟩

/-- **No other invocation makes a call.** -/
theorem run_sameCalls (hversion : CommandLine.read grammar args ≠ .version)
    (hother : ∀ task t, taskOf? args = some task →
      w.tree.makeFolders s.settings.homeDir = (t, .ok ()) →
        task ≠ .overview ∧ launchesOf s.environment task = []) :
    SameCalls w ((run s args).after w) := by
  rcases carriesOut_or s args with ⟨path, command, hc⟩ | hrun
  · rw [hc.run_eq]
    by_cases hhome : ∃ t, w.tree.makeFolders s.settings.homeDir = (t, .ok ())
    · obtain ⟨t, hhome⟩ := hhome
      cases hc with
      | task ht =>
          rename_i task
          obtain ⟨hne, hlaunches⟩ := hother task t ht hhome
          have hbody := body_makes s task
          rw [hlaunches] at hbody
          exact runCommand_sameCalls hbody (mt commandPath_names_eq_iff.mp hne) w
      | completion words =>
          exact runCommand_sameCalls (.bind SameCalls.trans (print_sameCalls _ _) fun _ =>
            .pure SameCalls.refl _) (by decide) w
    · exact runCommand_sameCalls_of_not_made fun t ht => hhome ⟨t, ht⟩
  · rw [hrun]
    cases hread : CommandLine.read grammar args with
    | accepted found => exact .refl w
    | help commands =>
        exact Act.Keeps.bind SameCalls.trans (print_sameCalls _ _)
          (fun _ => .pure SameCalls.refl _) w
    | rejected commands complaint =>
        exact Act.Keeps.bind SameCalls.trans (print_sameCalls _ _)
          (fun _ => .pure SameCalls.refl _) w
    | version => exact absurd hread hversion

end Program

end CommandGate
