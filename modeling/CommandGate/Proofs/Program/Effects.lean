import CommandGate.Proofs.Program.Aftermath
import CommandGate.Proofs.Program.Calls

/-!
# The External Effects of an Invocation

An invocation makes one call at most. It makes the request for the published version if it asks
for the version, or for nothing in particular once the home directory is made. It launches a
program if it asks for an upgrade in a mode that is run, once the home directory is made, and
then ends with the exit code of that program. A mode that is left blank is run although it is
none of those that can be asked for, and a path of the settings that cannot be used makes an
upgrade end with a fault (`Program.Slips`); in all other cases launches and exit codes are as
asked for.

## Main results

* `Program.run_upgrade_of_usable`, `Program.run_upgrade_of_unusable`: how an upgrade that is run
  ends.
* `Program.exists_calls`: an invocation makes the calls that it may make.
* `Program.external_effects`: the calls of an invocation, and its exit code after a launch.
* `Program.launches_of_blank_mode`: a launch that was not asked for.
-/

namespace CommandGate

open FileTree Tutorial
open World (Makes)

/-- The exit code after a launch: that of the launched program, and 1 if it cannot be started. -/
def LaunchOutcome.exitCode : LaunchOutcome → Int
  | ended code => code
  | notStarted _ _ => 1

namespace Program

variable {s : Surroundings} {args : List String} {path : String} {command : Act World Int}
variable {mode : UpgradeMode} {w : World} {t : FileTree}

/-! ### What is asked for -/

/-- When an invocation **asks the network**: if it asks for the version, or is the bare command
and the home directory can be made. -/
def AsksNetwork (s : Surroundings) (args : List String) (w : World) : Prop :=
  CommandLine.read grammar args = .version ∨
    taskOf? args = some .overview ∧ ∃ t, w.tree.makeFolders s.settings.homeDir = (t, .ok ())

/-- When an invocation **asks for a launch**, and of which command: if it asks for an upgrade by
one of the two installers and the home directory can be made. -/
inductive AsksToLaunch (s : Surroundings) (args : List String) (w : World) : List String → Prop
  | pip {t : FileTree} (ht : taskOf? args = some (.upgrade .pip))
      (hhome : w.tree.makeFolders s.settings.homeDir = (t, .ok ())) :
      AsksToLaunch s args w
        [s.environment.interpreter.location, "-m", "pip", "install", "--upgrade", "ritchie"]
  | pipx {t : FileTree} (ht : taskOf? args = some (.upgrade .pipx))
      (hhome : w.tree.makeFolders s.settings.homeDir = (t, .ok ())) :
      AsksToLaunch s args w ["pipx", "install", "ritchie", "--force"]

/-- The command path of upgrades. -/
def upgradePath : String :=
  Gate.commandPath ["upgrade"]

/-- After a body, the tutorial state is asked for and cannot be found out. -/
def ReminderFails (s : Surroundings) (path : String) (command : Act World Int) (w : World) :
    Prop :=
  ∃ t f, remindedIn? s path command w = some t ∧ find s.settings.tutorialFile t = .error f

/-- The launches of an invocation are **as asked for**: they are those that it asks for, and it
ends with the exit code of a launch, unless the tutorial state cannot be found out after it. -/
structure LaunchesAsAsked (s : Surroundings) (args : List String) (w : World)
    (launches : List (List String)) : Prop where
  asked : ∀ command, command ∈ launches ↔ AsksToLaunch s args w command
  ends : ∀ mode t, launches ≠ [] → taskOf? args = some (.upgrade mode) →
    w.tree.makeFolders s.settings.homeDir = (t, .ok ()) →
    ¬ ReminderFails s upgradePath (upgrade s mode) { w with tree := t } →
      ∃ w', run s args w = .ok s.launch.exitCode w'

/-- An invocation **slips** if it asks for an upgrade and the home directory can be made, and the
mode is left blank, or a program is launched but events cannot be recorded or the path of the
commons directory is too long. -/
inductive Slips (s : Surroundings) (args : List String) (w : World) : Prop
  | blank {t : FileTree} (ht : taskOf? args = some (.upgrade .blank))
      (hhome : w.tree.makeFolders s.settings.homeDir = (t, .ok ()))
  | unusable {mode : UpgradeMode} {t : FileTree} (ht : taskOf? args = some (.upgrade mode))
      (hmode : mode ≠ .print) (hhome : w.tree.makeFolders s.settings.homeDir = (t, .ok ()))
      (h : ¬ (s.Recordable ∧ s.settings.commonsDir.Fits))

/-! ### How an upgrade ends -/

/-- The event of a launch in a mode. -/
def launchEvent (env : Environment) (mode : UpgradeMode) : LaunchOutcome → Telemetry.Event
  | .ended code => event "upgrade" [("mode", mode.toJson), ("exit_code", .integer code)] .info
  | .notStarted errno reason =>
    event "upgrade" [("mode", mode.toJson),
      ("error", .string (refusalText errno reason ((upgradeCommand env mode).headD "")))] .error

/-- The world after a launch in a mode: a program that cannot be started is reported. -/
def launched (env : Environment) (mode : UpgradeMode) (outcome : LaunchOutcome) (w : World) :
    World :=
  let command := upgradeCommand env mode
  let name := command.headD ""
  let asked := { w with launches := w.launches ++ [command] }
  match outcome with
  | .ended _ => asked
  | .notStarted errno reason =>
    asked.complaining (s!"unable to run {name}: " ++ refusalText errno reason name)

/-- A launch leaves the tree as it is. -/
theorem launched_tree (env : Environment) (mode : UpgradeMode) (outcome : LaunchOutcome)
    (w : World) : (launched env mode outcome w).tree = w.tree := by
  cases outcome <;> rfl

/-- The program records the event of its launch. -/
theorem records_launchEvent (mode : UpgradeMode) :
    Records s (launchEvent s.environment mode s.launch) := by
  cases hl : s.launch with
  | ended code => exact .upgradeEnded mode code hl
  | notStarted errno reason => exact .upgradeNotStarted mode errno reason _

/-- **An upgrade that is run** launches its command, records that, and ends with the exit code of
the launch. -/
theorem upgrade_apply (hmode : mode ≠ .print) (w : World) :
    upgrade s mode w =
      match Telemetry.record s (launchEvent s.environment mode s.launch)
        (launched s.environment mode s.launch w) with
      | .ok () w' => .ok s.launch.exitCode w'
      | .error f w' => .error f w' := by
  have recorded (e : Telemetry.Event) (code : Int) (u : World) :
      (do
        Telemetry.record s e
        pure code : Act World Int) u =
        match Telemetry.record s e u with
        | .ok () w' => .ok code w'
        | .error f w' => .error f w' := by
    rw [Act.bind_apply]
    cases Telemetry.record s e u <;> rfl
  have hlaunch : World.launch s (upgradeCommand s.environment mode) w =
      .ok s.launch
        { w with launches := w.launches ++ [upgradeCommand s.environment mode] } := rfl
  simp only [upgrade, if_neg hmode]
  rw [Act.bind_apply, hlaunch]
  cases s.launch with
  | ended code => exact recorded _ _ _
  | notStarted errno reason => exact recorded _ _ _

/-- It leaves what recording its launch leaves, also where that is a fault. -/
theorem after_upgrade (hmode : mode ≠ .print) (w : World) :
    (upgrade s mode).after w =
      (Telemetry.record s (launchEvent s.environment mode s.launch)).after
        (launched s.environment mode s.launch w) := by
  rw [Act.after, Act.after, upgrade_apply hmode]
  cases Telemetry.record s (launchEvent s.environment mode s.launch)
    (launched s.environment mode s.launch w) <;> rfl

/-- The body of an upgrade that is run ends with the exit code of the launch, if events can be
recorded. -/
theorem upgrade_of_recordable (hr : s.Recordable) (hmode : mode ≠ .print) (w : World) :
    ∃ w', upgrade s mode w = .ok s.launch.exitCode w' := by
  obtain ⟨u, hrecord⟩ := record_of_recordable hr (records_launchEvent mode)
    (launched s.environment mode s.launch w)
  rw [upgrade_apply hmode, hrecord]
  exact ⟨_, rfl⟩

/-- Otherwise it is a fault. -/
theorem upgrade_of_not_recordable (hr : ¬ s.Recordable) (hmode : mode ≠ .print) (w : World) :
    ∃ f w', upgrade s mode w = .error f w' := by
  have hrecord := record_of_not_recordable hr (records_launchEvent mode)
    (launched s.environment mode s.launch w)
  rw [upgrade_apply hmode, hrecord]
  exact ⟨_, _, rfl⟩

/-- Upgrades are not followed by a look for a version. -/
theorem checks_upgradePath (w : World) : Checks s upgradePath w (.ok () w) :=
  .passedOver (by decide)

section Runs

variable (ht : taskOf? args = some (.upgrade mode)) (hmode : mode ≠ .print)
variable (hhome : w.tree.makeFolders s.settings.homeDir = (t, .ok ()))

include ht hmode hhome

/-- **An upgrade ends with the exit code of its launch** if nothing is in its way, and no tutorial
state is asked for that cannot be found out. -/
theorem run_upgrade_of_usable (hr : s.Recordable) (hf : s.settings.commonsDir.Fits)
    (hfails : ¬ ReminderFails s upgradePath (upgrade s mode) { w with tree := t }) :
    ∃ w', run s args w = .ok s.launch.exitCode w' := by
  have hc : CarriesOut s args upgradePath (upgrade s mode) := .task ht
  have hpass : Passes s upgradePath t := .inl (by decide)
  obtain ⟨w₁, hbody⟩ := upgrade_of_recordable hr hmode { w with tree := t }
  have hcheck := checks_upgradePath (s := s) w₁
  have hreminded := remindedIn?_of_checks hbody hcheck
  have hstands := hc.stands hbody hcheck (stands_of_makeFolders hhome)
  obtain ⟨found, hpresent⟩ := exists_present hstands hf
  rw [hc.run_of_body hhome hpass hbody hcheck, remind_eq_match]
  rw [hpresent] at hreminded ⊢
  cases found with
  | true => exact ⟨w₁, rfl⟩
  | false =>
      cases hfind : find s.settings.tutorialFile w₁.tree with
      | ok tutorial => exact ⟨_, rfl⟩
      | error f => exact absurd ⟨w₁.tree, f, hreminded, hfind⟩ hfails

/-- **It ends with a fault** if something is in its way, before any tutorial state is asked
for. -/
theorem run_upgrade_of_unusable (h : ¬ (s.Recordable ∧ s.settings.commonsDir.Fits)) :
    (∃ f w', run s args w = .error f w') ∧
      remindedIn? s upgradePath (upgrade s mode) { w with tree := t } = none := by
  have hc : CarriesOut s args upgradePath (upgrade s mode) := .task ht
  have hpass : Passes s upgradePath t := .inl (by decide)
  by_cases hr : s.Recordable
  · have hlong : ¬ s.settings.commonsDir.Fits := fun hf => h ⟨hr, hf⟩
    obtain ⟨w₁, hbody⟩ := upgrade_of_recordable hr hmode { w with tree := t }
    have hcheck := checks_upgradePath (s := s) w₁
    have hpresent := present_of_long_of_made hhome hlong w₁.tree
    rw [remindedIn?_of_long hhome hlong, hc.run_of_body hhome hpass hbody hcheck, remind_eq_match,
      hpresent]
    exact ⟨⟨_, _, rfl⟩, rfl⟩
  · obtain ⟨f, w₁, hbody⟩ := upgrade_of_not_recordable hr hmode { w with tree := t }
    rw [remindedIn?_of_error hbody, hc.run_of_passes hhome hpass, Act.bind_apply, hbody]
    exact ⟨⟨f, w₁, rfl⟩, rfl⟩

end Runs

/-! ### The calls of an invocation -/

/-- What calls an invocation **may make**: the request if it asks the network, the launch of an
upgrade that is not only shown, and none otherwise. -/
inductive Calls (s : Surroundings) (args : List String) (w : World) :
    List Request → List (List String) → Prop
  | request (h : AsksNetwork s args w) : Calls s args w [publishedRequest s] []
  | upgrade {mode : UpgradeMode} {t : FileTree} (ht : taskOf? args = some (.upgrade mode))
      (hhome : w.tree.makeFolders s.settings.homeDir = (t, .ok ())) :
      Calls s args w [] (launchesOf s.environment (.upgrade mode))
  | none (hn : ¬ AsksNetwork s args w)
      (hu : ∀ mode t, taskOf? args = some (.upgrade mode) →
        w.tree.makeFolders s.settings.homeDir ≠ (t, .ok ())) : Calls s args w [] []

/-- **An invocation makes the calls that it may make.** -/
theorem exists_calls (s : Surroundings) (args : List String) (w : World) :
    ∃ requests launches, Calls s args w requests launches ∧
      Makes requests launches w ((run s args).after w) := by
  by_cases hn : AsksNetwork s args w
  · refine ⟨_, _, .request hn, ?_⟩
    rcases hn with hversion | ⟨ht, t, hhome⟩
    · exact (run_makes_of_version hversion w).1
    · exact run_makes_of_overview ht hhome
  by_cases hu : ∃ mode t, taskOf? args = some (.upgrade mode) ∧
      w.tree.makeFolders s.settings.homeDir = (t, .ok ())
  · obtain ⟨mode, t, ht, hhome⟩ := hu
    exact ⟨_, _, .upgrade ht hhome, run_makes_of_upgrade ht hhome⟩
  · have hu' : ∀ mode t, taskOf? args = some (.upgrade mode) →
        w.tree.makeFolders s.settings.homeDir ≠ (t, .ok ()) :=
      fun mode t ht hhome => hu ⟨mode, t, ht, hhome⟩
    refine ⟨_, _, .none hn hu', run_sameCalls (fun h => hn (.inl h)) fun task t ht hhome => ?_⟩
    refine ⟨?_, ?_⟩
    · rintro rfl
      exact hn (.inr ⟨ht, t, hhome⟩)
    · cases task with
      | upgrade mode => exact absurd hhome (hu' mode t ht)
      | _ => rfl

variable {requests : List Request} {launches : List (List String)}

/-- An upgrade does not ask the network. -/
theorem not_asksNetwork_of_upgrade (ht : taskOf? args = some (.upgrade mode)) :
    ¬ AsksNetwork s args w := by
  rintro (hversion | ⟨ht', -⟩)
  · rw [taskOf?, hversion] at ht
    cases ht
  · rw [ht] at ht'
    cases ht'

/-- There is one call at most. -/
theorem Calls.length_le (h : Calls s args w requests launches) :
    requests.length + launches.length ≤ 1 := by
  cases h with
  | request => simp
  | none => simp
  | upgrade ht hhome =>
      rw [launchesOf]
      split <;> simp

/-- The requests are those that are asked for. -/
theorem Calls.mem_requests (h : Calls s args w requests launches) (r : Request) :
    r ∈ requests ↔ AsksNetwork s args w ∧ r = publishedRequest s := by
  cases h with
  | request hn => simp [hn]
  | none hn => simp [hn]
  | upgrade ht => simp [not_asksNetwork_of_upgrade ht]

/-! ### Launches that are asked for -/

section Asked

variable (ht : taskOf? args = some (.upgrade mode))
variable (hhome : w.tree.makeFolders s.settings.homeDir = (t, .ok ()))

include ht hhome

/-- An upgrade asks for the command of its mode if that is one of the installers. -/
theorem asksToLaunch_iff {command : List String} :
    AsksToLaunch s args w command ↔
      (mode = .pip ∨ mode = .pipx) ∧ command = upgradeCommand s.environment mode := by
  constructor
  · intro h
    cases h with
    | pip ht' =>
        obtain rfl := Task.upgrade.inj (Option.some.inj (ht.symm.trans ht'))
        exact ⟨.inl rfl, rfl⟩
    | pipx ht' =>
        obtain rfl := Task.upgrade.inj (Option.some.inj (ht.symm.trans ht'))
        exact ⟨.inr rfl, rfl⟩
  · rintro ⟨rfl | rfl, rfl⟩
    · exact .pip ht hhome
    · exact .pipx ht hhome

/-- When an upgrade slips. -/
theorem slips_iff :
    Slips s args w ↔
      mode = .blank ∨ mode ≠ .print ∧ ¬ (s.Recordable ∧ s.settings.commonsDir.Fits) := by
  constructor
  · intro h
    cases h with
    | blank ht' => exact .inl (Task.upgrade.inj (Option.some.inj (ht.symm.trans ht')))
    | unusable ht' hmode _ h =>
        obtain rfl := Task.upgrade.inj (Option.some.inj (ht.symm.trans ht'))
        exact .inr ⟨hmode, h⟩
  · rintro (rfl | ⟨hmode, h⟩)
    · exact .blank ht hhome
    · exact .unusable ht hmode hhome h

/-- The launch of one of the installers is as asked for exactly if nothing is in its way. -/
theorem launchesAsAsked_of_installer (hmode : mode = .pip ∨ mode = .pipx) :
    LaunchesAsAsked s args w [upgradeCommand s.environment mode] ↔
      s.Recordable ∧ s.settings.commonsDir.Fits := by
  have hne : mode ≠ .print := by rcases hmode with rfl | rfl <;> simp
  constructor
  · intro h
    by_contra hunusable
    obtain ⟨⟨f, w', herror⟩, hnone⟩ := run_upgrade_of_unusable ht hne hhome hunusable
    have hfails : ¬ ReminderFails s upgradePath (upgrade s mode) { w with tree := t } := by
      rintro ⟨u, g, hsome, -⟩
      rw [hnone] at hsome
      cases hsome
    obtain ⟨w'', hok⟩ := h.ends mode t (by simp) ht hhome hfails
    rw [herror] at hok
    cases hok
  · rintro ⟨hr, hf⟩
    refine ⟨fun command => ?_, fun mode' u _ ht' hhome' hfails => ?_⟩
    · rw [asksToLaunch_iff ht hhome]
      simp [hmode]
    · obtain rfl := Task.upgrade.inj (Option.some.inj (ht.symm.trans ht'))
      exact run_upgrade_of_usable ht' hne hhome' hr hf hfails

/-- The launch of an upgrade is as asked for exactly unless it slips. -/
theorem launchesAsAsked_of_upgrade :
    LaunchesAsAsked s args w (launchesOf s.environment (.upgrade mode)) ↔ ¬ Slips s args w := by
  rw [slips_iff ht hhome]
  by_cases hinstaller : mode = .pip ∨ mode = .pipx
  · have hlaunches :
        launchesOf s.environment (.upgrade mode) = [upgradeCommand s.environment mode] := by
      rcases hinstaller with rfl | rfl <;> rfl
    have hprint : mode ≠ .print := by rcases hinstaller with rfl | rfl <;> simp
    have hblank : mode ≠ .blank := by rcases hinstaller with rfl | rfl <;> simp
    rw [hlaunches, launchesAsAsked_of_installer ht hhome hinstaller]
    simp only [hblank, hprint, ne_eq, not_false_eq_true, true_and, false_or, not_not]
  · have hnone (command : List String) : ¬ AsksToLaunch s args w command := fun h =>
      hinstaller ((asksToLaunch_iff ht hhome).mp h).1
    cases mode with
    | print =>
        refine iff_of_true ⟨fun command => ?_, fun _ _ hne => absurd rfl hne⟩ (by simp)
        simpa [launchesOf] using hnone command
    | blank =>
        refine iff_of_false (fun h => ?_) (by simp)
        exact hnone (upgradeCommand s.environment .blank) ((h.asked _).mp (by simp [launchesOf]))
    | pip => exact absurd (.inl rfl) hinstaller
    | pipx => exact absurd (.inr rfl) hinstaller

end Asked

/-- **Launches are as asked for exactly unless the invocation slips.** -/
theorem Calls.launchesAsAsked_iff (h : Calls s args w requests launches) :
    LaunchesAsAsked s args w launches ↔ ¬ Slips s args w := by
  -- where nothing is upgraded, nothing is launched and nothing is asked for
  have idle (hu : ∀ mode t, taskOf? args = some (.upgrade mode) →
      w.tree.makeFolders s.settings.homeDir ≠ (t, .ok ())) :
      LaunchesAsAsked s args w [] ↔ ¬ Slips s args w := by
    refine iff_of_true ⟨fun command => ?_, fun _ _ hne => absurd rfl hne⟩ fun hslips => ?_
    · refine iff_of_false (by simp) fun hasks => ?_
      cases hasks with
      | pip ht hhome => exact hu _ _ ht hhome
      | pipx ht hhome => exact hu _ _ ht hhome
    · cases hslips with
      | blank ht hhome => exact hu _ _ ht hhome
      | unusable ht _ hhome => exact hu _ _ ht hhome
  cases h with
  | request hn => exact idle fun mode t ht _ => not_asksNetwork_of_upgrade ht hn
  | none hn hu => exact idle hu
  | upgrade ht hhome => exact launchesAsAsked_of_upgrade ht hhome

/-- **The external effects of an invocation.** For all arguments, in every tree, for all settings
and whatever the network answers and launched programs come to, an invocation makes one call at
most. It makes the request for the published version, at the address and with the time limit of
the settings, exactly if it asks the network; and if it asks for the version, it changes no file.
Its launches are as asked for, and so is its exit code after them, exactly unless it slips. -/
theorem external_effects (s : Surroundings) (args : List String) (w : World) :
    let after := (run s args).after w
    ∃ requests launches,
      after.requests = w.requests ++ requests ∧ after.launches = w.launches ++ launches ∧
      requests.length + launches.length ≤ 1 ∧
      (∀ r, r ∈ requests ↔
        AsksNetwork s args w ∧ r = ⟨s.settings.url, Release.headers, s.settings.timeout⟩) ∧
      (CommandLine.read grammar args = .version → after.tree = w.tree) ∧
      (LaunchesAsAsked s args w launches ↔ ¬ Slips s args w) := by
  obtain ⟨requests, launches, hcalls, hmakes⟩ := exists_calls s args w
  exact ⟨requests, launches, hmakes.requests, hmakes.launches, hcalls.length_le,
    hcalls.mem_requests, fun h => (run_makes_of_version h w).2, hcalls.launchesAsAsked_iff⟩

open Session in
/-- **A launch that was not asked for**: in a mode that is left blank, an installer is launched. -/
theorem launches_of_blank_mode :
    let args := ["upgrade", "--mode=--"]
    let w : World := { tree := [] }
    taskOf? args = some (.upgrade .blank) ∧
      ((run atHome args).after w).launches = [upgradeCommand atHome.environment .pip] ∧
      ∀ command, ¬ AsksToLaunch atHome args w command := by
  have ht : taskOf? ["upgrade", "--mode=--"] = some (.upgrade .blank) := by decide
  refine ⟨ht, rfl, fun command hasks => ?_⟩
  cases hasks with
  | pip ht' =>
      rw [ht] at ht'
      cases ht'
  | pipx ht' =>
      rw [ht] at ht'
      cases ht'

end Program

end CommandGate
