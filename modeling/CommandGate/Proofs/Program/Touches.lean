import CommandGate.Proofs.Program.Initialization
import CommandGate.Proofs.Program.News
import CommandGate.Proofs.Session.Invocations

/-!
# What an Invocation Does to the Tree

An invocation does little to the tree, whatever it comes to. `Program.Touches` lists what may
happen at a place: nothing; a new folder, where nothing stood; more bytes at the end of the
log; and the text of a state in the file for the tutorial. New folders are those that lead to
the home directory, the folder of the log, and those of the commons directory.

Arguments that ask for no task leave the tree as it is. Telemetry that is switched off leaves
the log and its folder alone; only setting up makes the commons directory; and only setting a
state in an initialized installation writes the file for the tutorial.

## Main results

* `Program.conclude_tree`: arguments that ask for no task.
* `Program.run_touches`: what an invocation does to the tree.
-/

namespace CommandGate

open FileTree

/-- The front of two names more. -/
theorem prefix_append_pair {names : List String} {first second : String} {m : Location}
    (h : m <+: names ++ [first, second]) :
    m <+: names ∨ m = names ++ [first] ∨ m = names ++ [first, second] := by
  have hassoc : names ++ [first, second] = (names ++ [first]).concat second := by simp
  rw [hassoc, List.concat_eq_append, List.prefix_concat_iff, List.prefix_concat_iff] at h
  rcases h with h | h | h
  · exact .inr (.inr (by simpa using h))
  · exact .inr (.inl h)
  · exact .inl h

namespace Program

/-- The folders that an invocation may make below and above the home directory. -/
inductive MayMake (home : Location) (logging settingUp : Prop) : Location → Prop
  | home {m : Location} (hm : m <+: home) : MayMake home logging settingUp m
  | logs (hl : logging) : MayMake home logging settingUp (home ++ ["logs"])
  | repos (hs : settingUp) : MayMake home logging settingUp (home ++ ["repos"])
  | commons (hs : settingUp) : MayMake home logging settingUp (home ++ ["repos", "commons"])

/-- **What an invocation may do at a place**, from one tree to another: leave what stands
there; make a folder, where nothing stood; put bytes behind those of the log; or write one of
the states into the file for the tutorial. -/
inductive Touches (home : Location) (logging settingUp : Prop) (settable : String → Prop)
    (m : Location) (t u : FileTree) : Prop
  | kept (h : u.look m = t.look m)
  | folder (hm : MayMake home logging settingUp m) (ht : t.look m = none)
      (hu : u.look m = some .folder)
  | log (more : Bytes) (hl : logging) (hm : m = home ++ ["logs", "telemetry.jsonl"])
      (ht : t.look m ≠ some .folder) (hu : u.look m = some (.file (t.bytesAt m ++ more)))
  | tutorial (state : String) (hs : settable state) (hstate : state ∈ Tutorial.states)
      (hm : m = home ++ ["tutorial.json"]) (ht : t.look m ≠ some .folder) (content : Bytes)
      (htext : Utf8.encode (Text.ofString (Tutorial.stateText state)) = .ok content)
      (hu : u.look m = some (.file content))

namespace Touches

variable {home : Location} {logging settingUp : Prop} {settable : String → Prop} {m : Location}
variable {t u v : FileTree}

theorem refl (t : FileTree) : Touches home logging settingUp settable m t t :=
  .kept rfl

/-- The bytes at a place are those of what stands there. -/
theorem bytesAt_congr (h : u.look m = t.look m) : u.bytesAt m = t.bytesAt m := by
  rw [bytesAt, bytesAt, h]

/-- **One after the other.** Where a folder was made nothing else happens, and the log is not
the file for the tutorial. -/
theorem trans (h : Touches home logging settingUp settable m t u)
    (h' : Touches home logging settingUp settable m u v) :
    Touches home logging settingUp settable m t v := by
  have apart : home ++ ["logs", "telemetry.jsonl"] ≠ home ++ ["tutorial.json"] := by simp
  cases h with
  | kept h =>
      cases h' with
      | kept h' => exact .kept (h'.trans h)
      | folder hm hu hv => exact .folder hm (h ▸ hu) hv
      | log more hl hm hu hv => exact .log more hl hm (h ▸ hu) (bytesAt_congr h ▸ hv)
      | tutorial state hs hstate hm hu content htext hv =>
          exact .tutorial state hs hstate hm (h ▸ hu) content htext hv
  | folder hm ht hu =>
      cases h' with
      | kept h' => exact .folder hm ht (h'.trans hu)
      | folder _ hu' _ => simp [hu] at hu'
      | log _ _ _ hu' _ => exact absurd hu hu'
      | tutorial _ _ _ _ hu' => exact absurd hu hu'
  | log more hl hm ht hu =>
      have hbytes : u.bytesAt m = t.bytesAt m ++ more := by rw [bytesAt, hu]
      cases h' with
      | kept h' => exact .log more hl hm ht (h'.trans hu)
      | folder _ hu' _ => simp [hu] at hu'
      | log more' _ _ _ hv =>
          rw [hbytes, List.append_assoc] at hv
          exact .log (more ++ more') hl hm ht hv
      | tutorial _ _ _ hm' => exact absurd (hm.symm.trans hm') apart
  | tutorial state hs hstate hm ht content htext hu =>
      cases h' with
      | kept h' => exact .tutorial state hs hstate hm ht content htext (h'.trans hu)
      | folder _ hu' _ => simp [hu] at hu'
      | log _ _ hm' _ _ => exact absurd (hm'.symm.trans hm) apart
      | tutorial state' hs' hstate' _ _ content' htext' hv =>
          exact .tutorial state' hs' hstate' hm ht content' htext' hv

end Touches

/-! ### One change -/

section Changes

variable {settings : Settings} (h : settings.Usual) {logging settingUp : Prop}
variable {settable : String → Prop}

include h

/-- Making the home directory leaves every place, or makes a folder where nothing stood. -/
theorem makeHome_touches (t : FileTree) (m : Location) :
    Touches settings.homeDir.names logging settingUp settable m t
      (t.makeFolders settings.homeDir).1 := by
  rcases makeFolders_addsFolders t settings.homeDir m with hm | ⟨hm, ht, hu⟩
  · exact .kept hm
  · exact .folder (.home ((onTheWay_iff h.plain).mp hm)) ht hu

/-- Making the commons leaves every place, or makes a folder where nothing stood. -/
theorem makeCommons_touches (hs : settingUp) (t : FileTree) (m : Location) :
    Touches settings.homeDir.names logging settingUp settable m t
      (t.makeFolders settings.commonsDir).1 := by
  rcases makeFolders_addsFolders t settings.commonsDir m with hm | ⟨hm, ht, hu⟩
  · exact .kept hm
  · refine .folder ?_ ht hu
    rcases prefix_append_pair ((onTheWay_iff h.commonsDir_plain).mp hm) with hm | rfl | rfl
    · exact .home hm
    · exact .repos hs
    · exact .commons hs

/-- Setting the tutorial writes its file and makes the folders above it, if anything. -/
theorem setTutorial_touches {state : String} (hs : settable state) (t : FileTree)
    (m : Location) :
    Touches settings.homeDir.names logging settingUp settable m t
      (Tutorial.set settings.tutorialFile state t).1 := by
  have hparent : settings.tutorialFile.parent.names = settings.homeDir.names := by
    simp [Settings.tutorialFile, Path.parent, Path.join]
  rcases (Tutorial.set_rewrites settings.tutorialFile state t).look_cases m with
    hm | ⟨hm, ht, hu⟩ | ⟨hm, ht, content, ⟨hstate, rfl⟩, hu⟩
  · exact .kept hm
  · rw [hparent] at hm
    exact .folder (.home ((onTheWay_iff h.plain).mp hm)) ht hu
  · exact .tutorial state hs hstate (hm.trans h.tutorialFile_place) ht _
      (Tutorial.encode_stateText state hstate) hu

/-- Recording puts bytes behind the log and makes the folders above it, if anything. -/
theorem appendLine_touches (hl : logging) (line : Text) (t : FileTree) (m : Location) :
    Touches settings.homeDir.names logging settingUp settable m t
      (Telemetry.appendLine settings.logFile line t).1 := by
  have hparent : settings.logFile.parent.names = settings.homeDir.names ++ ["logs"] := by
    rw [settings.logFile_parent, h.logDir, Path.join]
  have hplain : ".." ∉ settings.homeDir.names ++ ["logs"] :=
    (h.join_plain (by decide) : (settings.homeDir.join ["logs"]).IsPlain)
  rcases (Telemetry.appendLine_rewrites settings.logFile line t).look_cases m with
    hm | ⟨hm, ht, hu⟩ | ⟨hm, ht, content, ⟨more, -, rfl⟩, hu⟩
  · exact .kept hm
  · refine .folder ?_ ht hu
    rw [hparent, onTheWay_iff hplain, List.prefix_concat_iff] at hm
    rcases hm with rfl | hm
    · exact .logs hl
    · exact .home hm
  · refine .log more hl (hm.trans h.logFile_place) ht ?_
    rw [hu, hm]

end Changes

/-! ### Invocations -/

variable {s : Surroundings}

/-- Printing leaves the tree as it is. -/
theorem print_tree (stream : Stream) (t : Text) :
    Act.Keeps (fun w w' => w'.tree = w.tree) (World.print stream t) := by
  intro w
  cases stream <;> rfl

/-- **Arguments that ask for no task** leave the tree as it is. -/
theorem conclude_tree (s : Surroundings) (reading : CommandLine.Reading) :
    Act.Keeps (fun w w' => w'.tree = w.tree) (conclude s reading) := by
  have refl (w : World) : w.tree = w.tree := rfl
  have trans (u v w : World) (huv : v.tree = u.tree) (hvw : w.tree = v.tree) : w.tree = u.tree :=
    hvw.trans huv
  have news : Act.Keeps (fun w w' => w'.tree = w.tree)
      (Release.news? (Release.current s) s.settings.version) := by
    intro w
    rw [Act.after, news?_current]
    cases newsIn s.settings.version s.network <;> rfl
  cases reading with
  | accepted found => exact .pure refl _
  | help commands => exact .bind trans (print_tree _ _) fun _ => .pure refl _
  | version =>
      exact .bind trans (.bind trans news fun latest => .pure refl _) fun text =>
        .bind trans (print_tree _ _) fun _ => .pure refl _
  | rejected commands complaint => exact .bind trans (print_tree _ _) fun _ => .pure refl _

/-- The states that an invocation may set: the one that its arguments ask for, if the
installation is initialized. -/
def Sets (s : Surroundings) (args : List String) (t : FileTree) (state : String) : Prop :=
  taskOf? args = some (.setTutorial (some state)) ∧ Initialized s.settings t

/-- What an invocation with the given arguments may do to a tree. -/
abbrev MayTouch (s : Surroundings) (args : List String) (t u : FileTree) (m : Location) : Prop :=
  Touches s.settings.homeDir.names (Telemetry.enabled s.environment = true)
    (taskOf? args = some .init) (Sets s args t) m t u

variable {w : World}

/-- A command that the gate answers leaves the world that the gate leaves. -/
theorem runCommand_after_of_uninitialized (hs : s.settings.Usual) {path : String}
    (hpath : (Gate.isListed Gate.openPaths path || Gate.isCompletion path) = false)
    (hi : ¬ Initialized s.settings w.tree) (command : Act World Int) :
    (runCommand s path command).after w = (enter s path).after w := by
  rcases enter_of_uninitialized hs hpath hi with
    ⟨e, q, t, message, -, henter⟩ | ⟨t, -, -, -, henter⟩ | ⟨f, t, -, -, -, henter⟩
  · rw [Act.after, Act.after, runCommand_of_ended henter, henter]
  · rw [Act.after, Act.after, runCommand_of_ended henter, henter]
  · rw [Act.after, Act.after, runCommand_of_error henter, henter]

/-- **What an invocation does to the tree**, whatever it comes to. Arguments that ask for no
task leave the tree as it is; and at every place an invocation does what it may. -/
theorem run_touches (hs : s.settings.Usual) (args : List String) (w : World) :
    (args.head? ≠ some Gate.completionMarker → taskOf? args = none →
      ((run s args).after w).tree = w.tree) ∧
    ∀ m, MayTouch s args w.tree ((run s args).after w).tree m := by
  constructor
  · intro hm ht
    rw [run_eq, if_neg hm, ht]
    exact conclude_tree s _ w
  intro m
  have keeps {settable : String → Prop}
      (hset : ∀ state, taskOf? args = some (.setTutorial (some state)) → settable state) :
      Touches s.settings.homeDir.names (Telemetry.enabled s.environment = true)
        (taskOf? args = some .init) settable m w.tree ((run s args).after w).tree :=
    run_keeps .refl (fun _ _ _ => .trans) args (fun t => makeHome_touches hs t m)
      (fun hi t => makeCommons_touches hs hi t m)
      (fun state ht t => setTutorial_touches hs (hset state ht) t m)
      (fun hl _ r _ _ t => appendLine_touches hs hl r.line t m) w
  by_cases hi : Initialized s.settings w.tree
  · exact keeps fun state ht => ⟨ht, hi⟩
  · by_cases ht : ∃ state, taskOf? args = some (.setTutorial (some state))
    · -- the gate answers, so no state is set
      obtain ⟨state, ht⟩ := ht
      have hclosed : (Gate.isListed Gate.openPaths (Gate.commandPath ["tutorial"]) ||
          Gate.isCompletion (Gate.commandPath ["tutorial"])) = false := by decide
      have hpair : Pair s (s.moved s.environment s.clock) [s.settings.homeDir]
          (Sets s args w.tree) (enter s (Gate.commandPath ["tutorial"])) (enter _ _) :=
        enter_paired (by simp)
      rw [run_of_task ht, Task.names, runCommand_after_of_uninitialized hs hclosed hi]
      refine hpair.keeps .refl (fun _ _ _ => .trans) (fun p hp t => ?_)
        (fun state hstate t => setTutorial_touches hs hstate t m)
        (fun hl _ r _ _ t => appendLine_touches hs hl r.line t m) w
      rw [List.mem_singleton.mp hp]
      exact makeHome_touches hs t m
    · exact keeps fun state hstate => absurd ⟨state, hstate⟩ ht

open Session in
/-- What setting up does to an empty tree. -/
theorem run_touches_home :
    atHome.settings.Usual ∧
    (["init"].head? ≠ some Gate.completionMarker → taskOf? ["init"] = none →
      ((run atHome ["init"]).after { tree := [] }).tree = []) ∧
    ∀ m, MayTouch atHome ["init"] [] ((run atHome ["init"]).after { tree := [] }).tree m := by
  have hs : atHome.settings.Usual := usual_settingsAt (by decide)
  exact ⟨hs, run_touches hs ["init"] { tree := [] }⟩

end Program

end CommandGate
