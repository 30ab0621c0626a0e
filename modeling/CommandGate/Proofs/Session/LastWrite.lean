import CommandGate.Proofs.Program.TutorialCommand
import CommandGate.Proofs.Session.Log
import Mathlib.Data.List.Induction

/-!
# The State Written Last

In a session on a home directory of the usual kind, the tutorial state is that of the last
write, whatever else is done. A write is a state that is set without a fault, or an invocation
that sets one, is not blocked, and ends with 0. From the first write on, each step either
writes or leaves stored what was stored before; so the state that is found, and the one that
the command for the tutorial shows, is the one written last.

## Main results

* `Session.stored_of_writes`, `Session.stored_perform`: what one step does.
* `Session.LastWritten.stored`: what a run of steps does.
* `Session.tutorial_lastWrite`: what is found and shown after a run of steps.
-/

namespace CommandGate

open FileTree Program Tutorial

namespace Session

/-- The gate **blocks** an invocation for the tutorial on a tree. -/
def BlocksTutorial (settings : Settings) (t : FileTree) (o : Occasion) : Prop :=
  Blocked (o.surroundings settings) tutorialPath { tree := t }

/-- **A step that writes** a tutorial state: it sets the state without a fault, or is an
invocation that sets the state, is not blocked, and ends with 0. -/
inductive Writes (settings : Settings) (t : FileTree) (o : Occasion) : Step → String → Prop
  | set {state : String} {outcome : Outcome}
      (h : (perform settings t o (.setTutorial state)).outcome = .ok outcome) :
      Writes settings t o (.setTutorial state) state
  | invoke {args : List String} {state : String}
      (ht : taskOf? args = some (.setTutorial (some state)))
      (hb : ¬ BlocksTutorial settings t o)
      (h : (perform settings t o (.invoke args)).outcome = .ok (.exit 0)) :
      Writes settings t o (.invoke args) state

/-- **The state that steps wrote last**: the last step wrote it, or it wrote none and the
steps before it wrote that state last. -/
inductive LastWritten (settings : Settings) (t : FileTree) :
    List (Occasion × Step) → String → Prop
  | written {steps : List (Occasion × Step)} {o : Occasion} {step : Step} {state : String}
      (h : Writes settings (treeAfter settings t steps) o step state) :
      LastWritten settings t (steps ++ [(o, step)]) state
  | kept {steps : List (Occasion × Step)} {o : Occasion} {step : Step} {state : String}
      (h : LastWritten settings t steps state)
      (hno : ∀ other, ¬ Writes settings (treeAfter settings t steps) o step other) :
      LastWritten settings t (steps ++ [(o, step)]) state

variable {settings : Settings} {t : FileTree} {o : Occasion} {step : Step} {state old : String}
variable {steps : List (Occasion × Step)} {args : List String}

/-! ### One step -/

/-- Setting a state as a step, where that succeeds. -/
theorem perform_setTutorial_of_ok (o : Occasion)
    (h : (Tutorial.set settings.tutorialFile state t).2 = .ok ()) :
    perform settings t o (.setTutorial state) =
      ⟨.ok (.tutorial ⟨state⟩), { tree := (Tutorial.set settings.tutorialFile state t).1 }⟩ := by
  have hset : (Tutorial.set (o.surroundings settings).settings.tutorialFile state
      ({ tree := t } : World).tree).2 = .ok () := h
  rw [perform, Step.act, Act.bind_apply, World.change_of_ok hset]
  rfl

/-- Setting a state as a step, where that fails. -/
theorem perform_setTutorial_of_error (o : Occasion) {f : Fault}
    (h : (Tutorial.set settings.tutorialFile state t).2 = .error f) :
    perform settings t o (.setTutorial state) =
      ⟨.error f, { tree := (Tutorial.set settings.tutorialFile state t).1 }⟩ := by
  have hset : (Tutorial.set (o.surroundings settings).settings.tutorialFile state
      ({ tree := t } : World).tree).2 = .error f := h
  rw [perform, Step.act, Act.bind_apply, World.change_of_error hset]
  rfl

/-- Setting anything but a state that can be written is a fault, and changes nothing. -/
theorem perform_setTutorial_of_not_mem (t : FileTree) (o : Occasion) (hno : state ∉ states) :
    perform settings t o (.setTutorial state) = ⟨.error .unknownState, { tree := t }⟩ := by
  have hset := set_of_not_mem settings.tutorialFile hno t
  have hfault : (Tutorial.set settings.tutorialFile state t).2 = .error .unknownState := by
    rw [hset]
  rw [perform_setTutorial_of_error o hfault, hset]

/-- **A step that writes a state leaves it stored**, whatever was there before. -/
theorem stored_of_writes (h : Writes settings t o step state) :
    Stored settings.tutorialFile state (perform settings t o step).world.tree := by
  cases h with
  | set h =>
      cases hset : (Tutorial.set settings.tutorialFile state t).2 with
      | error f =>
          rw [perform_setTutorial_of_error o hset] at h
          cases h
      | ok =>
          rw [perform_setTutorial_of_ok o hset]
          exact stored_of_set hset
  | @invoke args _ ht hb h =>
      obtain ⟨w, hrun⟩ := perform_invoke_outcome_iff.mp h
      rw [perform_invoke_of_ok hrun]
      exact stored_of_run (s := o.surroundings settings) ht hb hrun

/-- An invocation that does not write leaves a state stored. -/
theorem stored_perform_invoke (hs : settings.Usual)
    (h : Stored settings.tutorialFile state t)
    (hno : ∀ other, ¬ Writes settings t o (.invoke args) other) :
    Stored settings.tutorialFile state (perform settings t o (.invoke args)).world.tree := by
  have hs' : (o.surroundings settings).settings.Usual := hs
  rw [perform_invoke_world]
  by_cases ht : ∃ new, taskOf? args = some (.setTutorial (some new))
  · obtain ⟨new, ht⟩ := ht
    by_cases hb : BlocksTutorial settings t o
    · -- the gate ends the invocation, and sets no state
      obtain ⟨code, w, henter⟩ := enter_of_blocked hb
      have hpair : Pair (o.surroundings settings)
          ((o.surroundings settings).moved o.environment o.clock) [settings.homeDir]
          (fun _ => False) (enter (o.surroundings settings) tutorialPath) (enter _ tutorialPath) :=
        enter_paired (by simp [Occasion.surroundings])
      have hstored := hpair.stored (w := { tree := t }) h
      rw [Act.after, henter] at hstored
      rw [run_of_setTutorial ht, Act.after, runCommand_of_ended henter]
      exact hstored
    · by_cases hnew : new ∈ states
      · obtain ⟨w, hrun⟩ := run_setTutorial (s := o.surroundings settings) (w := { tree := t })
          hs' h ht hnew hb
        exact absurd (.invoke ht hb (perform_invoke_outcome_iff.mpr ⟨w, hrun⟩)) (hno new)
      · rw [Act.after, run_setTutorial_of_not_mem (s := o.surroundings settings)
          (w := { tree := t }) hs' h ht hnew hb]
        exact h
  · have hpair : Pair (o.surroundings settings)
        ((o.surroundings settings).moved o.environment o.clock)
        [settings.homeDir, settings.commonsDir] (fun _ => False)
        (run (o.surroundings settings) args) (run _ args) :=
      run_paired (.refl _) (by simp [Occasion.surroundings]) args
        (fun _ => by simp [Occasion.surroundings]) fun new hnew => ht ⟨new, hnew⟩
    exact hpair.stored (w := { tree := t }) h

/-- Recording an event leaves a state stored, whatever the event is. -/
theorem stored_after_record {s : Surroundings} (h : Stored s.settings.tutorialFile state t)
    (e : Telemetry.Event) :
    Stored s.settings.tutorialFile state ((Telemetry.record s e).after { tree := t }).tree := by
  rcases Telemetry.after_record s e { tree := t } with hw | ⟨r, -, -, hw⟩
  · rw [hw]
    exact h
  · rw [hw]
    exact stored_appendLine h r.line

/-- **A step that does not write leaves stored what was stored**, whatever it comes to. -/
theorem stored_perform (hs : settings.Usual) (h : Stored settings.tutorialFile state t)
    (hno : ∀ other, ¬ Writes settings t o step other) :
    Stored settings.tutorialFile state (perform settings t o step).world.tree := by
  cases step with
  | invoke args => exact stored_perform_invoke hs h hno
  | record arguments =>
      rw [perform_world, Step.act, Act.after_bind_pure]
      exact stored_after_record (s := o.surroundings settings) h _
  | findTutorial =>
      rw [perform_world, Step.act, Act.after_bind_pure, World.after_look]
      exact h
  | setTutorial new =>
      by_cases hnew : new ∈ states
      · have hplain : settings.tutorialFile.IsPlain := hs.join_plain (by decide)
        have houtcome : (perform settings t o (.setTutorial new)).outcome =
            .ok (.tutorial ⟨new⟩) := by
          rw [perform_setTutorial_of_ok o (h.set hplain hnew)]
        exact absurd (.set houtcome) (hno new)
      · rw [perform_setTutorial_of_not_mem t o hnew]
        exact h
  | create p =>
      rw [perform_world, Step.act, Act.after_bind_pure, Directory.after_create]
      exact h.addsFolders (makeFolders_addsFolders t p)
  | present p =>
      rw [perform_world, Step.act, Act.after_bind_pure, Directory.present, World.after_look]
      exact h

/-! ### Runs of steps -/

/-- **The state written last is stored.** -/
theorem LastWritten.stored (hs : settings.Usual) (h : LastWritten settings t steps state) :
    Stored settings.tutorialFile state (treeAfter settings t steps) := by
  induction h with
  | written h =>
      rw [treeAfter_concat]
      exact stored_of_writes h
  | kept _ hno ih =>
      rw [treeAfter_concat]
      exact stored_perform hs ih hno

/-- Some state was written last exactly if some step wrote one. -/
theorem exists_lastWritten_iff (settings : Settings) (t : FileTree)
    (steps : List (Occasion × Step)) :
    (∃ state, LastWritten settings t steps state) ↔
      ∃ before o step state, before ++ [(o, step)] <+: steps ∧
        Writes settings (treeAfter settings t before) o step state := by
  constructor
  · rintro ⟨state, h⟩
    induction h with
    | @written steps o step state h => exact ⟨steps, o, step, state, List.prefix_rfl, h⟩
    | kept _ _ ih =>
        obtain ⟨before, o, step, state, hp, hw⟩ := ih
        exact ⟨before, o, step, state, hp.trans (List.prefix_append _ _), hw⟩
  · rintro ⟨before, o, step, state, hp, hw⟩
    induction steps using List.reverseRecOn with
    | nil => simp at hp
    | append_singleton steps last ih =>
        obtain ⟨o', step'⟩ := last
        by_cases hlast : ∃ other, Writes settings (treeAfter settings t steps) o' step' other
        · obtain ⟨other, hother⟩ := hlast
          exact ⟨other, .written hother⟩
        · rcases List.prefix_concat_iff.mp hp with he | hp
          · obtain ⟨rfl, he⟩ := List.append_inj' he rfl
            obtain ⟨rfl, rfl⟩ : o = o' ∧ step = step' := by simpa using he
            exact absurd ⟨state, hw⟩ hlast
          · obtain ⟨other, hother⟩ := ih hp
            exact ⟨other, .kept hother fun another ha => hlast ⟨another, ha⟩⟩

/-- **The tutorial state is the one written last.** Once some step has written a state, the
last such state is found, and it turns the tutorial on exactly if it is `on`; an invocation
that asks for the state and is not blocked prints it, ends with 0, and does nothing else. On
every tree, setting anything but a state that can be written is a fault and changes nothing. -/
theorem tutorial_lastWrite (hs : settings.Usual) (t : FileTree)
    (steps : List (Occasion × Step)) :
    ((∃ state, LastWritten settings t steps state) ↔
      ∃ before o step state, before ++ [(o, step)] <+: steps ∧
        Writes settings (treeAfter settings t before) o step state) ∧
    (∀ state, LastWritten settings t steps state → ∀ o,
      (∃ tutorial, perform settings (treeAfter settings t steps) o .findTutorial =
          ⟨.ok (.tutorial tutorial), { tree := treeAfter settings t steps }⟩ ∧
        tutorial.current = Text.ofString state ∧ (tutorial.enabled = true ↔ state = "on")) ∧
      (∀ args, taskOf? args = some .showTutorial →
        ¬ BlocksTutorial settings (treeAfter settings t steps) o →
          perform settings (treeAfter settings t steps) o (.invoke args) =
            ⟨.ok (.exit 0), {
              tree := treeAfter settings t steps
              stdout := Text.ofString s!"Current tutorial status: {state}\n" }⟩)) ∧
    (∀ state, state ∉ states → ∀ u o,
      perform settings u o (.setTutorial state) = ⟨.error .unknownState, { tree := u }⟩) := by
  refine ⟨exists_lastWritten_iff settings t steps, fun state h o => ⟨?_, fun args ht hb => ?_⟩,
    fun state hno u o => ?_⟩
  · refine ⟨⟨Text.ofString state⟩, ?_, rfl, enabled_iff⟩
    have hfind : Tutorial.find (o.surroundings settings).settings.tutorialFile
        ({ tree := treeAfter settings t steps } : World).tree = .ok ⟨Text.ofString state⟩ :=
      (h.stored hs).find
    rw [perform, Step.act, Act.bind_apply, World.look_apply, hfind]
    rfl
  · have hshow := run_showTutorial (s := o.surroundings settings)
      (w := { tree := treeAfter settings t steps }) hs (h.stored hs) ht hb
    have hline : Text.ofString s!"Current tutorial status: {state}\n" =
        Text.ofString "Current tutorial status: " ++ Text.ofString state ++ "\n" := by
      rw [← Text.ofString_append, ← Text.ofString_append]
      rfl
    rw [perform_invoke_of_ok hshow, hline]
    rfl
  · exact perform_setTutorial_of_not_mem u o hno

/-- The state that is found where it was set in an empty tree. -/
theorem tutorial_lastWrite_home :
    (settingsAt ⟨.relative, ["home"]⟩).Usual ∧
      LastWritten (settingsAt ⟨.relative, ["home"]⟩) [] [(quiet, .setTutorial "off")] "off" ∧
      ∃ tutorial, (perform (settingsAt ⟨.relative, ["home"]⟩)
          (treeAfter (settingsAt ⟨.relative, ["home"]⟩) [] [(quiet, .setTutorial "off")])
          quiet .findTutorial).outcome = .ok (.tutorial tutorial) ∧
        tutorial.current = Text.ofString "off" ∧ ¬ tutorial.enabled = true := by
  have hs : (settingsAt ⟨.relative, ["home"]⟩).Usual := usual_settingsAt (by decide)
  have houtcome : (perform (settingsAt ⟨.relative, ["home"]⟩) [] quiet
      (.setTutorial "off")).outcome = .ok (.tutorial ⟨Text.ofString "off"⟩) := rfl
  have hlast : LastWritten (settingsAt ⟨.relative, ["home"]⟩) []
      ([] ++ [(quiet, .setTutorial "off")]) "off" := .written (.set houtcome)
  obtain ⟨⟨tutorial, hfind, hcurrent, henabled⟩, -⟩ :=
    (tutorial_lastWrite hs [] [(quiet, .setTutorial "off")]).2.1 "off" hlast quiet
  refine ⟨hs, hlast, tutorial, ?_, hcurrent, ?_⟩
  · rw [hfind]
  · rw [henabled]
    decide

end Session

end CommandGate
