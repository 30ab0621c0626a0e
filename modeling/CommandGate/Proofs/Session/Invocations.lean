import CommandGate.Proofs.Program.Places
import CommandGate.Session

/-!
# Sessions of Invocations

A session whose steps are invocations is given by the occasions and the arguments alone. What
an invocation comes to as a step is what running the program comes to.

## Main results

* `Session.perform_invoke_of_ok`, `Session.perform_invoke_of_error`: the report of an
  invocation.
-/

namespace CommandGate

open Program

namespace Session

/-- Invocations of the program as steps of a session. -/
def invocations (runs : List (Occasion × List String)) : List (Occasion × Step) :=
  runs.map fun (o, args) => (o, .invoke args)

/-- The settings that are loaded for a home directory where no variable asks for others. -/
def settingsAt (home : Path) : Settings where
  homeDir := home
  logDir := home.join ["logs"]
  url := Settings.defaultUrl
  version := Settings.thisVersion
  buildDate := Settings.thisBuildDate
  timeout := Settings.defaultTimeout

/-- Settings for a plain home directory are usual. -/
theorem usual_settingsAt {home : Path} (h : home.IsPlain) : (settingsAt home).Usual :=
  ⟨h, rfl⟩

/-- An occasion without variables, at time zero, with a network that is down and programs
that end with 0. -/
def quiet : Occasion where
  environment := { bindings := [], accounts := [] }
  clock := .finite false 0 0
  network := .failed "down"
  launch := .ended 0

/-- The quiet occasion with telemetry switched off. -/
def silent : Occasion :=
  { quiet with environment := { bindings := [(Telemetry.switchName, "off")], accounts := [] } }

/-- What a run finds around it on the quiet occasion, with the settings for a home directory. -/
def quietAt (home : Path) : Surroundings :=
  quiet.surroundings (settingsAt home)

/-- What it finds there with a home directory of the simplest kind. -/
def atHome : Surroundings :=
  quietAt ⟨.relative, ["home"]⟩

variable {settings : Settings} {t : FileTree} {o : Occasion} {args : List String}

/-! ### What an invocation comes to -/

/-- An invocation that ends is reported with its exit code. -/
theorem perform_invoke_of_ok {code : Int} {w : World}
    (h : run (o.surroundings settings) args { tree := t } = .ok code w) :
    perform settings t o (.invoke args) = ⟨.ok (.exit code), w⟩ := by
  rw [perform, Step.act, Act.bind_apply, h]
  rfl

/-- An invocation that fails is reported with its fault. -/
theorem perform_invoke_of_error {f : Fault} {w : World}
    (h : run (o.surroundings settings) args { tree := t } = .error f w) :
    perform settings t o (.invoke args) = ⟨.error f, w⟩ := by
  rw [perform, Step.act, Act.bind_apply, h]

/-- The world that an invocation leaves. -/
theorem perform_invoke_world :
    (perform settings t o (.invoke args)).world =
      (run (o.surroundings settings) args).after { tree := t } := by
  rw [Act.after]
  cases h : run (o.surroundings settings) args { tree := t } with
  | ok code w => rw [perform_invoke_of_ok h]
  | error f w => rw [perform_invoke_of_error h]

/-- When an invocation ends with an exit code. -/
theorem perform_invoke_outcome_iff {code : Int} :
    (perform settings t o (.invoke args)).outcome = .ok (.exit code) ↔
      ∃ w, run (o.surroundings settings) args { tree := t } = .ok code w := by
  cases h : run (o.surroundings settings) args { tree := t } with
  | ok code' w =>
      rw [perform_invoke_of_ok h]
      simp
  | error f w =>
      rw [perform_invoke_of_error h]
      simp

/-- One invocation more is performed in the tree that those before it leave. -/
theorem treeAfter_invocations_concat (runs : List (Occasion × List String)) :
    treeAfter settings t (invocations (runs ++ [(o, args)])) =
      (perform settings (treeAfter settings t (invocations runs)) o
        (.invoke args)).world.tree := by
  simp [treeAfter, invocations]

end Session

end CommandGate
