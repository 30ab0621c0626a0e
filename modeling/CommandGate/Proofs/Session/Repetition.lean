import CommandGate.Proofs.Program.Repetition
import CommandGate.Proofs.Session.Noninterference

/-!
# Invocations Made Again in a Session

An invocation that is made a second time, right after the first, has the same outcome and leaves
every entry as the first left it, except in the folder of the logs. It may be made any number of
times.

## Main results

* `Session.invocation_idempotent`: an invocation made twice.
* `Session.invocation_repeats`: an invocation made any number of times.
-/

namespace CommandGate

open FileTree Program

namespace Session

variable {settings : Settings} {t u : FileTree} {o o' : Occasion} {args : List String}

/-- An invocation made again, on a tree that agrees but for the logs with the one that it left. -/
theorem perform_invoke_again (hs : settings.Usual) (ho : o.DiffersInTelemetry o')
    (h : AgreeOutside (settings.homeDir.names ++ ["logs"])
      (perform settings t o (.invoke args)).world.tree u) :
    (perform settings u o' (.invoke args)).outcome =
        (perform settings t o (.invoke args)).outcome ∧
      AgreeOutside (settings.homeDir.names ++ ["logs"])
        (perform settings t o (.invoke args)).world.tree
        (perform settings u o' (.invoke args)).world.tree := by
  rw [perform_invoke_world] at h
  have hends : Act.EndsAlike _ (run (o.surroundings settings) args { tree := t })
      (run ((o.surroundings settings).moved o'.environment o'.clock) args { tree := u }) :=
    run_repeats hs ho.environment args h
  rw [← surroundings_moved ho] at hends
  generalize hend : run (o.surroundings settings) args { tree := t } = end₁,
    hend' : run (o'.surroundings settings) args { tree := u } = end₂ at hends
  cases hends with
  | ok code hafter =>
      rw [perform_invoke_of_ok hend, perform_invoke_of_ok hend']
      exact ⟨rfl, hafter⟩
  | error f hafter =>
      rw [perform_invoke_of_error hend, perform_invoke_of_error hend']
      exact ⟨rfl, hafter⟩

/-- **Invocations are idempotent.** For every tree and all arguments: an invocation made a second
time right after the first, with the same answers of the network and of launched programs, has
the same outcome, be it an exit code or a fault, and leaves every entry outside the folder of the
logs as the first left it. -/
theorem invocation_idempotent (hs : settings.Usual) (t : FileTree) (ho : o.DiffersInTelemetry o')
    (args : List String) :
    let first := perform settings t o (.invoke args)
    let second := perform settings first.world.tree o' (.invoke args)
    second.outcome = first.outcome ∧
      AgreeOutside (settings.homeDir.names ++ ["logs"]) first.world.tree second.world.tree :=
  perform_invoke_again hs ho (.refl _)

/-- Setting an installation up twice, the second time with telemetry off. -/
theorem invocation_idempotent_home :
    (settingsAt ⟨.relative, ["home"]⟩).Usual ∧
      quiet.DiffersInTelemetry silent ∧
      (perform (settingsAt ⟨.relative, ["home"]⟩)
          (perform (settingsAt ⟨.relative, ["home"]⟩) [] quiet (.invoke ["init"])).world.tree
          silent (.invoke ["init"])).outcome =
        (perform (settingsAt ⟨.relative, ["home"]⟩) [] quiet (.invoke ["init"])).outcome := by
  have hs : (settingsAt ⟨.relative, ["home"]⟩).Usual := usual_settingsAt (by decide)
  exact ⟨hs, differsInTelemetry_silent,
    (invocation_idempotent hs [] differsInTelemetry_silent ["init"]).1⟩

/-- **An invocation made any number of times more** has the same outcome every time, and leaves
the same outside the folder of the logs. -/
theorem invocation_repeats (hs : settings.Usual) (t : FileTree) (args : List String)
    {more : List Occasion} (hmore : ∀ o' ∈ more, o.DiffersInTelemetry o') :
    let first := perform settings t o (.invoke args)
    ∀ report ∈ reports settings first.world.tree (more.map fun o' => (o', .invoke args)),
      report.outcome = first.outcome ∧
        AgreeOutside (settings.homeDir.names ++ ["logs"]) first.world.tree report.world.tree := by
  intro first
  have hrepeat {u : FileTree}
      (hu : AgreeOutside (settings.homeDir.names ++ ["logs"]) first.world.tree u) :
      ∀ report ∈ reports settings u (more.map fun o' => (o', .invoke args)),
        report.outcome = first.outcome ∧
          AgreeOutside (settings.homeDir.names ++ ["logs"]) first.world.tree
            report.world.tree := by
    induction more generalizing u with
    | nil => simp [reports]
    | cons o' rest ih =>
        obtain ⟨ho', hrest⟩ := List.forall_mem_cons.mp hmore
        have hagain := perform_invoke_again hs ho' hu
        exact List.forall_mem_cons.mpr ⟨hagain, ih hrest hagain.2⟩
  exact hrepeat (.refl _)

end Session

end CommandGate
