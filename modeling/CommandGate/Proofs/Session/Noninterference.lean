import CommandGate.Proofs.Program.Noninterference
import CommandGate.Proofs.Session.Invocations

/-!
# Telemetry over Whole Sessions

Two sessions of the same invocations, in which the clocks and the switch of telemetry differ
and which begin with trees that agree outside the folder of the logs, come to the same at
every step, and their trees agree outside that folder all along.

## Main results

* `Session.telemetry_noninterference`: two such sessions side by side.
-/

namespace CommandGate

open FileTree Program

namespace Session

/-- Two occasions that differ at most in the clock and in the switch of telemetry. -/
structure Occasion.DiffersInTelemetry (o o' : Occasion) : Prop where
  environment : o.environment.AgreesBut Telemetry.switchName o'.environment
  network : o'.network = o.network
  launch : o'.launch = o.launch

/-- The silent occasion differs from the quiet one in the switch of telemetry only. -/
theorem differsInTelemetry_silent : quiet.DiffersInTelemetry silent := by
  refine ⟨⟨fun other hne => ?_, rfl⟩, rfl, rfl⟩
  have hother : (other == Telemetry.switchName) = false := by simpa using hne
  simp [Environment.get?, quiet, silent, List.lookup_cons, hother]

/-- Two invocations with the same arguments, on occasions that differ at most in the clock
and in the switch of telemetry. -/
def SameInvocation (run run' : Occasion × List String) : Prop :=
  run.1.DiffersInTelemetry run'.1 ∧ run'.2 = run.2

/-- Two reports of the same outcome, with worlds that are the same but at a location and
below it. -/
def Report.SameBut (here : Location) (r r' : Report) : Prop :=
  r'.outcome = r.outcome ∧ r.world.SameBut here r'.world

variable {settings : Settings} {t t' : FileTree} {o o' : Occasion}

/-- Occasions that differ in recording have surroundings that differ in it. -/
theorem surroundings_moved (h : o.DiffersInTelemetry o') :
    o'.surroundings settings = (o.surroundings settings).moved o'.environment o'.clock := by
  rw [Occasion.surroundings, h.network, h.launch]
  rfl

/-- **One invocation** in each session: the reports are the same but for the logs. -/
theorem perform_invoke_sameBut (hs : settings.Usual)
    (ht : AgreeOutside (settings.homeDir.names ++ ["logs"]) t t')
    (ho : o.DiffersInTelemetry o') (args : List String) :
    Report.SameBut (settings.homeDir.names ++ ["logs"]) (perform settings t o (.invoke args))
      (perform settings t' o' (.invoke args)) := by
  have halike : Act.Alike _ (run (o.surroundings settings) args)
      (run ((o.surroundings settings).moved o'.environment o'.clock) args) :=
    run_alike hs ho.environment args
  rw [← surroundings_moved ho] at halike
  have hends := halike { tree := t } { tree := t' } ⟨t', ht, rfl⟩
  generalize hend : run (o.surroundings settings) args { tree := t } = end₁,
    hend' : run (o'.surroundings settings) args { tree := t' } = end₂ at hends
  cases hends with
  | ok code h =>
      rw [perform_invoke_of_ok hend, perform_invoke_of_ok hend']
      exact ⟨rfl, h⟩
  | error f h =>
      rw [perform_invoke_of_error hend, perform_invoke_of_error hend']
      exact ⟨rfl, h⟩

/-- **Telemetry does not show.** Two sessions of the same invocations, on occasions that differ
at most in the clocks and in the switch of telemetry, from trees that agree outside the folder
of the logs: at every step the outcomes, the outputs, the requests and the launches are the
same, and the trees agree outside that folder. -/
theorem telemetry_noninterference (hs : settings.Usual)
    (ht : AgreeOutside (settings.homeDir.names ++ ["logs"]) t t')
    {runs runs' : List (Occasion × List String)} (hruns : List.Forall₂ SameInvocation runs runs') :
    List.Forall₂ (Report.SameBut (settings.homeDir.names ++ ["logs"]))
      (reports settings t (invocations runs)) (reports settings t' (invocations runs')) := by
  induction hruns generalizing t t' with
  | nil => exact .nil
  | @cons run run' rest rest' hrun _ ih =>
      obtain ⟨o, args⟩ := run
      obtain ⟨o', args'⟩ := run'
      obtain ⟨ho, rfl⟩ : o.DiffersInTelemetry o' ∧ args' = args := hrun
      have hstep := perform_invoke_sameBut hs ht ho args'
      obtain ⟨u, hu, hw⟩ := hstep.2
      have hnext : AgreeOutside (settings.homeDir.names ++ ["logs"])
          (perform settings t o (.invoke args')).world.tree
          (perform settings t' o' (.invoke args')).world.tree := by
        rw [hw]
        exact hu
      exact .cons hstep (ih hnext)

/-- The same invocation with telemetry on where nothing stands in the place of the logs, and
with telemetry off where a file does. -/
theorem telemetry_noninterference_home :
    (settingsAt ⟨.relative, ["home"]⟩).Usual ∧
      AgreeOutside ["home", "logs"] [("home", .folder [])]
        [("home", .folder [("logs", .file [])])] ∧
      SameInvocation (quiet, ["tutorial"]) (silent, ["tutorial"]) ∧
      Report.SameBut ["home", "logs"]
        (perform (settingsAt ⟨.relative, ["home"]⟩) [("home", .folder [])] quiet
          (.invoke ["tutorial"]))
        (perform (settingsAt ⟨.relative, ["home"]⟩) [("home", .folder [("logs", .file [])])] silent
          (.invoke ["tutorial"])) := by
  have hs : (settingsAt ⟨.relative, ["home"]⟩).Usual := usual_settingsAt (by decide)
  have ht : AgreeOutside ["home", "logs"] [("home", .folder [])]
      [("home", .folder [("logs", .file [])])] := by
    intro m hm
    have hput : FileTree.put (.file []) [("home", .folder [])] ["home", "logs"] =
        [("home", .folder [("logs", .file [])])] := rfl
    have hbare : IsBare (.file []) := trivial
    have hup : look [("home", .folder [])] (["home", "logs"] : Location).dropLast =
        some .folder := by decide
    have hfree : look [("home", .folder [])] ["home", "logs"] ≠ some .folder := by decide
    rw [← hput, look_put hbare (by simp) hup hfree, if_neg]
    rintro rfl
    exact hm List.prefix_rfl
  have hrun : SameInvocation (quiet, ["tutorial"]) (silent, ["tutorial"]) :=
    ⟨differsInTelemetry_silent, rfl⟩
  exact ⟨hs, ht, hrun,
    (List.forall₂_cons.mp (telemetry_noninterference hs ht (.cons hrun .nil))).1⟩

end Session

end CommandGate
