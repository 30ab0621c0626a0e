import CommandGate.Program.Run

/-!
# Sessions

A session is a sequence of steps on one file tree. A step is an invocation of the program, or
one of the operations that the program is made of, used on its own: recording an event whose
arguments are given as the text of a JSON object, finding and setting the tutorial state,
making a directory and looking for one. The settings are those of the whole session. What
else a step finds around it is an `Occasion`, which may be another one at every step.

Nothing but the tree is kept from one step to the next: every step starts with empty output
streams, and with no request made and no program launched.
-/

namespace CommandGate

namespace Session

/-- What a step finds around it, apart from the settings. -/
structure Occasion where
  environment : Environment
  clock : Binary64
  network : Answer
  launch : LaunchOutcome

/-- What a step finds around it. -/
def Occasion.surroundings (o : Occasion) (settings : Settings) : Surroundings where
  settings := settings
  environment := o.environment
  clock := o.clock
  network := o.network
  launch := o.launch

/-- A step of a session. -/
inductive Step where
  | invoke (args : List String)
  | record (arguments : Text)
  | findTutorial
  | setTutorial (state : String)
  | create (p : Path)
  | present (p : Path)

/-- What a step that does not fail comes to. -/
inductive Outcome where
  | exit (code : Int)
  | tutorial (state : Tutorial)
  | presence (found : Bool)
  | done

/-- The event whose arguments are the members of a JSON object. Arguments that are not one
name no event. -/
def eventOf (arguments : Text) : Telemetry.Event :=
  match Json.parse arguments with
  | .ok (.object members) =>
    let argument (name : String) : Option Json := Json.member? name members
    let e : Telemetry.Event := { name := (argument "event").getD .null }
    { e with
      payload := (argument "payload").getD e.payload
      level := (argument "level").getD e.level
      status := (argument "status").getD e.status }
  | _ => { name := .null }

/-- A step as a step of the world. -/
def Step.act (s : Surroundings) : Step → Act World Outcome
  | invoke args => return .exit (← Program.run s args)
  | record arguments => do
    Telemetry.record s (eventOf arguments)
    return .done
  | findTutorial => return .tutorial (← World.look (Tutorial.find s.settings.tutorialFile))
  | setTutorial state => do
    World.change (Tutorial.set s.settings.tutorialFile state)
    return .tutorial ⟨state⟩
  | create p => do
    Directory.create p
    return .done
  | present p => return .presence (← Directory.present p)

/-- What a step came to, and the world that it left. -/
structure Report where
  outcome : Except Fault Outcome
  world : World

/-- The report of a step on a tree. -/
def perform (settings : Settings) (t : FileTree) (o : Occasion) (step : Step) : Report :=
  match step.act (o.surroundings settings) { tree := t } with
  | .ok outcome world => ⟨.ok outcome, world⟩
  | .error fault world => ⟨.error fault, world⟩

/-- The reports of steps taken one after another, each on the tree that the one before it
left. -/
def reports (settings : Settings) : FileTree → List (Occasion × Step) → List Report
  | _, [] => []
  | t, (o, step) :: rest =>
    let report := perform settings t o step
    report :: reports settings report.world.tree rest

/-- The tree that steps leave. -/
def treeAfter (settings : Settings) (t : FileTree) (steps : List (Occasion × Step)) : FileTree :=
  steps.foldl (fun t step => (perform settings t step.1 step.2).world.tree) t

end Session

end CommandGate
