import CommandGate.CommandLine.Layout
import CommandGate.Lifecycle
import CommandGate.Program.Commands

/-!
# Running the Program

`Program.run` takes the arguments of an invocation to its exit code, or to a fault that
nothing recovers from. A command line that asks for help or for the version, or that is
rejected, ends there, before the file tree is touched. Otherwise the gate comes first, then
the body of the task, and then what follows every command.

A first argument `__complete` makes all others words to complete. They are not read as a
command line, and whatever follows the candidates goes to the error stream, because the
shell takes the output stream for candidates.
-/

namespace CommandGate

namespace Program

open CommandLine (Reading helpText usage)

/-- The width of the terminal: what the environment says, if that is a positive number. -/
def terminalColumns (env : Environment) : Int :=
  match (env.get? "COLUMNS").bind readInt? with
  | some n => if 0 < n then n else 80
  | none => 80

/-- The width of help texts. -/
def helpWidth (env : Environment) : Int :=
  terminalColumns env - 2

/-- The help text of the command at a path. -/
def helpOf (env : Environment) (path : List String) : String :=
  helpText (helpWidth env) (Gate.commandPath path) ((grammar.at? path).getD grammar)

/-- The usage of the command at a path. -/
def usageOf (env : Environment) (path : List String) : String :=
  usage (helpWidth env) (Gate.commandPath path) ((grammar.at? path).getD grammar)

/-- What the arguments come to: an end with an exit code, or an invocation. -/
inductive Start where
  | ended (exitCode : Int)
  | invocation (i : Invocation)

/-- Reads the arguments, and answers those that ask for no task. -/
def start (s : Surroundings) (args : List String) : Act World Start := do
  match CommandLine.read grammar args with
  | .accepted found => return .invocation (.of found)
  | .help path =>
    World.print .stdout (helpOf s.environment path)
    return .ended 0
  | .version =>
    let text ← Release.report (Release.current s) s.settings.version s.settings.buildDate
      s.environment.interpreter
    World.print .stdout (s!"{Gate.programName} version " ++ text)
    return .ended 0
  | .rejected path complaint =>
    World.print .stderr (usageOf s.environment path ++ "\n" ++ Gate.commandPath path
      ++ ": error: " ++ complaint.message ++ "\n")
    return .ended 2

/-- Reports a failure of the program on the error stream. -/
def reportFailure (message : Text) : Act World Unit :=
  World.printLine .stderr (s!"{Gate.programName}: " ++ message)

/-- An event with particulars. -/
def event (name : String) (payload : List (Text × Json)) (level : Telemetry.Level) :
    Telemetry.Event where
  name := .string name
  payload := .object payload
  level := .string level.name

/-- Makes the directory that means that the installation is initialized. -/
def setUp (s : Surroundings) : Act World Int := do
  let target := s.settings.commonsDir
  let home := s.settings.homeDir.toString
  let already ← Directory.present target
  try
    Directory.create target
  catch
    | .directory fault =>
      reportFailure fault.message
      Telemetry.record s
        (event "init" [("status", .string "failed"), ("error", .string fault.message)] .error)
      return 1
    | fault => throw fault
  Telemetry.record s
    (event "init" [("status", .string "ok"), ("already_initialized", .bool already)] .info)
  if already then
    World.printLine .stdout s!"{Gate.programName} is already initialized at {home}"
  else
    World.printLine .stdout s!"Initialization successful! {Gate.programName} home: {home}"
  return 0

/-- The command that an upgrade runs in a mode. -/
def upgradeCommand (env : Environment) (mode : UpgradeMode) : List String :=
  if mode = .pipx then ["pipx", "install", "ritchie", "--force"]
  else [env.interpreter.location, "-m", "pip", "install", "--upgrade", "ritchie"]

/-- Shows how to upgrade, or does it. -/
def upgrade (s : Surroundings) (mode : UpgradeMode) : Act World Int := do
  let commandOf := upgradeCommand s.environment
  if mode = .print then
    World.printLine .stdout ("Run one of:\n  " ++ " ".intercalate (commandOf .pipx) ++ "\n  "
      ++ " ".intercalate (commandOf .pip))
    Telemetry.record s (event "upgrade" [("mode", mode.toJson)] .info)
    return 0
  else
    let command := commandOf mode
    match ← World.launch s command with
    | .ended code =>
      Telemetry.record s
        (event "upgrade" [("mode", mode.toJson), ("exit_code", .integer code)] .info)
      return code
    | .notStarted errno reason =>
      let name := command.headD ""
      let message := refusalText errno reason name
      reportFailure (s!"unable to run {name}: " ++ message)
      Telemetry.record s
        (event "upgrade" [("mode", mode.toJson), ("error", .string message)] .error)
      return 1

/-- Shows the tutorial state. -/
def showTutorial (s : Surroundings) : Act World Int := do
  try
    let tutorial ← World.look (Tutorial.find s.settings.tutorialFile)
    World.printLine .stdout ("Current tutorial status: " ++ tutorial.current)
    return 0
  catch
    | .tutorial fault =>
      reportFailure fault.message
      return 1
    | fault => throw fault

/-- Sets the tutorial state. -/
def setTutorial (s : Surroundings) (state : Option String) : Act World Int := do
  match state with
  | none => throw .unknownState
  | some state =>
    World.change (Tutorial.set s.settings.tutorialFile state)
    Telemetry.record s (event "tutorial.set" [("state", .string state)] .info)
    World.printLine .stdout s!"Tutorial {state}"
    return 0

/-- The body of a task. -/
def body (s : Surroundings) : Task → Act World Int
  | .overview | .help => do
    World.print .stdout (helpOf s.environment [])
    return 0
  | .init => setUp s
  | .upgrade mode => upgrade s mode
  | .showTutorial => showTutorial s
  | .setTutorial state => setTutorial s state
  | .completionScript shell => do
    World.print .stdout shell.script
    return 0

/-- The candidates for the last of some words, each on a line. -/
def complete (words : List String) : Act World Int := do
  World.print .stdout ((CommandLine.candidates grammar words).flatMap fun c =>
    Text.ofString (c ++ "\n"))
  return 0

/-- The collaborators of the lifecycle, printing to a stream. -/
def collaborators (s : Surroundings) (stream : Stream) : Lifecycle.Collaborators World where
  createDirectory := Directory.create
  directoryExists := Directory.present
  findTutorial := World.look (Tutorial.find s.settings.tutorialFile)
  publishedVersion := Release.current s
  record := Telemetry.record s
  print := World.print stream
  interpreter := s.environment.interpreter

/-- The gate before a command. A command that may not run is answered here, and its exit
code given. -/
def enter (s : Surroundings) (path : String) : Act World (Option Int) := do
  try
    match ← Lifecycle.preRun (collaborators s .stdout) s.settings path with
    | .proceed => return none
    | .earlyExit message exitCode =>
      World.printLine .stdout message
      return some exitCode
  catch
    | .directory fault =>
      reportFailure fault.message
      return some 1
    | fault => throw fault

/-- What follows a command that ended with an exit code. -/
def leave (s : Surroundings) (path : String) (exitCode : Int) : Act World Int := do
  let stream := if Gate.isCompletion path then Stream.stderr else .stdout
  try
    Lifecycle.postRun (collaborators s stream) s.settings path
    return exitCode
  catch
    | .tutorial fault =>
      reportFailure fault.message
      return 1
    | fault => throw fault

/-- A command from the gate to its exit code. -/
def runCommand (s : Surroundings) (path : String) (command : Act World Int) : Act World Int := do
  match ← enter s path with
  | some exitCode => return exitCode
  | none => leave s path (← command)

/-- An invocation from its arguments to its exit code. -/
def run (s : Surroundings) (args : List String) : Act World Int := do
  let asArguments : Act World Int := do
    match ← start s args with
    | .ended exitCode => return exitCode
    | .invocation i => runCommand s i.commandPath (body s i.task)
  match args with
  | [] => asArguments
  | first :: words =>
    if first = Gate.completionMarker then
      runCommand s (Gate.commandPath [Gate.completionMarker]) (complete words)
    else asArguments

end Program

end CommandGate
