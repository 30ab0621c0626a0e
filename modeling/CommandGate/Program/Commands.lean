import CommandGate.CommandLine.Reading
import CommandGate.Gate
import CommandGate.Json.Basic
import CommandGate.Program.Scripts
import CommandGate.Tutorial

/-!
# The Commands of the Program

`Program.grammar` is the grammar of the program's command lines. A line that is accepted
asks for one `Task`, and may switch on reading input from a stream, which no task uses
otherwise than by noting it; the two make an `Invocation`.
-/

namespace CommandGate

open CommandLine (Command OptionSpec Findings)

/-- How an upgrade is carried out: the commands for it are shown, or one of them is run. An
upgrade whose mode is left blank is run. -/
inductive UpgradeMode where
  | print
  | pip
  | pipx
  | blank
  deriving DecidableEq

namespace UpgradeMode

/-- The modes that can be asked for. -/
def all : List UpgradeMode := [print, pip, pipx]

/-- The name of a mode; the blank one has none. -/
def name? : UpgradeMode → Option String
  | print => some "print"
  | pip => some "pip"
  | pipx => some "pipx"
  | blank => none

/-- The mode of a name, and the blank one for no name. -/
def ofName (name : Option String) : UpgradeMode :=
  (all.find? (·.name? = name)).getD blank

/-- A mode in telemetry: its name, or an empty list if it has none. -/
def toJson (m : UpgradeMode) : Json :=
  match m.name? with
  | some name => .string name
  | none => .array []

end UpgradeMode

/-- What an invocation asks for. Setting the tutorial state may come without a state. -/
inductive Task where
  | overview
  | help
  | init
  | upgrade (mode : UpgradeMode)
  | showTutorial
  | setTutorial (state : Option String)
  | completionScript (shell : Shell)
  deriving DecidableEq

/-- An accepted command line. -/
structure Invocation where
  task : Task
  stdin : Bool
  deriving DecidableEq

namespace Program

/-- The description in one line. -/
def shortDescription : String := "rit is a NoOps CLI"

/-- The description in full. -/
def description : String :=
  "A CLI that developers can build and operate\n"
    ++ "your applications without help from the infra staff.\n"
    ++ "Complete documentation available at https://github.com/ZupIT/ritchie-cli"

/-- The option that asks for help. -/
def helpOption : OptionSpec :=
  ⟨"--help", .help 'h', "show this help message and exit"⟩

/-- The option that asks for the version. -/
def versionOption : OptionSpec :=
  ⟨"--version", .version, "show version information and exit"⟩

/-- The switch for input from a stream. -/
def stdinOption : OptionSpec :=
  ⟨"--stdin", .switch, "input by stdin"⟩

/-- The option for the mode of an upgrade. -/
def modeOption : OptionSpec :=
  ⟨"--mode", .choice (UpgradeMode.all.filterMap (·.name?)),
    "print the upgrade command or run it with pip/pipx (default: print)"⟩

/-- The option for the tutorial state. -/
def enabledOption : OptionSpec :=
  ⟨"--enabled", .choice Tutorial.states, "set tutorial state"⟩

/-- A command without commands below it. -/
def leaf (options : List OptionSpec) : Command where
  options := options
  description := ""
  keepsLines := false
  placeholder := ""
  required := false
  children := []

/-- The command for completion scripts, with one command for each shell below it. -/
def completionCommand : Command where
  options := [helpOption, stdinOption]
  description := ""
  keepsLines := false
  placeholder := "<shell>"
  required := true
  children := Shell.all.map fun s =>
    (s.name, s!"Generate the {s.name} completion script", leaf [helpOption])

/-- The grammar of the program's command lines. -/
def grammar : Command where
  options := [helpOption, versionOption, stdinOption]
  description := shortDescription ++ "\n\n" ++ description
  keepsLines := true
  placeholder := "<command>"
  required := false
  children :=
    [("help", "Help about any command", leaf [helpOption, stdinOption]),
      ("init", "Initialize rit configuration", leaf [helpOption, stdinOption]),
      ("upgrade", "Upgrade rit to the latest stable version",
        leaf [helpOption, stdinOption, modeOption]),
      ("tutorial", "Enable or disable the tutorial",
        leaf [helpOption, stdinOption, enabledOption]),
      ("completion", "Generate shell completion scripts", completionCommand)]

end Program

/-- The task that was found on a command line. -/
def Task.of (f : Findings) : Task :=
  match f.path with
  | ["help"] => .help
  | ["init"] => .init
  | ["upgrade"] =>
    .upgrade (((f.value? Program.modeOption.long).map UpgradeMode.ofName).getD .print)
  | ["tutorial"] =>
    match f.value? Program.enabledOption.long with
    | none => .showTutorial
    | some state => .setTutorial state
  | ["completion", name] => ((Shell.ofName? name).map .completionScript).getD .overview
  | _ => .overview

/-- The names of the commands that lead to a task. -/
def Task.names : Task → List String
  | overview => []
  | help => ["help"]
  | init => ["init"]
  | upgrade _ => ["upgrade"]
  | showTutorial => ["tutorial"]
  | setTutorial _ => ["tutorial"]
  | completionScript shell => ["completion", shell.name]

/-- The invocation that was found on a command line. -/
def Invocation.of (f : Findings) : Invocation where
  task := .of f
  stdin := f.hasSwitch Program.stdinOption.long

/-- The command path of an invocation. -/
def Invocation.commandPath (i : Invocation) : String :=
  Gate.commandPath i.task.names

end CommandGate
