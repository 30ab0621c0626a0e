import CommandGate.Gate
import CommandGate.Release
import CommandGate.Telemetry
import CommandGate.Tutorial

/-!
# The Lifecycle of a Command

Every command passes `preRun` before its body and `postRun` after it. The lifecycle reaches
everything else through `Collaborators`: making the home directory, looking whether a directory
exists, finding the tutorial state, looking up the published version, recording an event and
printing; they also name the interpreter. It works over any state, so the same definitions serve
the program itself and collaborators held in memory.

* `preRun` makes the home directory and then decides whether the command may run. It asks
  for the installation only when the path of the command does not already decide.
* `postRun` tells of a newer version after the bare command, and shows the banner while the
  installation is not initialized.
-/

namespace CommandGate

namespace Lifecycle

open Gate (Decision)

/-- What the lifecycle reaches the rest of the program through. -/
structure Collaborators (σ : Type) where
  createDirectory : Path → Act σ Unit
  directoryExists : Path → Act σ Bool
  findTutorial : Act σ Tutorial
  publishedVersion : Act σ String
  record : Telemetry.Event → Act σ Unit
  print : Text → Act σ Unit
  interpreter : Interpreter

variable {σ : Type}

/-- Whether the installation is initialized. -/
def isInitialized (c : Collaborators σ) (settings : Settings) : Act σ Bool :=
  c.directoryExists settings.commonsDir

/-- An event of a command, with further particulars. -/
def commandEvent (name path : String) (more : List (Text × Json)) : Telemetry.Event where
  name := .string name
  payload := .object (("command", .string path) :: more)

/-- Makes the home directory, and records a failure to do so before passing it on. -/
def makeHome (c : Collaborators σ) (settings : Settings) (path : String) : Act σ Unit := do
  try
    c.createDirectory settings.homeDir
  catch
    | .directory fault =>
      c.record (commandEvent "lifecycle.directory_failed" path
        [("home", .string settings.homeDir.toString), ("error", .string fault.message)])
      throw (.directory fault)
    | fault => throw fault

/-- What comes before the body of a command. -/
def preRun (c : Collaborators σ) (settings : Settings) (path : String) : Act σ Decision := do
  makeHome c settings path
  if Gate.isListed Gate.openPaths path || Gate.isCompletion path then
    return .proceed
  else if ← isInitialized c settings then
    return .proceed
  else
    c.record (commandEvent "lifecycle.blocked" path [])
    return .earlyExit Gate.initMessage 0

/-- Looks up the published version after the bare command, records what came of it, and
tells of a newer version. -/
def verifyNewVersion (c : Collaborators σ) (settings : Settings) (path : String) : Act σ Unit := do
  if Gate.isListed Gate.versionPaths path then
    let latest ← Release.news? c.publishedVersion settings.version
    c.record {
      name := .string "version.check"
      payload := .object [("current", .string settings.version),
        ("latest", (latest.map fun v => Json.string v).getD .null)]
      status := .string (if latest.any (· ≠ "") then "outdated" else "current") }
    match latest with
    | none => return ()
    | some _ =>
      let text := Release.notice settings.version settings.buildDate latest c.interpreter
      c.print (Colour.yellow text ++ "\n")

/-- Finds the tutorial state, and records a failure to do so before passing it on. -/
def findTutorial (c : Collaborators σ) (path : String) : Act σ Tutorial := do
  try
    c.findTutorial
  catch
    | .tutorial fault =>
      c.record (commandEvent "tutorial.failed" path [("error", .string fault.message)])
      throw (.tutorial fault)
    | fault => throw fault

/-- What comes after the body of a command. -/
def postRun (c : Collaborators σ) (settings : Settings) (path : String) : Act σ Unit := do
  verifyNewVersion c settings path
  if !(← isInitialized c settings) then
    let tutorial ← findTutorial c path
    c.print tutorial.banner

end Lifecycle

end CommandGate
