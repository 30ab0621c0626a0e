import CommandGate.FileTree.Arrange
import CommandGate.Program.Run
import Std.Time.DateTime

/-!
# The Command Line Program

The outermost layer. It reads the environment and the few places of the file system that an
invocation can touch into a world, runs the program on it, and brings the file system and
the output streams to the state that the program left. It has no network and launches no
programs: a request fails, and a launch finds no program.
-/

namespace CommandGate

namespace Main

/-- The variables that the program looks at. -/
def variableNames : List String :=
  ["HOME", "COLUMNS", "RITCHIE_HOME", "RITCHIE_STABLE_VERSION_URL", "RITCHIE_VERSION_TIMEOUT",
    Telemetry.switchName]

/-- The accounts that a list with fields between colons describes. -/
def accountsOf (list : String) : List (String × String) :=
  (list.splitOn "\n").filterMap fun line =>
    match line.splitOn ":" with
    | name :: _ :: _ :: _ :: _ :: home :: _ => some (name, home)
    | _ => none

/-- The number of the account of a process, in what the system tells of it. -/
def accountNumber (status : String) : Option String :=
  (status.splitOn "\n").findSome? fun line =>
    match line.splitOn "\t" with
    | "Uid:" :: number :: _ => some number
    | _ => none

/-- The home directory of the account with a number, in a list of accounts. -/
def homeOfNumber (list number : String) : Option String :=
  (list.splitOn "\n").findSome? fun line =>
    match line.splitOn ":" with
    | _ :: _ :: n :: _ :: _ :: home :: _ => if n = number then some home else none
    | _ => none

/-- The locations on the way along names, each after those above it. -/
def locationsAlong : Location → List String → List Location
  | _, [] => []
  | here, name :: rest =>
    let next := if name = ".." then here.dropLast else here ++ [name]
    next :: locationsAlong next rest

/-- The locations that an invocation can touch. -/
def locations (s : Settings) : List Location :=
  (locationsAlong [] s.commonsDir.names ++ locationsAlong [] s.logFile.names
    ++ locationsAlong [] s.tutorialFile.names).eraseDups

/-- The spelling of a location, for the settings' anchor. -/
def spelling (s : Settings) (l : Location) : String :=
  (Path.mk s.homeDir.anchor l).toString

/-- The environment of this process. -/
def environment : IO Environment := do
  let accounts ← try IO.FS.readFile "/etc/passwd" catch _ => pure ""
  let status ← try IO.FS.readFile "/proc/self/status" catch _ => pure ""
  let found ← variableNames.filterMapM fun name => do
    return (← IO.getEnv name).map fun value => (name, value)
  return {
    bindings := found
    accounts := accountsOf accounts
    ownHome := (accountNumber status).bind (homeOfNumber accounts) }

/-- What an open place holds: the bytes of a file, or a folder, which cannot be read. -/
def holds (handle : IO.FS.Handle) : IO (Option Bytes) := do
  try
    return some (← handle.readBinToEnd).toList
  catch _ =>
    return none

/-- What stands at a place, if anything does. -/
def probe (place : String) : IO (Option (Option Bytes)) := do
  try
    return some (← holds (← IO.FS.Handle.mk place .read))
  catch _ =>
    return none

/-- The places that an invocation can touch, as a tree. -/
def snapshot (s : Settings) : IO FileTree := do
  let mut tree : FileTree := []
  for l in locations s do
    match ← probe (spelling s l) with
    | some content => tree := tree.plant content l
    | none => pure ()
  return tree

/-- Brings the places that an invocation can touch from one tree to another. -/
def bringTo (s : Settings) (before after : FileTree) : IO Unit := do
  for l in locations s do
    match before.at? l, after.at? l with
    | none, some (.folder _) => IO.FS.createDir (spelling s l)
    | some (.file old), some (.file new) =>
      if old ≠ new then IO.FS.writeBinFile (spelling s l) ⟨new.toArray⟩
    | none, some (.file new) => IO.FS.writeBinFile (spelling s l) ⟨new.toArray⟩
    | _, _ => pure ()

/-- The characters of a text; surrogates have none. -/
def printable (t : Text) : String :=
  String.ofList (t.filterMap fun c => match c with
    | .scalar c => some c
    | .surrogate _ => none)

/-- The time now, in seconds. -/
def now : IO Binary64 := do
  let time ← Std.Time.Timestamp.now
  let nanoseconds : Int := time.toNanosecondsSinceUnixEpoch.val
  return .ofRatio (nanoseconds < 0) nanoseconds.natAbs 1000000000

/-- Runs an invocation, and gives its exit code. -/
def invoke (settings : Settings) (environment : Environment) (args : List String) :
    IO UInt32 := do
  let surroundings : Surroundings := {
    settings, environment
    clock := ← now
    network := .failed "no network"
    launch := .notStarted Errno.notFound.number Errno.notFound.message }
  let before ← snapshot settings
  let (world, trouble, exitCode) := match Program.run surroundings args { tree := before } with
    | .ok code world => (world, [], code)
    | .error fault world => (world, fault.message ++ Text.ofString "\n", 1)
  bringTo settings before world.tree
  IO.print (printable world.stdout)
  IO.eprint (printable (world.stderr ++ trouble))
  return (exitCode % 256).toNat.toUInt32

end Main

end CommandGate

/-- Runs an invocation with the settings of the environment. -/
def main (args : List String) : IO UInt32 := do
  let environment ← CommandGate.Main.environment
  match CommandGate.Settings.load environment with
  | .ok settings => CommandGate.Main.invoke settings environment args
  | .error fault =>
    IO.eprintln (CommandGate.Main.printable fault.message)
    return 1
