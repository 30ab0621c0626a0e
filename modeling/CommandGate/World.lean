import CommandGate.Settings

/-!
# Worlds and Steps

What a run can change is a `World`: the file tree, the text on the two output streams, and
the lists of requests and launches made so far. What a run finds and cannot change are its
`Surroundings`: settings, environment, clock, and what the network and a launched program
would answer.

A step of the program takes a state and gives an answer or a fault, together with the state
that it leaves; after a fault the state is kept as it was when the fault arose. `Act σ` are
the steps over a state `σ`, which is `World` for the program itself.

The output streams take any text, surrogates included: how a terminal encodes what it is sent
is not part of a run. Notices on them are yellow and hints are cyan; a coloured text stands
between the escape sequence of its colour and the one that ends all colours.

A directory that the program needs is made together with the missing ones above it. If the
file system refuses, that is a directory fault about the whole path, whichever part of it
was refused.
-/

namespace CommandGate

/-- What the network answers to a request: a response, a failed request, or a failure of
some other kind, which is passed on. -/
inductive Answer where
  | response (status : Int) (body : String)
  | failed (message : String)
  | foreign (kind message : String)

/-- A request: an address, header fields, and a time limit. -/
structure Request where
  url : String
  headers : List (String × String)
  timeout : Binary64

/-- What becomes of a launched program: it ends with a code, or it cannot be started. -/
inductive LaunchOutcome where
  | ended (code : Int)
  | notStarted (errno : Int) (reason : String)

/-- What a run finds around it. -/
structure Surroundings where
  settings : Settings
  environment : Environment
  clock : Binary64
  network : Answer
  launch : LaunchOutcome

/-- What a run can change. -/
structure World where
  tree : FileTree
  stdout : Text := []
  stderr : Text := []
  requests : List Request := []
  launches : List (List String) := []

/-- Steps over a state that give a value or a fault. -/
abbrev Act (σ : Type) := EStateM Fault σ

/-- One of the two output streams. -/
inductive Stream where
  | stdout
  | stderr
  deriving DecidableEq

namespace World

/-- Writes text to a stream. -/
def print (stream : Stream) (t : Text) : Act World Unit :=
  modify fun w => match stream with
    | .stdout => { w with stdout := w.stdout ++ t }
    | .stderr => { w with stderr := w.stderr ++ t }

/-- Writes a line to a stream. -/
def printLine (stream : Stream) (t : Text) : Act World Unit :=
  print stream (t ++ "\n")

/-- Looks something up in the tree. -/
def look {α : Type} (f : FileTree → Except Fault α) : Act World α := do
  match f (← get).tree with
  | .ok a => return a
  | .error e => throw e

/-- Changes the tree; what a fault leaves of it is kept. -/
def change (f : FileTree → FileTree × Except Fault Unit) : Act World Unit := do
  let (tree, answer) := f (← get).tree
  modify fun w => { w with tree }
  match answer with
  | .ok () => return ()
  | .error e => throw e

/-- Sends a request. -/
def send (s : Surroundings) (r : Request) : Act World Answer := do
  modify fun w => { w with requests := w.requests ++ [r] }
  return s.network

/-- Launches a program. -/
def launch (s : Surroundings) (command : List String) : Act World LaunchOutcome := do
  modify fun w => { w with launches := w.launches ++ [command] }
  return s.launch

end World

/-- A step of the world taken inside a larger state. -/
def Act.within {σ τ α : Type} (read : σ → τ) (write : τ → σ → σ) (a : Act τ α) : Act σ α :=
  fun s => match a (read s) with
    | .ok x t => .ok x (write t s)
    | .error e t => .error e (write t s)

/-! ### Terminal colours -/

namespace Colour

/-- The escape sequence with a number. -/
def escape (number : Nat) : String :=
  s!"\x1b[{number}m"

/-- A text in a colour. -/
def paint (number : Nat) (text : String) : String :=
  escape number ++ text ++ escape 0

/-- A text in yellow. -/
def yellow (text : String) : String :=
  paint 33 text

/-- A text in cyan. -/
def cyan (text : String) : String :=
  paint 36 text

end Colour

/-! ### Directories of the program -/

namespace Directory

/-- Makes a directory in a tree. -/
def make (p : Path) (t : FileTree) : FileTree × Except Fault Unit :=
  match t.makeFolders p with
  | (made, .ok ()) => (made, .ok ())
  | (made, .error (.refused errno _)) => (made, .error (.directory (.notCreated p errno)))
  | (made, .error .embeddedNul) => (made, .error (.file .embeddedNul))

/-- Makes a directory. -/
def create (p : Path) : Act World Unit :=
  World.change (make p)

/-- Whether anything stands at a path. -/
def present (p : Path) : Act World Bool :=
  World.look fun t => (t.present p).mapError .file

end Directory

end CommandGate
