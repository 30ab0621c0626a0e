/-!
# The Gate

A command path is the program's name and the names of a command under it, joined by
spaces. The gate lets a command pass if its path is on the list of those that need no
initialized installation, or if it is part of completing a command line; any other command
passes only in an initialized installation. A command that does not pass is no failure: it
ends early, with a message and an exit code of its own.
-/

namespace CommandGate

namespace Gate

/-- The name of the program. -/
def programName : String := "rit"

/-- The word that asks for the candidates of a partial command line. -/
def completionMarker : String := "__complete"

/-- The path of the command with the given names. -/
def commandPath (names : List String) : String :=
  " ".intercalate (programName :: names)

/-- The paths that need no initialized installation. -/
def openPaths : List String :=
  [[], ["help"], ["completion", "zsh"], ["completion", "bash"], ["completion", "fish"],
    ["completion", "powershell"], ["init"], ["upgrade"]].map commandPath

/-- The paths after which the published version is looked up. -/
def versionPaths : List String :=
  [programName]

/-- Whether a path is on a list. -/
def isListed (paths : List String) (path : String) : Bool :=
  paths.contains path

/-- Whether a list of characters occurs in another without a gap. -/
def occursIn (part : List Char) : List Char → Bool
  | [] => part.isEmpty
  | c :: rest => part.isPrefixOf (c :: rest) || occursIn part rest

/-- Whether a path is part of completing a command line. -/
def isCompletion (path : String) : Bool :=
  occursIn completionMarker.toList path.toList

/-- What a command that does not pass is answered with. -/
def initMessage : String :=
  s!"To start using {programName}, you need to initialize {programName} first.\n"
    ++ s!"Command: {programName} init"

/-- What the gate decides about a command. -/
inductive Decision where
  | proceed
  | earlyExit (message : String) (exitCode : Int)
  deriving DecidableEq

namespace Decision

/-- The message of a command that ends early; a command that passes has none. -/
def message : Decision → String
  | proceed => ""
  | earlyExit message _ => message

/-- The exit code of a command that ends early; a command that passes has zero. -/
def exitCode : Decision → Int
  | proceed => 0
  | earlyExit _ code => code

/-- Whether the command passes. -/
def shouldProceed : Decision → Bool
  | proceed => true
  | earlyExit .. => false

end Decision

end Gate

end CommandGate
