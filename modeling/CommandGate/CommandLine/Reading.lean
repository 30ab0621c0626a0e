import CommandGate.CommandLine.Token
import CommandGate.Text.Quoted

/-!
# Reading a Command Line

A command line is read from the left by one command at a time, beginning with the root. A
command with commands below it gives the first word, and everything after it, to the command
of that name. Options take effect as they are met: a switch is noted, a value is noted for
its option, and a request for help or for the version ends the reading at once.

Before a command reads anything, all arguments up to `--` are looked over for an ambiguous
one, so an ambiguity anywhere is met before any other complaint. Arguments that a command
has no use for are left over, and complained about by the root when all else has been read.

The value of an option may be attached to it, or be the next argument if that is a word. An
attached value `--` counts as no value at all, and is let pass.
-/

namespace CommandGate

namespace CommandLine

/-- Why a command line is rejected. -/
inductive Complaint where
  | ambiguous (arg : String) (names : List String)
  | valueNotTaken (option : OptionSpec) (value : String)
  | valueMissing (option : OptionSpec)
  | notAmong (subject value : String) (words : List String)
  | commandMissing (placeholder : String)
  | leftOver (args : List String)
  deriving DecidableEq

/-- What is noted while a command line is read: the names of the commands entered, the
switches met, the values given to options in order, and the arguments left over. -/
structure Findings where
  path : List String := []
  switches : List String := []
  values : List (String × Option String) := []
  leftOver : List String := []
  deriving DecidableEq

/-- What a command line comes to. A request for help and a complaint belong to the command
at a path. -/
inductive Reading where
  | accepted (found : Findings)
  | help (path : List String)
  | version
  | rejected (path : List String) (complaint : Complaint)
  deriving DecidableEq

namespace Findings

/-- Notes arguments that no one has a use for. -/
def leave (f : Findings) (args : List String) : Findings :=
  { f with leftOver := f.leftOver ++ args }

/-- Notes a switch. -/
def switchOn (f : Findings) (name : String) : Findings :=
  { f with switches := f.switches ++ [name] }

/-- Notes the value of an option. -/
def give (f : Findings) (name : String) (value : Option String) : Findings :=
  { f with values := f.values ++ [(name, value)] }

/-- Notes that the command of a name was entered. -/
def enter (f : Findings) (name : String) : Findings :=
  { f with path := f.path ++ [name] }

/-- Whether a switch was met. -/
def hasSwitch (f : Findings) (name : String) : Bool :=
  f.switches.contains name

/-- The last value given to an option. -/
def value? (f : Findings) (name : String) : Option (Option String) :=
  f.values.reverse.lookup name

end Findings

/-- The first ambiguous argument before `--`. -/
def firstAmbiguous (options : List OptionSpec) : List String → Option Complaint
  | [] => none
  | arg :: rest =>
    if arg = endOfOptions then none
    else match classify options arg with
      | .ambiguous names => some (.ambiguous arg names)
      | _ => firstAmbiguous options rest

/-- The end of a command line, as met by the command that read last. -/
def finish (command : Command) (found : Findings) : Reading :=
  if command.required then .rejected found.path (.commandMissing command.placeholder)
  else if found.leftOver ≠ [] then .rejected [] (.leftOver found.leftOver)
  else .accepted found

/-- What a command makes of the arguments, given what was found before. -/
def walk (command : Command) (found : Findings) : List String → Reading
  | [] => finish command found
  | arg :: rest =>
    let reject (complaint : Complaint) : Reading := .rejected found.path complaint
    if arg = endOfOptions then
      if command.children.isEmpty then finish command (found.leave (arg :: rest))
      else if rest = [] then finish command (found.leave [arg])
      else reject (.notAmong command.placeholder arg command.childNames)
    else match classify command.options arg with
      | .ambiguous names => reject (.ambiguous arg names)
      | .foreign => walk command (found.leave [arg]) rest
      | .word =>
        if command.children.isEmpty then walk command (found.leave [arg]) rest
        else match command.child? arg with
          | none => reject (.notAmong command.placeholder arg command.childNames)
          | some child =>
            match firstAmbiguous child.options rest with
            | some complaint => .rejected (found.enter arg).path complaint
            | none => walk child (found.enter arg) rest
      | .letter _ none => .help found.path
      | .letter spec (some value) =>
        match spec.effect with
        | .help letter =>
          let others := value.toList.dropWhile (· = letter)
          if value ≠ "" ∧ others = [] then .help found.path
          else reject (.valueNotTaken spec (String.ofList others))
        | _ => reject (.valueNotTaken spec value)
      | .option spec (some value) =>
        match spec.effect with
        | .choice words =>
          if value = endOfOptions then walk command (found.give spec.long none) rest
          else if value ∈ words then walk command (found.give spec.long (some value)) rest
          else reject (.notAmong spec.label value words)
        | _ => reject (.valueNotTaken spec value)
      | .option spec none =>
        match spec.effect with
        | .help _ => .help found.path
        | .version => .version
        | .switch => walk command (found.switchOn spec.long) rest
        | .choice words =>
          match rest with
          | [] => reject (.valueMissing spec)
          | value :: rest =>
            if value = endOfOptions ∨ !isWord command.options value then
              reject (.valueMissing spec)
            else if value ∈ words then walk command (found.give spec.long (some value)) rest
            else reject (.notAmong spec.label value words)

/-- What a command line comes to. -/
def read (root : Command) (args : List String) : Reading :=
  match firstAmbiguous root.options args with
  | some complaint => .rejected [] complaint
  | none => walk root {} args

/-- The words in quotes, with commas between. -/
def quotedWords (words : List String) : Text :=
  Text.intercalate ", " (words.map fun w => (Text.ofString w).quoted)

/-- The wording of a complaint. -/
def Complaint.message : Complaint → Text
  | ambiguous arg names => s!"ambiguous option: {arg} could match " ++ ", ".intercalate names
  | valueNotTaken option value =>
    s!"argument {option.label}: ignored explicit argument " ++ Text.quoted value
  | valueMissing option => s!"argument {option.label}: expected one argument"
  | notAmong subject value words =>
    s!"argument {subject}: invalid choice: " ++ Text.quoted value ++ " (choose from "
      ++ quotedWords words ++ ")"
  | commandMissing placeholder => s!"the following arguments are required: {placeholder}"
  | leftOver args => "unrecognized arguments: " ++ " ".intercalate args

end CommandLine

end CommandGate
