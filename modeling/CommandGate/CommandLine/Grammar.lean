/-!
# Command Grammars

A command has options and may have commands below it. An option is known by a long name
with two dashes; it asks for help, asks for the version, switches something on, or takes one
of several words as its value. The option that asks for help has a letter as well.

A grammar is one such command, the root, and everything about command lines is read off it:
which lines are accepted (`CommandLine.read`), the help texts, and the candidates for the
next word. These are the names of the commands that may stand there and begin with it, in
order. The words before it lead to a command; those that begin with a dash are passed over.
-/

namespace CommandGate

namespace CommandLine

/-- What an option does. -/
inductive Effect where
  | help (letter : Char)
  | version
  | switch
  | choice (words : List String)
  deriving DecidableEq

/-- An option of a command. -/
structure OptionSpec where
  long : String
  effect : Effect
  summary : String
  deriving DecidableEq

/-- A command: its options, what is said about it, and the commands below it, each with its
name and a summary. `placeholder` stands for the name of a command below in help texts, and
`required` says whether one must be given. A command that keeps lines shows summaries as
they are; otherwise they are wrapped. -/
structure Command where
  options : List OptionSpec
  description : String
  keepsLines : Bool
  placeholder : String
  required : Bool
  children : List (String × String × Command)

/-- The short name of an option that has one. -/
def OptionSpec.short? (o : OptionSpec) : Option String :=
  match o.effect with
  | .help letter => some (String.ofList ['-', letter])
  | _ => none

/-- The names of an option, the short one first. -/
def OptionSpec.names (o : OptionSpec) : List String :=
  o.short?.toList ++ [o.long]

/-- How complaints name an option. -/
def OptionSpec.label (o : OptionSpec) : String :=
  "/".intercalate o.names

namespace Command

/-- The command of a name directly below. -/
def child? (c : Command) (name : String) : Option Command :=
  (c.children.lookup name).map (·.2)

/-- The names of the commands directly below. -/
def childNames (c : Command) : List String :=
  c.children.map (·.1)

/-- The command that names lead to. -/
def at? (c : Command) : List String → Option Command
  | [] => some c
  | name :: rest => (c.child? name).bind (·.at? rest)

end Command

/-! ### Candidates for the next word -/

/-- Whether a string begins with another. -/
def beginsWith (front s : String) : Bool :=
  front.toList.isPrefixOf s.toList

/-- The command that words lead to, options passed over. -/
def descend (c : Command) : List String → Option Command
  | [] => some c
  | word :: rest =>
    if beginsWith "-" word then descend c rest
    else (c.child? word).bind fun child => descend child rest

/-- The candidates for the last of the words; no words are like an empty one. -/
def candidates (root : Command) (words : List String) : List String :=
  let last := words.getLast?.getD ""
  match descend root words.dropLast with
  | none => []
  | some c => (c.childNames.filter (beginsWith last)).mergeSort (· ≤ ·)

end CommandLine

end CommandGate
