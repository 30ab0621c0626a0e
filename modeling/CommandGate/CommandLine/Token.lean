import CommandGate.CommandLine.Grammar
import CommandGate.Text.Classes

/-!
# Tokens of a Command Line

What an argument is depends on the options of the command that reads it. An argument that
begins with a dash names an option if it is one of the names; if a name and then `=` and a
value; if it begins a long name, with or without `=` and a value; or if it is the short name
followed by more letters. If it begins several long names it is ambiguous. Anything else
that begins with a dash is foreign to the command, unless it looks like a negative number or
holds a space. All other arguments, and the single dash, are words.
-/

namespace CommandGate

namespace CommandLine

/-- What an argument is to a command. An attached value is the part after `=`, or the
letters after the short name. -/
inductive Token where
  | word
  | option (spec : OptionSpec) (attached : Option String)
  | letter (spec : OptionSpec) (attached : Option String)
  | foreign
  | ambiguous (names : List String)

/-- The argument that ends the options. -/
def endOfOptions : String := "--"

/-- The parts before and after the first `=`. -/
def splitValue (cs : List Char) : List Char × Option String :=
  match cs.dropWhile (· ≠ '=') with
  | [] => (cs, none)
  | _ :: value => (cs.takeWhile (· ≠ '='), some (String.ofList value))

/-- The token of an option that one of its names is spelled for. -/
def named? (options : List OptionSpec) (name : String) (attached : Option String) :
    Option Token :=
  match options.find? (·.long = name) with
  | some spec => some (.option spec attached)
  | none => (options.find? (·.short? = some name)).map (.letter · attached)

/-- Whether the characters spell a negative number: a dash, then digits of any script, or
digits with a point before the last of them. A line break at the end is let pass. -/
def isNegativeNumber (cs : List Char) : Bool :=
  let isDigit (c : Char) : Bool := (decimalDigit? c).isSome
  let body := if cs.getLast? = some '\n' then cs.dropLast else cs
  match body with
  | '-' :: number =>
    match number.dropWhile isDigit with
    | [] => number ≠ []
    | '.' :: fraction => fraction ≠ [] && fraction.all isDigit
    | _ => false
  | _ => false

/-- The options that an argument with two dashes may be short for. -/
def abbreviated (options : List OptionSpec) (front : List Char) : List OptionSpec :=
  options.filter fun o => front.isPrefixOf o.long.toList

/-- What an argument is when it is neither a name nor the beginning of one. -/
def unnamed (cs : List Char) : Token :=
  if isNegativeNumber cs ∨ ' ' ∈ cs then .word else .foreign

/-- What an argument is to a command with the given options. -/
def classify (options : List OptionSpec) (arg : String) : Token :=
  match arg.toList with
  | '-' :: second :: rest =>
    let cs := '-' :: second :: rest
    let (front, attached) := splitValue cs
    match named? options arg none with
    | some token => token
    | none =>
      match attached.bind fun value => named? options (String.ofList front) (some value) with
      | some token => token
      | none =>
        if second = '-' then
          match abbreviated options front with
          | [] => unnamed cs
          | [spec] => .option spec attached
          | several => .ambiguous (several.map (·.long))
        else
          match options.find? (·.short? = some (String.ofList ['-', second])) with
          | some spec => .letter spec (some (String.ofList rest))
          | none => unnamed cs
  | _ => .word

/-- Whether an argument is a word to a command. -/
def isWord (options : List OptionSpec) (arg : String) : Bool :=
  match classify options arg with
  | .word => true
  | _ => false

end CommandLine

end CommandGate
