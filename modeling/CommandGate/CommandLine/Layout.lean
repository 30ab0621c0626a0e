import CommandGate.CommandLine.Grammar

/-!
# Help Texts

The usage of a command lists its options in brackets and then the placeholder of the
commands below it. It stands on one line if it fits, and is otherwise broken between parts,
the parts of the placeholder beginning a line of their own.

A help text is the usage, the description, the commands below, and the options. Entries are
indented by two blanks, and by two more below a placeholder; summaries begin in one column,
which is as far to the left as the longest entry allows, up to a limit that depends on the
width. A summary that does not fit behind its entry begins on the next line.

The width of a text is two less than that of the terminal. It may be negative, so widths are
integers.
-/

namespace CommandGate

namespace CommandLine

/-- A number of blanks. -/
def blanks (n : Int) : String :=
  String.ofList (List.replicate n.toNat ' ')

/-- The parts that fit on each line, in order: a line takes parts while they fit, and at
least one. `used` is what the line under way holds already, and `start` what every later line
begins with. -/
def fill (limit start : Int) : Int → List String → List String → List (List String)
  | _, line, [] => if line = [] then [] else [line]
  | used, line, part :: rest =>
    if line ≠ [] ∧ limit < used + 1 + part.length then
      line :: fill limit start (start + 1 + part.length) [part] rest
    else fill limit start (used + 1 + part.length) (line ++ [part]) rest

/-- The lines of parts, each behind `indent` blanks. -/
def fillLines (limit indent : Int) (parts : List String) : List String :=
  (fill limit (indent - 1) (indent - 1) [] parts).map (blanks indent ++ " ".intercalate ·)

/-- A text wrapped at blanks. -/
def wrap (width : Int) (text : String) : List String :=
  (fill width (-1) (-1) [] ((text.splitOn " ").filter (· ≠ ""))).map (" ".intercalate ·)

/-- The words that an option takes, in braces. -/
def OptionSpec.argument? (o : OptionSpec) : Option String :=
  match o.effect with
  | .choice words => some ("\x7b" ++ ",".intercalate words ++ "\x7d")
  | _ => none

/-- An option as usages show it. -/
def OptionSpec.usagePart (o : OptionSpec) : String :=
  "[" ++ " ".intercalate (o.names.take 1 ++ o.argument?.toList) ++ "]"

/-- An option as entries of help texts show it. -/
def OptionSpec.entry (o : OptionSpec) : String :=
  " ".intercalate (", ".intercalate o.names :: o.argument?.toList)

/-- What a usage begins with. -/
def usageLead : String := "usage: "

/-- The usage of a command that is called `program`. -/
def usage (width : Int) (program : String) (c : Command) : String :=
  let options := c.options.map (·.usagePart)
  let below := if c.children.isEmpty then [] else [c.placeholder, "..."]
  let whole := " ".intercalate (program :: options ++ below)
  let lead : Int := usageLead.length
  let lines :=
    if lead + whole.length ≤ width then [whole]
    else if 4 * (lead + program.length) ≤ 3 * width then
      let indent := lead + program.length + 1
      let first := (fill width (indent - 1) (lead - 1) [] (program :: options)).map
        (" ".intercalate ·)
      first.take 1 ++ (first.drop 1).map (blanks indent ++ ·) ++ fillLines width indent below
    else
      let together := fillLines width lead (options ++ below)
      program ::
        (if together.length ≤ 1 then together
          else fillLines width lead options ++ fillLines width lead below)
  usageLead ++ "\n".intercalate lines

/-- Where the summaries of a help text stand: their column, and their width. -/
structure Columns where
  column : Int
  width : Int

/-- The columns that a command's help text has at a width. -/
def columnsOf (width : Int) (c : Command) : Columns :=
  let below := if c.children.isEmpty then [] else c.placeholder :: c.childNames
  let entries := below ++ c.options.map (·.entry)
  let longest : Nat := (entries.map String.length).foldl max 0
  let column : Int := min (longest + 4) (min 24 (max (width - 20) 4))
  { column, width := max (width - column) 11 }

/-- The lines of one entry with its summary. -/
def entryLines (columns : Columns) (keepsLines : Bool) (indent : Int) (entry summary : String) :
    List String :=
  let lines := if keepsLines then summary.splitOn "\n" else wrap columns.width summary
  let room := columns.column - indent - 2
  let below := (lines.drop 1).map (blanks columns.column ++ ·)
  if entry.length ≤ room then
    let gap := blanks (room - entry.length + 2)
    (blanks indent ++ entry ++ gap ++ "".intercalate (lines.take 1)) :: below
  else
    (blanks indent ++ entry) :: (lines.take 1).map (blanks columns.column ++ ·) ++ below

/-- The help text of a command that is called `program`. -/
def helpText (width : Int) (program : String) (c : Command) : String :=
  let columns := columnsOf width c
  let below :=
    if c.children.isEmpty then []
    else
      ["\n".intercalate ("positional arguments:" :: ("  " ++ c.placeholder) ::
        c.children.flatMap fun (name, summary, _) =>
          entryLines columns c.keepsLines 4 name summary)]
  let description := if c.description = "" then [] else [c.description]
  let options :=
    ["\n".intercalate ("options:" :: c.options.flatMap fun o =>
      entryLines columns c.keepsLines 2 o.entry o.summary)]
  "\n\n".intercalate (usage width program c :: description ++ below ++ options) ++ "\n"

end CommandLine

end CommandGate
