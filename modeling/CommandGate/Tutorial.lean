import CommandGate.World

/-!
# The Tutorial State

The tutorial state is a word in a small JSON file. A missing file, and a file whose object
has no member for it, mean that the tutorial is on. Any value is taken as a state, in the
spelling that messages show it in; only the string `on` turns the tutorial on. A file that
is no JSON object is a tutorial fault. A file that is not UTF-8, or that holds a whole
number too long to read, is a fault of its own that nothing recovers from.

Writing accepts the two states `on` and `off` and writes the file in full, always in the
same form.
-/

namespace CommandGate

/-- The state of the tutorial. -/
structure Tutorial where
  current : Text

namespace Tutorial

/-- The state in which the banner is shown. -/
def on : String := "on"

/-- The states that can be written. -/
def states : List String := [on, "off"]

/-- The name of the member that holds the state. -/
def memberName : String := "tutorial"

/-- Whether the banner is shown. -/
def enabled (t : Tutorial) : Bool :=
  t.current = Text.ofString on

/-- The state as a JSON object. -/
def toJson (t : Tutorial) : Json :=
  .object [(memberName, .string t.current)]

/-- The text with each carriage return, and each pair of it and a line feed, made one line
feed. -/
def unifyLines : Text → Text
  | .scalar '\r' :: .scalar '\n' :: rest => .scalar '\n' :: unifyLines rest
  | .scalar '\r' :: rest => .scalar '\n' :: unifyLines rest
  | c :: rest => c :: unifyLines rest
  | [] => []

/-- The state that a document holds, for the file at a path. -/
def ofDocument (path : Path) (document : Text) : Except Fault Tutorial :=
  match Json.parse document with
  | .error (.malformed complaint position) =>
    .error (.tutorial (.unreadable path (.malformed complaint position)))
  | .error (.longInteger digits) => .error (.longInteger digits)
  | .ok (.object members) =>
    .ok ⟨((Json.member? memberName members).map Json.display).getD on⟩
  | .ok _ => .error (.tutorial (.notObject path))

/-- The state that bytes hold, for the file at a path. -/
def ofBytes (path : Path) (bytes : Bytes) : Except Fault Tutorial :=
  match Utf8.decode bytes with
  | .error e => .error (.decoding e)
  | .ok t => ofDocument path (unifyLines t)

/-- The state in the file at a path. -/
def find (path : Path) (t : FileTree) : Except Fault Tutorial :=
  match t.present path with
  | .error e => .error (.file e)
  | .ok false => .ok ⟨on⟩
  | .ok true =>
    match t.read path with
    | .error (.refused errno _) => .error (.tutorial (.unreadable path (.refused errno)))
    | .error e => .error (.file e)
    | .ok bytes => ofBytes path bytes

/-- What a file with the state holds: an indented object and a line break, all ASCII. -/
def fileContent (t : Tutorial) : Bytes :=
  (Json.write .pretty t.toJson ++ "\n").map fun c => .ofNat c.value

/-- Writes a state to the file at a path, after making the folders above it. -/
def set (path : Path) (state : String) (t : FileTree) : FileTree × Except Fault Unit :=
  if state ∉ states then (t, .error .unknownState)
  else
    match t.makeFolders path.parent with
    | (made, .error e) => (made, .error (.file e))
    | (made, .ok ()) =>
      match made.write path (fileContent ⟨state⟩) with
      | .error e => (made, .error (.file e))
      | .ok written => (written, .ok ())

/-- The first line of the banner. -/
def bannerTag : String := "\n[TUTORIAL]"

/-- The second line of the banner. -/
def bannerTitle : String := "To initialize the ritchie:"

/-- The rest of the banner. -/
def bannerBody : String := " ∙ Run \"rit init\"\n"

/-- What is shown after a command, for a state. -/
def banner (t : Tutorial) : Text :=
  if t.enabled then
    Colour.cyan bannerTag ++ "\n" ++ Colour.cyan bannerTitle ++ "\n" ++ bannerBody ++ "\n"
  else []

end Tutorial

end CommandGate
