import CommandGate.Json.Schema
import CommandGate.World

/-!
# Telemetry

A telemetry event becomes one record, and a record one line at the end of the log. A record
has a time, an event name that is not blank, an object of particulars, one of three levels,
and possibly a status that is not empty. The arguments of an event can be any JSON values;
`Record.of` makes a record of them or names the first thing that is wrong, in the order
event, payload, level, status. A payload or a status that is vacant counts as not given.

The first three of them are checked one at a time. Then the members of the record are checked
as a whole against `schema`, which by then leaves nothing but the status to be wrong.

The arguments of an event are values that a JSON document can give: their whole numbers have at
most `maxIntegerDigits` digits, and writing those is no fault.

Telemetry can be switched off by a variable of the environment; then no event is looked at.
A log that cannot be opened is no fault, and the event is lost. A record that has no UTF-8
form is a fault, which leaves the log as it was, made if it was absent.
-/

namespace CommandGate

namespace Telemetry

/-- The levels of events. -/
inductive Level where
  | info
  | warn
  | error
  deriving DecidableEq

/-- The name of a level. -/
def Level.name : Level → String
  | info => "info"
  | warn => "warn"
  | error => "error"

/-- The levels, in the order of their names. -/
def Level.all : List Level := [error, info, warn]

/-- A record of an event. -/
structure Record where
  time : Binary64
  event : Text
  payload : List (Text × Json)
  level : Level
  status : Option Text

/-- The arguments of an event. -/
structure Event where
  name : Json
  payload : Json := .null
  level : Json := .string "info"
  status : Json := .null

/-- The members of the record of an event, as they are given: an empty object for a payload
that counts as not given, and no status if it counts as not given. -/
def Event.members (time : Binary64) (e : Event) : List (Text × Json) :=
  [(Text.ofString "ts", .number time), (Text.ofString "event", e.name),
    (Text.ofString "payload", if e.payload.isVacant then .object [] else e.payload),
    (Text.ofString "level", e.level)] ++
  if e.status.isVacant then [] else [(Text.ofString "status", e.status)]

/-- The schema of records. -/
def schema : Json.Schema where
  required := ["ts", "event", "payload", "level"]
  properties := [("ts", [.type .number]), ("event", [.type .string, .minLength 1]),
    ("payload", [.type .object]), ("level", [.enum ["info", "warn", "error"]]),
    ("status", [.type .string])]
  additional := false

namespace Record

/-- The name of an event: a string that is not blank. -/
def eventOf : Json → Except RecordFault Text
  | .string t => if t.isBlank then .error .event else .ok t
  | _ => .error .event

/-- The particulars of an event: an object, or something vacant. -/
def payloadOf (payload : Json) : Except RecordFault (List (Text × Json)) :=
  if payload.isVacant then .ok []
  else match payload with
    | .object members => .ok members
    | _ => .error .payload

/-- The level of an event: the name of one. -/
def levelOf (level : Json) : Except RecordFault Level :=
  match level with
  | .array _ => .error .listLevel
  | .object _ => .error .mappingLevel
  | .string t =>
    match Level.all.find? fun l => t = Text.ofString l.name with
    | some l => .ok l
    | none => .error (.unknownLevel level)
  | _ => .error (.unknownLevel level)

/-- The status of an event, if a string that is not empty is given. -/
def givenStatus : Json → Option Text
  | .string t => if t.isEmpty then none else some t
  | _ => none

/-- The record of an event at a time. -/
def of (time : Binary64) (e : Event) : Except RecordFault Record := do
  let event ← eventOf e.name
  let payload ← payloadOf e.payload
  let level ← levelOf e.level
  if schema.admits (.object (e.members time)) then
    return { time, event, payload, level, status := givenStatus e.status }
  else throw (.status e.status)

/-- A record as a JSON object. -/
def toJson (r : Record) : Json :=
  let always : List (Text × Json) :=
    [("ts", .number r.time), ("event", .string r.event), ("payload", .object r.payload),
      ("level", .string r.level.name)]
  .object (always ++ (r.status.map fun t => (Text.ofString "status", .string t)).toList)

/-- The line of a record. -/
def line (r : Record) : Text :=
  Json.write .line r.toJson ++ "\n"

end Record

/-- The variable that switches telemetry. -/
def switchName : String := "RITCHIE_TELEMETRY"

/-- The values of the variable that switch telemetry off, in any case of ASCII letters. -/
def offValues : List String := ["0", "false", "no", "off"]

/-- Whether events are recorded. -/
def enabled (env : Environment) : Bool :=
  match env.get? switchName with
  | none => true
  | some value => !offValues.contains (String.ofList (value.toList.map Char.toLower))

/-- Appends a line to the log in a tree. -/
def appendLine (log : Path) (line : Text) (t : FileTree) : FileTree × Except Fault Unit :=
  match t.makeFolders log.parent with
  | (made, .error .embeddedNul) => (made, .error (.file .embeddedNul))
  | (made, .error _) => (made, .ok ())
  | (made, .ok ()) =>
    match made.append log [] with
    | .error _ => (made, .ok ())
    | .ok opened =>
      match Utf8.encode line with
      | .error e => (opened, .error (.encoding e))
      | .ok bytes =>
        match opened.append log bytes with
        | .error _ => (opened, .ok ())
        | .ok written => (written, .ok ())

/-- Records an event. -/
def record (s : Surroundings) (e : Event) : Act World Unit := do
  if enabled s.environment then
    match Record.of s.clock e with
    | .error fault => throw (.record fault)
    | .ok r => World.change (appendLine s.settings.logFile r.line)

end Telemetry

end CommandGate
