import CommandGate.Fault
import CommandGate.Number.Reader

/-!
# Settings

The settings of a run are two directories, the address of the published version, the
running version with its build date, and a time limit for requests. `Settings.load` takes
them from the environment. A variable that is empty counts as absent, and a time limit that
is no positive number falls back to one second. An infinite time limit is a positive number
and is kept.

A home directory spelled with a leading `~` is that of the user, or of the account named
behind it. That of the user is the value of a variable, and where the variable is absent the
one of the account that the program runs under. If there is no such account, or if the home
directory is spelled with a `~` itself, the home directory cannot be found out.
-/

namespace CommandGate

/-- The interpreter that the program runs on: its version, and where it is. -/
structure Interpreter where
  version : String := "3.11.2"
  location : String := "/usr/bin/python3"

/-- What a run finds around it: variables, accounts with their home directories, the home
directory of the account that it runs under if there is such an account, and the interpreter. -/
structure Environment where
  bindings : List (String × String)
  accounts : List (String × String)
  ownHome : Option String := none
  interpreter : Interpreter := {}

/-- The value of a variable. -/
def Environment.get? (env : Environment) (name : String) : Option String :=
  env.bindings.lookup name

/-- The value of a variable, unless it is absent or empty. -/
def Environment.filled? (env : Environment) (name : String) : Option String :=
  (env.get? name).filter (· ≠ "")

/-- The settings of a run. -/
structure Settings where
  homeDir : Path
  logDir : Path
  url : String
  version : String
  buildDate : String
  timeout : Binary64

namespace Settings

/-- The version of this program. -/
def thisVersion : String := "dev"

/-- The build date of this program. -/
def thisBuildDate : String := "unknown"

/-- Where the stable version is published. -/
def defaultUrl : String := "https://commons-repo.ritchiecli.io/stable.txt"

/-- The time limit of a request, in seconds. -/
def defaultTimeout : Binary64 := .one

/-- The directory whose existence means that the installation is initialized. -/
def commonsDir (s : Settings) : Path :=
  s.homeDir.join ["repos", "commons"]

/-- The file that holds the tutorial state. -/
def tutorialFile (s : Settings) : Path :=
  s.homeDir.join ["tutorial.json"]

/-- The file that telemetry is appended to. -/
def logFile (s : Settings) : Path :=
  s.logDir.join ["telemetry.jsonl"]

/-- A home directory without the slashes at its end; the root if nothing is left. -/
def trimHome (home : String) : String :=
  let kept := String.ofList (home.toList.reverse.dropWhile (· == '/')).reverse
  if kept = "" then "/" else kept

/-- The home directory of the name behind a `~`: the user's own for no name, and otherwise
that of the account. An account of the user is asked for only if the variable is absent. -/
def homeOf? (env : Environment) (name : String) : Option String :=
  if name = "" then ((env.get? "HOME").or env.ownHome).map trimHome
  else (env.accounts.lookup name).map trimHome

/-- The path with a `~` at its beginning replaced by a home directory. -/
def expandHome (env : Environment) (p : Path) : Except Fault Path :=
  match p.anchor, p.names with
  | .relative, first :: rest =>
    match first.toList with
    | '~' :: name =>
      match homeOf? env (String.ofList name) with
      | none => .error .homeUnknown
      | some home =>
        if home.toList.head? = some '~' then .error .homeUnknown
        else .ok ((Path.ofString home).join rest)
    | _ => .ok p
  | _, _ => .ok p

/-- The home directory of the program. -/
def homeDirOf (env : Environment) : Except Fault Path :=
  match env.filled? "RITCHIE_HOME" with
  | some spelling => expandHome env (Path.ofString spelling)
  | none => (expandHome env (Path.ofString "~")).map (·.join [".rit"])

/-- The time limit that the environment asks for. -/
def timeoutOf (env : Environment) : Binary64 :=
  match (env.get? "RITCHIE_VERSION_TIMEOUT").bind Binary64.read? with
  | some x => if x.isPositive then x else defaultTimeout
  | none => defaultTimeout

/-- The settings that an environment gives. -/
def load (env : Environment) : Except Fault Settings := do
  let home ← homeDirOf env
  return {
    homeDir := home
    logDir := home.join ["logs"]
    url := (env.filled? "RITCHIE_STABLE_VERSION_URL").getD defaultUrl
    version := thisVersion
    buildDate := thisBuildDate
    timeout := timeoutOf env }

end Settings

end CommandGate
