import CommandGate.World

/-!
# Published Versions

The published version is the body of an answer to one request, without blanks at its ends.
A failed request, a status outside 200 to 299 and an empty body are release faults; any
other failure of the network is passed on unchanged. There is no second attempt.

A version is news when it is published and differs from the running one; versions are
compared as texts, and a release fault means that there is no news. `notice` is the version
text: with news it has a second line, in yellow.
-/

namespace CommandGate

namespace Release

/-- The header that requests for the published version carry. -/
def headers : List (String × String) :=
  [("User-Agent", "rit-version-resolver")]

/-- The published version that an answer gives. -/
def versionOf : Answer → Except Fault String
  | .failed message => .error (.release (.requestFailed message))
  | .foreign kind message => .error (.foreign kind message)
  | .response status body =>
    if 200 ≤ status ∧ status < 300 then
      let version := stripBlanks body
      if version = "" then .error (.release .emptyAnswer) else .ok version
    else .error (.release (.badStatus status))

/-- Asks the network for the published version. -/
def lookUp (s : Surroundings) (url : String) (timeout : Binary64) : Act World String := do
  match versionOf (← World.send s ⟨url, headers, timeout⟩) with
  | .ok version => return version
  | .error e => throw e

/-- A resolver of the published version: the address that it asks, the time limit of its
requests, and the session that they go through if it was given one. -/
structure Resolver (σ : Type) where
  url : String
  timeout : Binary64
  session : Option (Request → Act σ Answer) := none

/-- Asks for the published version: through the session, or directly if there is none. -/
def Resolver.stableVersion {σ : Type} (direct : Request → Act σ Answer) (r : Resolver σ) :
    Act σ String := do
  match versionOf (← r.session.getD direct ⟨r.url, headers, r.timeout⟩) with
  | .ok version => return version
  | .error e => throw e

/-- The network is asked by a resolver that was given no session. -/
theorem lookUp_eq (s : Surroundings) (url : String) (timeout : Binary64) :
    lookUp s url timeout = Resolver.stableVersion (World.send s) { url, timeout } :=
  rfl

/-- Asks the network for the published version, as the settings say. -/
def current (s : Surroundings) : Act World String :=
  lookUp s s.settings.url s.settings.timeout

/-- The published version if it is news. -/
def news? {σ : Type} (published : Act σ String) (running : String) :
    Act σ (Option String) := do
  try
    let version ← published
    return if version = running then none else some version
  catch
    | .release _ => return none
    | e => throw e

/-- What the program was built with: the interpreter that it runs on. -/
def builtWith (interpreter : Interpreter := {}) : String :=
  "python" ++ interpreter.version

/-- The line that tells of a newer version. -/
def latestLine (version : String) : String :=
  s!"Latest available version: {version}"

/-- The lines of a version text: the version, a line of news if there are any, the build
date, and what the program was built with. -/
def layOut (version buildDate builtWith : String) (news : Option String) : String :=
  let newsLine := match news with
    | none => ""
    | some line => "  " ++ line ++ "\n"
  version ++ "\n" ++ newsLine ++ s!"  Build date: {buildDate}\n  Built with: {builtWith}\n"

/-- The version text; news of a published version are in yellow. -/
def notice (version buildDate : String) (latest : Option String)
    (interpreter : Interpreter := {}) : String :=
  layOut version buildDate (builtWith interpreter)
    (latest.map fun news => Colour.yellow (latestLine news))

/-- The version text of a running version, after asking for the published one. -/
def report {σ : Type} (published : Act σ String) (version buildDate : String)
    (interpreter : Interpreter := {}) : Act σ String := do
  let latest ← news? published version
  return notice version buildDate latest interpreter

end Release

end CommandGate
