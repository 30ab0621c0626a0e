import CommandGate.Proofs.CommandLine.Outcomes
import CommandGate.Proofs.CommandLine.Usages
import CommandGate.Proofs.Program.Stdin
import CommandGate.Proofs.Session.Invocations

/-!
# The Three Ends of a Command Line

Reading the arguments comes to one of three ends. They are an invocation, and nothing is printed;
or they are answered with exit code 0 on the output stream, because one of them asks for help or
for the version; or they are refused with exit code 2 on the error stream, by the usage and the
name of one command and a complaint, and nothing is requested.

## Main results

* `Program.asksProgram_of_asks`: the arguments that ask for help or for the version.
* `Program.start_comesTo`: what reading the arguments comes to.
-/

namespace CommandGate

namespace Program

open CommandLine

/-- An argument asks the program for help or for its version: it begins with `-h`, or has at least
three characters and begins one of the two names. -/
def AsksProgram (arg : String) : Prop :=
  ['-', 'h'] <+: arg.toList ∨ Abbreviates arg.toList "--help" ∨
    Abbreviates arg.toList "--version"

/-- The kinds of ends of a command line. -/
inductive End where
  | invoked
  | answered
  | refused

/-- The end that a start is. -/
def Start.kind : Start → End
  | .invocation _ => .invoked
  | .ended code => if code = 0 then .answered else .refused

/-- The text with which the command at a path refuses arguments. -/
def refusal (env : Environment) (path : List String) (c : Command) (complaint : Complaint) :
    Text :=
  let program := " ".intercalate ("rit" :: path)
  usage (helpWidth env) program c ++ "\n" ++ program ++ ": error: " ++ complaint.message ++ "\n"

/-- What reading the arguments **comes to**, in each of the three ends. -/
def ComesTo (s : Surroundings) (args : List String) (w : World)
    (result : EStateM.Result Fault World Start) : End → Prop
  | .invoked => ∃ i, result = .ok (.invocation i) w
  | .answered => (∃ arg ∈ args, AsksProgram arg) ∧ ∃ out sent, out ≠ [] ∧
      result = .ok (.ended 0)
        { w with stdout := w.stdout ++ out, requests := w.requests ++ sent }
  | .refused => ∃ path c complaint, grammar.at? path = some c ∧
      (∃ rest, refusal s.environment path c complaint = Text.ofString "usage: rit" ++ rest) ∧
      result = .ok (.ended 2)
        { w with stderr := w.stderr ++ refusal s.environment path c complaint }

variable {s : Surroundings} {args path : List String} {w : World} {c : Command} {arg : String}
variable {result : EStateM.Result Fault World Start} {kind other : End}

/-- What reading the arguments comes to shows in what it gives. -/
theorem ComesTo.kind_eq (h : ComesTo s args w result kind) :
    ∃ x w', result = .ok x w' ∧ x.kind = kind := by
  cases kind with
  | invoked =>
      obtain ⟨i, hend⟩ := h
      exact ⟨_, _, hend, rfl⟩
  | answered =>
      obtain ⟨-, out, sent, -, hend⟩ := h
      exact ⟨_, _, hend, rfl⟩
  | refused =>
      obtain ⟨path, c, complaint, -, -, hend⟩ := h
      exact ⟨_, _, hend, rfl⟩

/-- Reading the arguments comes to one end only. -/
theorem ComesTo.unique (h : ComesTo s args w result kind) (h' : ComesTo s args w result other) :
    kind = other := by
  obtain ⟨x, u, hx, rfl⟩ := h.kind_eq
  obtain ⟨y, v, hy, rfl⟩ := h'.kind_eq
  obtain ⟨rfl, -⟩ := EStateM.Result.ok.inj (hx.symm.trans hy)
  rfl

/-- **The arguments that ask** for help or for the version. -/
theorem asksProgram_of_asks (h : Asks allOptions arg) : AsksProgram arg := by
  simp only [allOptions] at h
  cases h with
  | letter hs he ha =>
      simp only [List.mem_cons, List.not_mem_nil, or_false] at hs
      rcases hs with rfl | rfl | rfl | rfl | rfl
      · obtain rfl := Effect.help.inj he
        exact .inl ha
      all_goals cases he
  | help hs he ha =>
      simp only [List.mem_cons, List.not_mem_nil, or_false] at hs
      rcases hs with rfl | rfl | rfl | rfl | rfl
      · exact .inr (.inl ha)
      all_goals cases he
  | version hs he ha =>
      simp only [List.mem_cons, List.not_mem_nil, or_false] at hs
      rcases hs with rfl | rfl | rfl | rfl | rfl
      · cases he
      · exact .inr (.inr ha)
      all_goals cases he

/-- A refusal begins with the usage of the program. -/
theorem refusal_eq (env : Environment) (path : List String) (c : Command)
    (complaint : Complaint) :
    ∃ rest, refusal env path c complaint = Text.ofString "usage: rit" ++ rest := by
  obtain ⟨names, hnames⟩ := intercalate_cons_eq " " "rit" path
  obtain ⟨more, hmore⟩ := usage_eq (helpWidth env) (" ".intercalate ("rit" :: path)) c
  have hlead : usage (helpWidth env) (" ".intercalate ("rit" :: path)) c =
      "usage: rit" ++ (names ++ more) := by
    have hwords : usageLead ++ "rit" = "usage: rit" := rfl
    rw [hmore, hnames, ← hwords]
    simp only [String.append_assoc]
  rw [refusal, hlead, Text.ofString_append]
  simp only [List.append_assoc]
  exact ⟨_, rfl⟩

/-! ### The three ends -/

variable (s w)

/-- Accepted arguments come to an invocation. -/
theorem comesTo_invoked {found : Findings} (h : read grammar args = .accepted found) :
    ComesTo s args w (start s args w) .invoked := by
  rw [start]
  rw [h]
  exact ⟨_, rfl⟩

/-- A request for help comes to an answer. -/
theorem comesTo_help (h : read grammar args = .help path)
    (ha : ∃ arg ∈ args, AsksProgram arg) : ComesTo s args w (start s args w) .answered := by
  rw [start]
  rw [h]
  refine ⟨ha, Text.ofString (helpOf s.environment path), [], ?_, ?_⟩
  · simp [helpOf, helpText, Text.ofString]
  · rw [List.append_nil]
    rfl

/-- A request for the version comes to an answer, if the network fails as it should. -/
theorem comesTo_version (hn : ∀ kind message, s.network ≠ .foreign kind message)
    (h : read grammar args = .version) (ha : ∃ arg ∈ args, AsksProgram arg) :
    ComesTo s args w (start s args w) .answered := by
  have hstart := start_of_version s w h
  rcases newsIn_cases s.settings.version s.network with
    ⟨latest, hnews⟩ | ⟨kind, message, hnetwork, -⟩
  · rw [hnews] at hstart
    exact ⟨ha, _, _, List.append_ne_nil_of_left_ne_nil (by decide) _, hstart⟩
  · exact absurd hnetwork (hn kind message)

/-- Rejected arguments come to a refusal, with the usage of the command they got to. -/
theorem comesTo_refused {complaint : Complaint} (h : read grammar args = .rejected path complaint)
    (hc : grammar.at? path = some c) : ComesTo s args w (start s args w) .refused := by
  rw [start]
  rw [h]
  refine ⟨path, c, complaint, hc, refusal_eq .., ?_⟩
  have husage : usageOf s.environment path =
      usage (helpWidth s.environment) (Gate.commandPath path) c := by
    rw [usageOf, hc, Option.getD_some]
  dsimp only
  rw [husage]
  rfl

/-- **What reading the arguments comes to**: unless the network fails in a way of its own, one and
only one of the three ends. -/
theorem start_comesTo (hn : ∀ kind message, s.network ≠ .foreign kind message)
    (args : List String) : ∃! kind, ComesTo s args w (start s args w) kind := by
  have asked : (∃ arg ∈ args, Asks allOptions arg) → ∃ arg ∈ args, AsksProgram arg :=
    fun ⟨arg, hm, ha⟩ => ⟨arg, hm, asksProgram_of_asks ha⟩
  have comes {kind : End} (h : ComesTo s args w (start s args w) kind) :
      ∃! kind, ComesTo s args w (start s args w) kind :=
    ⟨kind, h, fun _ h' => h'.unique h⟩
  have htraced := read_traced grammar_orderly within_allOptions args
  generalize hread : read grammar args = reading at htraced
  cases htraced with
  | accepted found => exact comes (comesTo_invoked s w hread)
  | help hd ha => exact comes (comesTo_help s w hread (asked ha))
  | version ha => exact comes (comesTo_version s w hn hread (asked ha))
  | rejected hd complaint => exact comes (comesTo_refused s w hread hd)
  | leftOver complaint => exact comes (comesTo_refused s w hread rfl)

open Session in
/-- A command line that asks for help, behind an argument that no one has a use for. -/
theorem start_comesTo_home :
    ∃! kind, ComesTo atHome ["--foo", "-hh", "init"] { tree := [] }
      (start atHome ["--foo", "-hh", "init"] { tree := [] }) kind :=
  start_comesTo atHome _ (fun _ _ h => nomatch h) _

end Program

end CommandGate
