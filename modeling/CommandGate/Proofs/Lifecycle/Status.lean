import CommandGate.Proofs.Lifecycle.Stage
import CommandGate.Proofs.Program.Version
import CommandGate.Rehearsal

/-!
# The Recorded Status and the Notice

A look for a version is recorded with a status, and a newer version is told of in a notice. In
any sequence of turns of the lifecycle, on any stage and with other collaborators at each turn,
the status of a turn says whether it shows the notice, exactly unless the published version is
the empty text and the running version is not (`Lifecycle.Misled`): then the notice is shown,
and the status is that of the newest version.

## Main results

* `Lifecycle.Turn.adds`: what one turn adds, and when that agrees.
* `Lifecycle.status_matches_notice`: the status and the notice in a sequence of turns.
* `Lifecycle.status_disagrees_of_empty`: a notice of a version that is the empty text.
-/

namespace CommandGate

namespace Lifecycle

open Telemetry Program

variable {σ : Type} {settings : Settings}

/-! ### Turns -/

/-- What the lifecycle is called for. -/
inductive Call where
  | preRun
  | postRun
  | verifyNewVersion
  deriving DecidableEq

/-- A **turn** of the lifecycle: a call with a command path, on an occasion and with
collaborators of its own. -/
structure Turn (σ : Type) where
  occasion : Session.Occasion
  collaborators : Collaborators σ
  call : Call
  path : String

/-- A turn as a step. -/
def Turn.act (settings : Settings) (turn : Turn σ) : Act σ Unit :=
  match turn.call with
  | .preRun => do
    let _ ← preRun turn.collaborators settings turn.path
  | .postRun => postRun turn.collaborators settings turn.path
  | .verifyNewVersion => verifyNewVersion turn.collaborators settings turn.path

/-- The state that turns leave. A turn that ends with a fault does not keep the next one from
being taken. -/
def stateAfter (settings : Settings) (x : σ) (turns : List (Turn σ)) : σ :=
  turns.foldl (fun x turn => (turn.act settings).after x) x

/-- Whether a turn looks for a version. -/
def Turn.Looks (turn : Turn σ) : Prop :=
  turn.call ≠ .preRun ∧ turn.path = Gate.programName

/-- A text **notifies** of a newer version if the notice of one is in it. -/
def Notifies (settings : Settings) (interpreter : Interpreter) (text : Text) : Prop :=
  ∃ version, Text.ofString (noticeText settings interpreter (some version)) <:+: text

/-- The records and the text of a turn **agree**: there is a record of an outdated version
exactly if the text notifies, and one of a current version exactly if the turn looks for a
version and the text does not notify. -/
structure Agrees (settings : Settings) (interpreter : Interpreter) (looks : Prop)
    (rs : List Record) (text : Text) : Prop where
  outdated : (∃ r ∈ rs, r.IsCheck "outdated") ↔ Notifies settings interpreter text
  current : (∃ r ∈ rs, r.IsCheck "current") ↔ looks ∧ ¬ Notifies settings interpreter text

/-- A turn is **misled** if it looks for a version, and the published one is the empty text but
not the running one. -/
def Misled (settings : Settings) (turn : Turn σ) (x : σ) : Prop :=
  turn.Looks ∧ settings.version ≠ "" ∧ ∃ x', turn.collaborators.publishedVersion x = .ok "" x'

/-! ### Notices and statuses -/

section Notices

variable {interpreter : Interpreter} {text rest : Text} {latest : Option String}

/-- The mark of yellow text. -/
def yellowMark : Text :=
  Text.ofString "\x1b[33m"

/-- A notice begins with the mark of yellow text. -/
theorem yellowMark_begins_notice (version : String) :
    yellowMark <+: Text.ofString (noticeText settings interpreter (some version)) := by
  rw [noticeText, String.append_assoc, Text.ofString_append]
  exact List.prefix_append _ _

/-- There is no yellow text in a banner. -/
theorem not_yellowMark_infix_banner (tutorial : Tutorial) : ¬ yellowMark <:+: tutorial.banner := by
  rw [Tutorial.banner]
  split
  · decide +kernel
  · decide

/-- A banner notifies of nothing. -/
theorem not_notifies (h : text = [] ∨ ∃ tutorial : Tutorial, text = tutorial.banner) :
    ¬ Notifies settings interpreter text := by
  rintro ⟨version, hnotice⟩
  have hmark := (yellowMark_begins_notice version).isInfix.trans hnotice
  rcases h with rfl | ⟨tutorial, rfl⟩
  · exact absurd (List.infix_nil.mp hmark) (by decide)
  · exact not_yellowMark_infix_banner tutorial hmark

/-- What is told after a look for a version notifies of the news that there are. -/
theorem notifies_newsText_iff
    (h : rest = [] ∨ ∃ tutorial : Tutorial, rest = tutorial.banner) :
    Notifies settings interpreter (newsText settings interpreter latest ++ rest) ↔
      latest ≠ none := by
  cases latest with
  | none => simpa [newsText] using not_notifies h
  | some version =>
      refine iff_of_true ⟨version, ?_⟩ (by simp)
      rw [newsText_eq]
      exact (List.prefix_append _ _).isInfix

/-- A member is written in the text of an object that has it. -/
theorem writeMember_within {style : Json.Style} {depth : Nat} {m : Text × Json}
    {ms : List (Text × Json)} (h : m ∈ ms) :
    Json.writeMember style depth m <:+: Json.writeMembers style depth ms := by
  induction ms with
  | nil => simp at h
  | cons first rest ih =>
      rw [Json.writeMembers]
      rcases List.mem_cons.mp h with rfl | h
      · exact ⟨style.separator depth, Json.writeMembers style depth rest, rfl⟩
      · exact (ih h).trans (List.suffix_append _ _).isInfix

/-- So are all members but the first, one after another. -/
theorem writeMembers_within (m : Text × Json) (ms : List (Text × Json)) :
    Json.writeMembers .line 1 ms <:+: Json.write .line (.object (m :: ms)) := by
  rw [Json.write, Json.writeAt]
  exact ⟨"\x7b" ++ Json.Style.line.lineBreak 1 ++ Json.writeMember .line 1 m,
    Json.Style.line.lineBreak 0 ++ "\x7d", by simp only [List.append_assoc]⟩

/-- A status is written in the line of its record. -/
theorem status_infix_line {r : Record} {status : Text} (h : r.status = some status) :
    Json.writeString .line status <:+: r.line := by
  have hmember : Json.writeMember .line 1 (Text.ofString "status", .string status) <:+:
      Json.writeMembers .line 1 [("event", .string r.event), ("payload", .object r.payload),
        ("level", .string r.level.name), ("status", .string status)] :=
    writeMember_within (by simp)
  have hvalue : Json.writeString .line status <:+:
      Json.writeMember .line 1 (Text.ofString "status", .string status) := by
    rw [Json.writeMember, Json.writeAt]
    exact (List.suffix_append _ _).isInfix
  rw [Record.line, Record.toJson, h]
  exact ((hvalue.trans hmember).trans (writeMembers_within ("ts", .number r.time) _)).trans
    (List.prefix_append _ _).isInfix

end Notices

/-! ### One turn -/

section Turn

variable {stage : Stage σ settings} {x x' : σ} {rs : List Record} {text : Text}
variable {r : Record} {latest : Option String} {interpreter : Interpreter}

/-- The two statuses are recorded exactly for news that are not the empty text, and for all
others. -/
theorem Record.isCheck_statusOf_iff (h : r.IsCheck (statusOf latest)) :
    (r.IsCheck "outdated" ↔ latest.any (· ≠ "") = true) ∧
      (r.IsCheck "current" ↔ latest.any (· ≠ "") = false) := by
  obtain ⟨hname, hstatus⟩ := h
  simp only [Record.IsCheck, hname, hstatus, true_and, Option.some.injEq]
  rw [statusOf]
  cases latest.any (· ≠ "") <;> decide

/-- Where no look for a version is recorded, none is recorded with any status. -/
theorem not_exists_isCheck (hrs : ∀ r ∈ rs, r.event ≠ Record.checkName) (status : String) :
    ¬ ∃ r ∈ rs, r.IsCheck status := by
  rintro ⟨r, hr, hcheck⟩
  exact hrs r hr hcheck.1

/-- Where no version is looked for, records without a look for one and a text that is no notice
agree. -/
theorem agrees_of_not_looks (hrs : ∀ r ∈ rs, r.event ≠ Record.checkName)
    (htext : text = [] ∨ ∃ tutorial : Tutorial, text = tutorial.banner) {looks : Prop}
    (hlooks : ¬ looks) : Agrees settings interpreter looks rs text where
  outdated := iff_of_false (not_exists_isCheck hrs _) (not_notifies htext)
  current := iff_of_false (not_exists_isCheck hrs _) fun h => hlooks h.1

/-- **Where a version is looked for**, the record of that and the text that is told of it agree
exactly unless the news are the empty text. -/
theorem agrees_of_looks (hr : r.IsCheck (statusOf latest))
    (hrs : ∀ r ∈ rs, r.event ≠ Record.checkName)
    (htext : text = [] ∨ ∃ tutorial : Tutorial, text = tutorial.banner) {looks : Prop}
    (hlooks : looks) :
    Agrees settings interpreter looks (r :: rs) (newsText settings interpreter latest ++ text) ↔
      latest ≠ some "" := by
  obtain ⟨houtdated, hcurrent⟩ := Record.isCheck_statusOf_iff hr
  have hnotifies : Notifies settings interpreter (newsText settings interpreter latest ++ text) ↔
      latest ≠ none := notifies_newsText_iff htext
  have only (status : String) : (∃ r' ∈ r :: rs, r'.IsCheck status) ↔ r.IsCheck status := by
    simp only [List.mem_cons, exists_eq_or_imp]
    exact or_iff_left (not_exists_isCheck hrs status)
  have hagrees : Agrees settings interpreter looks (r :: rs)
      (newsText settings interpreter latest ++ text) ↔
        (latest.any (· ≠ "") = true ↔ latest ≠ none) ∧
          (latest.any (· ≠ "") = false ↔ ¬ latest ≠ none) := by
    constructor
    · rintro ⟨h, h'⟩
      rw [only, houtdated, hnotifies] at h
      rw [only, hcurrent, hnotifies, and_iff_right hlooks] at h'
      exact ⟨h, h'⟩
    · rintro ⟨h, h'⟩
      refine ⟨?_, ?_⟩
      · rw [only, houtdated, hnotifies]
        exact h
      · rw [only, hcurrent, hnotifies, and_iff_right hlooks]
        exact h'
  rw [hagrees]
  cases latest with
  | none => simp
  | some version => by_cases hv : version = "" <;> simp [hv]

variable {o : Session.Occasion} {c : Collaborators σ} (h : Plays stage o c)
variable (hon : Telemetry.enabled o.environment = true)

include h hon

/-- A look for a version, and what comes after it. -/
theorem verifyNewVersion_bind_adds (path : String) {tail : Act σ Unit}
    (htail : Act.Keeps stage.Reminds tail) (hx : stage.Occurs x) :
    ∃ rs text, stage.Adds rs text x
        ((do verifyNewVersion c settings path; tail : Act σ Unit).after x) ∧
      rs.countP (·.event = Record.checkName) ≤ 1 ∧
      (Agrees settings c.interpreter (path = Gate.programName) rs text ↔
        ¬ (path = Gate.programName ∧ settings.version ≠ "" ∧
          ∃ x', c.publishedVersion x = .ok "" x')) := by
  by_cases hp : path = Gate.programName
  · obtain ⟨latest, r, x₁, hverify, hadds, hr, hempty⟩ := verifyNewVersion_adds h hon hp hx
    obtain ⟨rs, text, hadds', hrs, htext⟩ := htail x₁ hadds.occurs
    refine ⟨r :: rs, newsText settings c.interpreter latest ++ text, ?_, ?_, ?_⟩
    · rw [Act.after_bind, hverify]
      exact hadds.trans hadds'
    · rw [List.countP_cons, List.countP_eq_zero.mpr fun r' hr' => by simpa using hrs r' hr']
      split <;> simp
    · rw [agrees_of_looks (isCheck_of_versionEvent hr) hrs htext hp, Ne, hempty, and_iff_right hp]
  · obtain ⟨rs, text, hadds, hrs, htext⟩ := htail x hx
    refine ⟨rs, text, ?_, ?_, ?_⟩
    · rw [verifyNewVersion_of_ne hp]
      exact hadds
    · rw [List.countP_eq_zero.mpr fun r hr => by simpa using hrs r hr]
      exact Nat.zero_le 1
    · exact iff_of_true (agrees_of_not_looks hrs htext hp) fun hm => hp hm.1

end Turn

/-- **What one turn adds**: the records and the text agree exactly unless the turn is misled. -/
theorem Turn.adds {stage : Stage σ settings} {turn : Turn σ} {x : σ}
    (h : Plays stage turn.occasion turn.collaborators)
    (hon : Telemetry.enabled turn.occasion.environment = true) (hx : stage.Occurs x) :
    ∃ rs text, stage.Adds rs text x ((turn.act settings).after x) ∧
      rs.countP (·.event = Record.checkName) ≤ 1 ∧
      (Agrees settings turn.collaborators.interpreter turn.Looks rs text ↔
        ¬ Misled settings turn x) := by
  obtain ⟨o, c, call, path⟩ := turn
  cases call with
  | preRun =>
      have hlooks : ¬ Turn.Looks ⟨o, c, .preRun, path⟩ := fun hl => hl.1 rfl
      have hquiet : Act.Keeps stage.Quiet (Turn.act settings ⟨o, c, .preRun, path⟩) :=
        .bind stage.quiet_trans (preRun_quiet h hon) fun _ => .pure stage.quiet_refl _
      obtain ⟨rs, hadds, hrs⟩ := hquiet x hx
      refine ⟨rs, [], hadds, ?_, ?_⟩
      · rw [List.countP_eq_zero.mpr fun r hr => by simpa using hrs r hr]
        exact Nat.zero_le 1
      · exact iff_of_true (agrees_of_not_looks hrs (.inl rfl) hlooks) fun hm => hlooks hm.1
  | postRun =>
      have hlooks : Turn.Looks ⟨o, c, .postRun, path⟩ ↔ path = Gate.programName := by
        simp [Turn.Looks]
      have hact : Turn.act settings ⟨o, c, .postRun, path⟩ = (do
          verifyNewVersion c settings path
          remindOf c settings path) := postRun_eq_remindOf
      rw [Misled, hlooks, hact]
      exact verifyNewVersion_bind_adds h hon path (remindOf_reminds h hon) hx
  | verifyNewVersion =>
      have hlooks : Turn.Looks ⟨o, c, .verifyNewVersion, path⟩ ↔ path = Gate.programName := by
        simp [Turn.Looks]
      have htail : Act.Keeps stage.Reminds (pure ()) := fun x => (stage.quiet_refl x).reminds
      have hact : Turn.act settings ⟨o, c, .verifyNewVersion, path⟩ = (do
          verifyNewVersion c settings path
          pure ()) := bind_pure_unit.symm
      rw [Misled, hlooks, hact]
      exact verifyNewVersion_bind_adds h hon path htail hx

/-! ### Sequences of turns -/

/-- Turns lead from states that occur to states that occur. -/
theorem occurs_stateAfter {stage : Stage σ settings} {turns : List (Turn σ)} {x : σ}
    (h : ∀ turn ∈ turns, Telemetry.enabled turn.occasion.environment = true ∧
      Plays stage turn.occasion turn.collaborators) (hx : stage.Occurs x) :
    stage.Occurs (stateAfter settings x turns) := by
  induction turns generalizing x with
  | nil => exact hx
  | cons turn rest ih =>
      obtain ⟨hon, hplays⟩ := h turn (by simp)
      obtain ⟨rs, text, hadds, -⟩ := Turn.adds hplays hon hx
      exact ih (fun t ht => h t (by simp [ht])) hadds.occurs

/-- **The recorded status and the notice.** In any sequence of turns, on any stage, with
telemetry enabled and with other collaborators at each turn, each turn adds records and text, at
most one of the records being of a look for a version. They agree exactly unless the turn is
misled: a record says that the version is outdated exactly if the notice of a newer version is
shown, and that it is current exactly if a version is looked for and no notice shown. -/
theorem status_matches_notice (stage : Stage σ settings) (turns : List (Turn σ))
    (hturns : ∀ turn ∈ turns, Telemetry.enabled turn.occasion.environment = true ∧
      Plays stage turn.occasion turn.collaborators) (x : σ) (hx : stage.Occurs x)
    (before : List (Turn σ)) (turn : Turn σ) (after : List (Turn σ))
    (h : turns = before ++ turn :: after) :
    ∃ rs text,
      stage.Adds rs text (stateAfter settings x before)
        (stateAfter settings x (before ++ [turn])) ∧
      rs.countP (·.event = Record.checkName) ≤ 1 ∧
      (Agrees settings turn.collaborators.interpreter turn.Looks rs text ↔
        ¬ Misled settings turn (stateAfter settings x before)) := by
  subst h
  obtain ⟨hon, hplays⟩ := hturns turn (by simp)
  have hbefore : stage.Occurs (stateAfter settings x before) :=
    occurs_stateAfter (fun t ht => hturns t (by simp [ht])) hx
  have hafter : stateAfter settings x (before ++ [turn]) =
      (turn.act settings).after (stateAfter settings x before) := by
    rw [stateAfter, List.foldl_append]
    rfl
  rw [hafter]
  exact Turn.adds hplays hon hbefore

end Lifecycle

/-! ### Collaborators in memory -/

namespace Rehearsal

open Telemetry Lifecycle

variable {settings : Settings} {r r' : Rehearsal}

/-- The stage of a rehearsal: the log can be written, and the published version is a text or
cannot be found out. -/
def stage (settings : Settings) : Stage Rehearsal settings where
  world r := r.world
  Occurs r := CanWrite settings.logFile r.world.tree ∧
    ∀ f, r.published = .error f → ∃ fault, f = .release fault
  canWrite h := h.1

/-- What is seen of a rehearsal is its own world. -/
theorem stage_world (r : Rehearsal) : (stage settings).world r = r.world :=
  rfl

/-- The rehearsals that occur on the stage. -/
theorem occurs_iff :
    (stage settings).Occurs r ↔ CanWrite settings.logFile r.world.tree ∧
      ∀ f, r.published = .error f → ∃ fault, f = .release fault :=
  Iff.rfl

/-- What is written down of calls adds nothing. -/
theorem adds_of_eq (h : (stage settings).Occurs r) (hworld : r'.world = r.world)
    (hpublished : r'.published = r.published) : (stage settings).Adds [] [] r r' where
  occurs := by
    rw [occurs_iff] at h ⊢
    rwa [hworld, hpublished]
  log := .of_eq (by rw [stage_world, stage_world, hworld])
  stdout := by rw [stage_world, stage_world, hworld, List.append_nil]

/-- **The collaborators in memory play on that stage.** -/
theorem plays (o : Session.Occasion) :
    Plays (stage settings) o (collaborators (o.surroundings settings)) where
  createDirectory p r h := by
    have hafter : ((createDirectory p).after r).world = r.world ∧
        ((createDirectory p).after r).published = r.published := by
      obtain ⟨world, existing, refusal, tutorial, published⟩ := r
      cases refusal <;> exact ⟨rfl, rfl⟩
    exact adds_of_eq h hafter.1 hafter.2
  directoryExists p r h := adds_of_eq h rfl rfl
  findTutorial r h := by
    have hafter : (findTutorial.after r).world = r.world ∧
        (findTutorial.after r).published = r.published := by
      obtain ⟨world, existing, refusal, tutorial, published⟩ := r
      cases tutorial <;> exact ⟨rfl, rfl⟩
    exact adds_of_eq h hafter.1 hafter.2
  publishedVersion r h := by
    have hafter : (publishedVersion.after r).world = r.world ∧
        (publishedVersion.after r).published = r.published := by
      obtain ⟨world, existing, refusal, tutorial, published⟩ := r
      cases published <;> exact ⟨rfl, rfl⟩
    exact adds_of_eq h hafter.1 hafter.2
  resolves r f r' h hf := by
    obtain ⟨world, existing, refusal, tutorial, published⟩ := r
    cases published with
    | ok version => cases hf
    | error fault =>
        have hfault : fault = f := by
          cases hf
          rfl
        exact h.2 f (by rw [← hfault])
  record e r w h hrecord := by
    have hplayed : (collaborators (o.surroundings settings)).record e r =
        .ok () { r with world := w } := by
      change inWorld (Telemetry.record (o.surroundings settings) e) r = _
      rw [inWorld, Act.within]
      dsimp only [stage] at hrecord
      rw [hrecord]
    refine ⟨_, hplayed, rfl, ?_, h.2⟩
    have hafter := after_record (o.surroundings settings) e r.world
    rw [Act.after] at hafter
    dsimp only [stage] at hrecord
    rw [hrecord] at hafter
    rcases hafter with rfl | ⟨record, -, -, rfl⟩
    · exact h.1
    · exact h.1.appendLine record.line
  print t r h := ⟨_, rfl, rfl, h⟩

end Rehearsal

namespace Lifecycle

open Telemetry Program Session

/-- A turn on a quiet occasion, with collaborators in memory. -/
def quietTurn (call : Call) (path : String) : Turn Rehearsal where
  occasion := quiet
  collaborators := Rehearsal.collaborators (quiet.surroundings atHome.settings)
  call := call
  path := path

/-- A rehearsal in an empty tree, with a published version. -/
def publishing (version : String) : Rehearsal where
  world := { tree := [] }
  existing := []
  refusal := none
  tutorial := .ok ⟨Tutorial.on⟩
  published := .ok version

/-- The collaborators of a quiet turn play on the stage of rehearsals. -/
theorem plays_quietTurn (call : Call) (path : String) :
    Plays (Rehearsal.stage atHome.settings) (quietTurn call path).occasion
      (quietTurn call path).collaborators :=
  Rehearsal.plays quiet

/-- A rehearsal in an empty tree occurs: the log can be made in it. -/
theorem occurs_publishing (version : String) :
    (Rehearsal.stage atHome.settings).Occurs (publishing version) :=
  ⟨⟨rfl, _, rfl⟩, fun f hf => by cases hf⟩

/-- Two turns in an empty tree, the second of which shows the notice of a newer version. -/
theorem status_matches_notice_home :
    let settings := atHome.settings
    let stage := Rehearsal.stage settings
    let x := publishing "v9"
    let before := [quietTurn .preRun Gate.programName]
    let turn := quietTurn .postRun Gate.programName
    (∀ t ∈ before ++ [turn], Telemetry.enabled t.occasion.environment = true ∧
      Plays stage t.occasion t.collaborators) ∧ stage.Occurs x ∧
    ∃ rs text,
      stage.Adds rs text (stateAfter settings x before)
        (stateAfter settings x (before ++ [turn])) ∧
      rs.countP (·.event = Record.checkName) ≤ 1 ∧
      Agrees settings turn.collaborators.interpreter turn.Looks rs text := by
  let before := [quietTurn .preRun Gate.programName]
  let turn := quietTurn .postRun Gate.programName
  have hplays : ∀ t ∈ before ++ [turn], Telemetry.enabled t.occasion.environment = true ∧
      Plays (Rehearsal.stage atHome.settings) t.occasion t.collaborators := by
    intro t ht
    simp only [before, turn, List.cons_append, List.nil_append, List.mem_cons,
      List.not_mem_nil, or_false] at ht
    rcases ht with rfl | rfl <;> exact ⟨rfl, plays_quietTurn _ _⟩
  have hnot : ¬ Misled atHome.settings turn
      (stateAfter atHome.settings (publishing "v9") before) := by
    rintro ⟨-, -, x', hx'⟩
    injection hx' with hversion
    exact absurd hversion (by decide)
  obtain ⟨rs, text, hadds, hcount, hagrees⟩ :=
    status_matches_notice (Rehearsal.stage atHome.settings) _ hplays (publishing "v9")
      (occurs_publishing _) before turn [] rfl
  exact ⟨hplays, occurs_publishing _, rs, text, hadds, hcount, hagrees.mpr hnot⟩

/-- The record of a look for a version that gave the empty text. -/
def emptyRecord : Record where
  time := quiet.clock
  event := Record.checkName
  payload := [("current", .string atHome.settings.version), ("latest", .string "")]
  level := .info
  status := some (Text.ofString "current")

/-- **A notice whose status is that of the newest version**: the published version is the empty
text. Whatever records and text are taken for what the turn adds, they do not agree. -/
theorem status_disagrees_of_empty :
    let settings := atHome.settings
    let stage := Rehearsal.stage settings
    let x := publishing ""
    let turn := quietTurn .verifyNewVersion Gate.programName
    Telemetry.enabled turn.occasion.environment = true ∧
      Plays stage turn.occasion turn.collaborators ∧ stage.Occurs x ∧
      ∀ rs text, stage.Adds rs text x ((turn.act settings).after x) →
        ¬ Agrees settings turn.collaborators.interpreter turn.Looks rs text := by
  refine ⟨rfl, plays_quietTurn _ _, occurs_publishing _, fun rs text hadds' hagrees => ?_⟩
  obtain ⟨latest, r, x', hverify, hadds, hr, hempty⟩ :=
    verifyNewVersion_adds (plays_quietTurn .verifyNewVersion Gate.programName) rfl rfl
      (occurs_publishing "")
  obtain rfl : latest = some "" := hempty.mpr ⟨by decide, _, rfl⟩
  have hact : (quietTurn .verifyNewVersion Gate.programName).act atHome.settings =
      verifyNewVersion (quietTurn .verifyNewVersion Gate.programName).collaborators
        atHome.settings Gate.programName := rfl
  rw [hact, Act.after, hverify] at hadds'
  have htext : text = newsText atHome.settings quiet.environment.interpreter (some "") :=
    List.append_cancel_left (hadds'.stdout.symm.trans hadds.stdout)
  have hnotifies : Notifies atHome.settings quiet.environment.interpreter text := by
    rw [htext, ← List.append_nil (newsText _ _ _)]
    exact (notifies_newsText_iff (.inl rfl)).mpr (by simp)
  -- a record of an outdated version would have its status in the line of the one that is there
  obtain ⟨r', hr', -, hstatus⟩ := hagrees.outdated.mpr hnotifies
  have hlines := hadds'.log.lines_eq hadds.log
  rw [List.flatMap_singleton] at hlines
  have hpart : r'.line <:+: r.line := by
    rw [← hlines]
    exact List.infix_of_mem_flatten (List.mem_map_of_mem hr')
  have hinfix := (status_infix_line hstatus).trans hpart
  have hof : Record.of quiet.clock (versionEvent (quiet.surroundings atHome.settings) (some "")) =
      .ok emptyRecord := rfl
  obtain rfl : emptyRecord = r := Except.ok.inj (hof.symm.trans hr)
  revert hinfix
  decide +kernel

end Lifecycle

end CommandGate
