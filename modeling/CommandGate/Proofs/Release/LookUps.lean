import CommandGate.Proofs.Program.News
import CommandGate.Proofs.Text.Strip

/-!
# Look-Ups One after Another

A resolver is asked again and again. Its requests are answered from a script, which gives its
answers in order and writes down every request with the channel that it came by. Each look-up
makes one request, the same every time, and what it comes to is decided by the answer to that
request alone: `Release.Resolves` says what a look-up comes to, and `Release.Heralds` what asking
for news of a version comes to.

## Main results

* `Release.resolves_versionOf`, `Release.heralds_newsIn`: what one answer comes to.
* `Release.Script.times_getElem?`: a step that answers one request, taken again and again.
* `Release.resolver_outcomes`: all look-ups of a resolver, with a session and without.
-/

namespace CommandGate

/-- A step taken again and again: what it came to each time, and the state that it left. A fault
does not keep it from being taken again. -/
def Act.times {σ α : Type} (a : Act σ α) : Nat → σ → List (Except Fault α × σ)
  | 0, _ => []
  | n + 1, w =>
    match a w with
    | .ok x w' => (.ok x, w') :: times a n w'
    | .error e w' => (.error e, w') :: times a n w'

namespace Release

/-! ### What one answer comes to -/

/-- An answer **gives** a version: it is a response with a status from 200 to 299, and the version
is what is left of its body without the blanks at its ends, if anything is. -/
def Gives (a : Answer) (v : String) : Prop :=
  ∃ status body, a = .response status body ∧ 200 ≤ status ∧ status ≤ 299 ∧
    Core isBlank body.toList v.toList ∧ v ≠ ""

/-- Why an answer gives no version. The status is looked at before the body. -/
inductive Refusal : Answer → ReleaseFault → Prop
  | failed (message : String) : Refusal (.failed message) (.requestFailed message)
  | status {status : Int} (body : String) (h : ¬ (200 ≤ status ∧ status ≤ 299)) :
    Refusal (.response status body) (.badStatus status)
  | blank {status : Int} {body : String} (h : 200 ≤ status ∧ status ≤ 299)
      (hb : ∀ c ∈ body.toList, isBlank c = true) : Refusal (.response status body) .emptyAnswer

/-- What a look-up **comes to** with an answer. -/
structure Resolves (a : Answer) (outcome : Except Fault String) : Prop where
  /-- A version comes of an answer that gives it. -/
  version : ∀ v, outcome = .ok v ↔ Gives a v
  /-- It is a part of the body without a gap, and has no blanks at its ends. -/
  part : ∀ v, outcome = .ok v → ∃ status body, a = .response status body ∧
    v.toList <:+: body.toList ∧ (∀ c ∈ v.toList.head?, isBlank c = false) ∧
    (∀ c ∈ v.toList.getLast?, isBlank c = false) ∧ stripBlanks v = v
  /-- A release fault comes of an answer that gives no version. -/
  refused : ∀ f, outcome = .error (.release f) ↔ Refusal a f
  /-- A failure of another kind is passed on as it is. -/
  passed : ∀ kind message, outcome = .error (.foreign kind message) ↔ a = .foreign kind message

/-- What asking for news of a running version **comes to** with an answer. -/
structure Heralds (running : String) (a : Answer) (outcome : Except Fault (Option String)) :
    Prop where
  /-- News are a version that is not the running one. -/
  news : ∀ v, outcome = .ok (some v) ↔ Gives a v ∧ v ≠ running
  /-- There are none where no version is given, and where it is the running one. -/
  none : outcome = .ok none ↔ (∃ f, Refusal a f) ∨ Gives a running
  /-- A failure of another kind is passed on as it is. -/
  passed : ∀ f, outcome = .error f ↔ ∃ kind message, a = .foreign kind message ∧
    f = .foreign kind message

variable {a : Answer} {v running : String}

/-- **The answers that give a version**, and which one. -/
theorem versionOf_eq_ok_iff_gives : versionOf a = .ok v ↔ Gives a v := by
  rw [Program.versionOf_eq_ok_iff, Program.Publishes, Gives]
  simp only [← stripBlanks_eq_iff, eq_comm]

/-- A body is blank exactly if nothing is left of it. -/
theorem stripBlanks_eq_empty_iff {s : String} :
    stripBlanks s = "" ↔ ∀ c ∈ s.toList, isBlank c = true := by
  rw [stripBlanks_eq_iff]
  exact core_nil_iff

/-- **The answers that are refused**, and with which fault. -/
theorem versionOf_eq_release_iff {f : ReleaseFault} :
    versionOf a = .error (.release f) ↔ Refusal a f := by
  constructor
  · intro h
    cases a with
    | failed message =>
        obtain rfl := Fault.release.inj (Except.error.inj h)
        exact .failed message
    | foreign kind message => simp [versionOf] at h
    | response status body =>
        simp only [versionOf] at h
        split_ifs at h with hstatus hempty
        · obtain rfl := Fault.release.inj (Except.error.inj h)
          exact .blank (by omega) (stripBlanks_eq_empty_iff.mp hempty)
        · obtain rfl := Fault.release.inj (Except.error.inj h)
          exact .status body (by omega)
  · intro h
    cases h with
    | failed message => rfl
    | status body h => exact if_neg (by omega)
    | blank h hb =>
        rw [versionOf, if_pos (by omega)]
        exact if_pos (stripBlanks_eq_empty_iff.mpr hb)

/-- A failure from elsewhere is passed on as it is, and comes from nowhere else. -/
theorem versionOf_eq_foreign_iff {kind message : String} :
    versionOf a = .error (.foreign kind message) ↔ a = .foreign kind message := by
  constructor
  · intro h
    rcases Program.versionOf_cases h with ⟨f, hf⟩ | ⟨k, m, rfl, hf⟩
    · cases hf
    · obtain ⟨rfl, rfl⟩ := Fault.foreign.inj hf
      rfl
  · rintro rfl
    rfl

/-- **What one answer comes to.** -/
theorem resolves_versionOf (a : Answer) : Resolves a (versionOf a) where
  version _ := versionOf_eq_ok_iff_gives
  part v h := by
    obtain ⟨status, body, ha, -, -, hcore, -⟩ := versionOf_eq_ok_iff_gives.mp h
    obtain ⟨front, back, hbody, -, -⟩ := hcore.part
    refine ⟨status, body, ha, ⟨front, back, ?_⟩, hcore.first, hcore.last, ?_⟩
    · rw [hbody, List.append_assoc]
    · exact stripBlanks_eq_iff.mpr hcore.self
  refused _ := versionOf_eq_release_iff
  passed _ _ := versionOf_eq_foreign_iff

/-- **What news one answer holds.** -/
theorem heralds_newsIn (running : String) (a : Answer) :
    Heralds running a (Program.newsIn running a) where
  news v := by
    rw [Program.newsIn_eq_some_iff, Program.Offers, ← Program.versionOf_eq_ok_iff,
      versionOf_eq_ok_iff_gives]
  none := by
    rw [← versionOf_eq_ok_iff_gives, Program.newsIn]
    simp only [← versionOf_eq_release_iff]
    cases versionOf a with
    | error e => cases e <;> simp
    | ok version => simp
  passed f := by
    simp only [← versionOf_eq_foreign_iff, Program.newsIn]
    cases h : versionOf a with
    | ok version => simp
    | error e =>
        rcases Program.versionOf_cases h with ⟨fault, rfl⟩ | ⟨kind, message, -, rfl⟩
        · simp
        · simp [eq_comm]

/-! ### Requests that are answered from a script -/

/-- How a request is made: directly, or through a session. -/
inductive Channel where
  | direct
  | session

/-- The answers that are left to give, and the requests that were made. -/
structure Script where
  answers : List Answer
  requests : List (Channel × Request) := []

namespace Script

/-- Makes a request: it is written down, and the next answer is given. Where none is left the
request fails. -/
def ask (channel : Channel) (r : Request) : Act Script Answer := fun script =>
  let requests := script.requests ++ [(channel, r)]
  match script.answers with
  | [] => .ok (.failed "no answer is left") { answers := [], requests }
  | a :: rest => .ok a { answers := rest, requests }

/-- A resolver whose requests are answered from a script, with a session or without. -/
def resolver (url : String) (timeout : Binary64) (withSession : Bool) : Resolver Script where
  url := url
  timeout := timeout
  session := if withSession then some (ask .session) else none

/-- The channel of its requests. -/
def channel (withSession : Bool) : Channel :=
  if withSession then .session else .direct

/-- A look-up of the resolver. -/
def lookUp (url : String) (timeout : Binary64) (withSession : Bool) : Act Script String :=
  (resolver url timeout withSession).stableVersion (ask .direct)

variable {β : Type} {act : Act Script β} {f : Answer → Except Fault β} {call : Channel × Request}

/-- A step **makes one call** if it is given one answer for it, and comes to what a function of
the answer says. -/
def MakesOne (call : Channel × Request) (f : Answer → Except Fault β) (act : Act Script β) :
    Prop :=
  ∀ a rest requests, act ⟨a :: rest, requests⟩ =
    match f a with
    | .ok x => .ok x ⟨rest, requests ++ [call]⟩
    | .error e => .error e ⟨rest, requests ++ [call]⟩

/-- **A step that makes one call, taken again and again**: every time it makes that call, and it
comes to what the answer then says. -/
theorem times_getElem? (h : MakesOne call f act) {answers : List Answer} {k : Nat} {a : Answer}
    (ha : answers[k]? = some a) (requests : List (Channel × Request)) :
    (act.times answers.length ⟨answers, requests⟩)[k]? =
      some (f a, ⟨answers.drop (k + 1), requests ++ List.replicate (k + 1) call⟩) := by
  induction answers generalizing k requests with
  | nil => simp at ha
  | cons first rest ih =>
      have hstep : act.times (rest.length + 1) ⟨first :: rest, requests⟩ =
          (f first, ⟨rest, requests ++ [call]⟩) ::
            act.times rest.length ⟨rest, requests ++ [call]⟩ := by
        rw [Act.times, h]
        cases f first <;> rfl
      rw [List.length_cons, hstep]
      cases k with
      | zero =>
          obtain rfl : first = a := by simpa using ha
          rfl
      | succ k =>
          rw [List.getElem?_cons_succ] at ha ⊢
          rw [ih ha, List.drop_succ_cons, List.append_assoc, List.singleton_append,
            ← List.replicate_succ]

/-- A look-up makes one call. -/
theorem lookUp_makesOne (url : String) (timeout : Binary64) (withSession : Bool) :
    MakesOne (channel withSession, ⟨url, headers, timeout⟩) versionOf
      (lookUp url timeout withSession) := by
  intro a rest requests
  have hask : (resolver url timeout withSession).session.getD (ask .direct) =
      ask (channel withSession) := by
    cases withSession <;> rfl
  have hasked : ask (channel withSession) ⟨url, headers, timeout⟩ ⟨a :: rest, requests⟩ =
      .ok a ⟨rest, requests ++ [(channel withSession, ⟨url, headers, timeout⟩)]⟩ := rfl
  rw [lookUp, Resolver.stableVersion, hask, Act.bind_apply]
  dsimp only [resolver]
  rw [hasked]
  dsimp only
  cases versionOf a <;> rfl

/-- So does asking for news over it. -/
theorem news?_makesOne {look : Act Script String} (h : MakesOne call versionOf look)
    (running : String) : MakesOne call (Program.newsIn running) (news? look running) := by
  intro a rest requests
  rw [Program.news?_eq, Act.tryCatch_apply, Act.bind_apply, h, Program.newsIn]
  cases versionOf a with
  | ok version => rfl
  | error e => cases e <;> rfl

end Script

/-- **All look-ups of a resolver.** The network is asked by a resolver without a session. For every
address and time limit, with a session and without, and whatever the answers are: each look-up
makes one request, with that address, header and time limit, and no other look-up's answer counts
for what it comes to. It is the same each time that news of a running version are asked for over
the resolver. -/
theorem resolver_outcomes (url : String) (timeout : Binary64) (withSession : Bool)
    (answers : List Answer) (running : String) :
    let look := Script.lookUp url timeout withSession
    let call := (Script.channel withSession, (⟨url, headers, timeout⟩ : Request))
    let after (calls : Nat) : Script := ⟨answers.drop calls, List.replicate calls call⟩
    (∀ s, Release.lookUp s url timeout =
      Resolver.stableVersion (World.send s) { url, timeout }) ∧
    ∀ k a, answers[k]? = some a →
      (∃ outcome, (look.times answers.length ⟨answers, []⟩)[k]? = some (outcome, after (k + 1)) ∧
        Resolves a outcome) ∧
      ∃ outcome, ((news? look running).times answers.length ⟨answers, []⟩)[k]? =
          some (outcome, after (k + 1)) ∧ Heralds running a outcome := by
  intro look call after
  refine ⟨fun s => lookUp_eq s url timeout, fun k a ha => ?_⟩
  have hlook : Script.MakesOne call versionOf look :=
    Script.lookUp_makesOne url timeout withSession
  exact ⟨⟨_, Script.times_getElem? hlook ha [], resolves_versionOf a⟩,
    _, Script.times_getElem? (Script.news?_makesOne hlook running) ha [],
    heralds_newsIn running a⟩

/-- A version and a failed request, asked for twice through a session. -/
theorem resolver_outcomes_session :
    let answers : List Answer := [.response 204 " v2\n", .failed "down"]
    let call := (Channel.session, (⟨"here", headers, .one⟩ : Request))
    answers[1]? = some (.failed "down") ∧
      ∃ outcome, ((Script.lookUp "here" .one true).times 2 ⟨answers, []⟩)[1]? =
          some (outcome, ⟨[], [call, call]⟩) ∧ Resolves (.failed "down") outcome := by
  intro answers call
  exact ⟨rfl, ((resolver_outcomes "here" .one true answers "v1").2 1 _ rfl).1⟩

end Release

end CommandGate
