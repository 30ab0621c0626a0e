import CommandGate.Proofs.Program.Steps

/-!
# News of a Published Version

Asking for news is one request, whatever comes of it. An answer of the network holds news or
none for the running version; only a failure that is neither a response nor a failed request
is passed on.

## Main results

* `Program.news?_current`: what asking for news does and gives.
* `Program.newsIn_cases`: an answer holds news or none, or is passed on.
* `Program.newsIn_eq_some_iff`: what news are.
-/

namespace CommandGate

namespace Program

/-- The news that an answer of the network holds for a running version. -/
def newsIn (running : String) (a : Answer) : Except Fault (Option String) :=
  match Release.versionOf a with
  | .ok version => .ok (if version = running then none else some version)
  | .error (.release _) => .ok none
  | .error fault => .error fault

/-- The world after the request for the published version. -/
def asked (s : Surroundings) (w : World) : World :=
  { w with requests := w.requests ++ [⟨s.settings.url, Release.headers, s.settings.timeout⟩] }

/-- Asking for the published version gives what the answer of the network gives. -/
theorem current_apply (s : Surroundings) (w : World) :
    Release.current s w = match Release.versionOf s.network with
      | .ok version => .ok version (asked s w)
      | .error e => .error e (asked s w) := by
  rw [Release.current, Release.lookUp]
  rw [Act.bind_apply]
  change (match Release.versionOf s.network with
    | .ok version => pure version
    | .error e => throw e : Act World String) _ = _
  cases Release.versionOf s.network <;> rfl

/-- **Asking for news** makes one request, and gives what the answer of the network holds. -/
theorem news?_current (s : Surroundings) (running : String) (w : World) :
    Release.news? (Release.current s) running w = match newsIn running s.network with
      | .ok latest => .ok latest (asked s w)
      | .error e => .error e (asked s w) := by
  rw [news?_eq, Act.tryCatch_apply, Act.bind_apply, current_apply, newsIn]
  cases Release.versionOf s.network with
  | ok version => rfl
  | error e => cases e <;> rfl

/-- An answer gives a version or a release fault, or is passed on. -/
theorem versionOf_cases {a : Answer} {e : Fault} (h : Release.versionOf a = .error e) :
    (∃ fault, e = .release fault) ∨
      ∃ kind message, a = .foreign kind message ∧ e = .foreign kind message := by
  unfold Release.versionOf at h
  split at h
  · exact .inl ⟨_, (Except.error.inj h).symm⟩
  · exact .inr ⟨_, _, rfl, (Except.error.inj h).symm⟩
  · dsimp only at h
    split_ifs at h
    · exact .inl ⟨_, (Except.error.inj h).symm⟩
    · exact .inl ⟨_, (Except.error.inj h).symm⟩

/-- **An answer holds news or none**, or is a failure of another kind, which is passed on. -/
theorem newsIn_cases (running : String) (a : Answer) :
    (∃ latest, newsIn running a = .ok latest) ∨
      ∃ kind message, a = .foreign kind message ∧
        newsIn running a = .error (.foreign kind message) := by
  rw [newsIn]
  cases h : Release.versionOf a with
  | ok version => exact .inl ⟨_, rfl⟩
  | error e =>
      rcases versionOf_cases h with ⟨fault, rfl⟩ | ⟨kind, message, ha, rfl⟩
      · exact .inl ⟨_, rfl⟩
      · exact .inr ⟨kind, message, ha, rfl⟩

/-! ### What an answer offers -/

/-- An answer **publishes** a version: it is a response with a status from 200 to 299, and its
body without blanks at the ends is that version and not empty. -/
def Publishes (a : Answer) (version : String) : Prop :=
  ∃ status body, a = .response status body ∧ 200 ≤ status ∧ status ≤ 299 ∧
    version = stripBlanks body ∧ version ≠ ""

/-- An answer **offers** a version in place of the running one: it publishes another one. -/
def Offers (running : String) (a : Answer) (latest : String) : Prop :=
  Publishes a latest ∧ latest ≠ running

/-- **The answers that give a version** are those that publish it. -/
theorem versionOf_eq_ok_iff {a : Answer} {version : String} :
    Release.versionOf a = .ok version ↔ Publishes a version := by
  constructor
  · intro h
    cases a with
    | failed message => simp [Release.versionOf] at h
    | foreign kind message => simp [Release.versionOf] at h
    | response status body =>
        simp only [Release.versionOf] at h
        split_ifs at h with hstatus hempty
        obtain rfl := Except.ok.inj h
        exact ⟨status, body, rfl, hstatus.1, Int.le_of_lt_add_one hstatus.2, rfl, hempty⟩
  · rintro ⟨status, body, rfl, hlow, hhigh, rfl, hne⟩
    simp only [Release.versionOf]
    rw [if_pos ⟨hlow, Int.lt_add_one_of_le hhigh⟩, if_neg hne]

/-- **News are what the answer offers.** -/
theorem newsIn_eq_some_iff {running : String} {a : Answer} {latest : String} :
    newsIn running a = .ok (some latest) ↔ Offers running a latest := by
  rw [Offers, ← versionOf_eq_ok_iff, newsIn]
  cases Release.versionOf a with
  | error e => cases e <;> simp
  | ok version =>
      dsimp only
      by_cases h : version = running
      · rw [if_pos h, h]
        simp [eq_comm]
      · rw [if_neg h]
        simp only [Except.ok.injEq, Option.some.injEq, iff_self_and]
        rintro rfl
        exact h

end Program

end CommandGate
