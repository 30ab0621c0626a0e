import CommandGate.Proofs.Lifecycle.Stage
import CommandGate.Proofs.Program.Aftermath
import CommandGate.Rehearsal

/-!
# The Protocol of the Collaborators

A rehearsal takes steps: what comes before a command, what comes after it, the look for a
version alone, the question whether the installation is initialized, and the replacement of
collaborators. `Rehearsal.Obeys` says which calls each step makes, in order, and what it comes
to. Steps obey it in every sequence, unless an event has to be recorded and the path of the log
directory does not allow it (`Rehearsal.Interrupted`).

## Main results

* `Rehearsal.verifies`, `Rehearsal.reminds`: the parts of what comes after a command.
* `Rehearsal.perform_abides`: one step.
* `Rehearsal.collaborator_protocol`: every step of a sequence.
* `Rehearsal.not_follows_of_nul`: a command that is not answered.
-/

namespace CommandGate

namespace Gate

/-- What occurs in a list of characters is a part of it. -/
theorem occursIn_iff {part chars : List Char} : occursIn part chars = true ↔ part <:+: chars := by
  induction chars with
  | nil => simp [occursIn]
  | cons c rest ih => rw [occursIn, Bool.or_eq_true, ih, List.isPrefixOf_iff_prefix,
      List.infix_cons_iff]

/-- A path that **needs no initialized installation**: it is one of those that are open, or the
word for completing is in it. -/
def Exempt (path : String) : Prop :=
  path ∈ openPaths ∨ completionMarker.toList <:+: path.toList

/-- The gate lets the listed paths and completion through. -/
theorem exempt_iff {path : String} :
    (isListed openPaths path || isCompletion path) = true ↔ Exempt path := by
  rw [Bool.or_eq_true, isListed, List.contains_iff_mem, isCompletion, occursIn_iff, Exempt]

end Gate

namespace Rehearsal

open Session (Occasion)

/-! ### Steps -/

/-- What takes the place of what collaborators were told. What is not given stays. -/
structure Replacement where
  existing : Option (List String) := none
  refusal : Option (Option String) := none
  tutorial : Option (Except Fault Tutorial) := none
  published : Option (Except Fault String) := none

/-- A rehearsal in which collaborators are replaced. -/
def Replacement.apply (new : Replacement) (r : Rehearsal) : Rehearsal :=
  { r with
    existing := new.existing.getD r.existing
    refusal := new.refusal.getD r.refusal
    tutorial := new.tutorial.getD r.tutorial
    published := new.published.getD r.published }

/-- A step of a rehearsal. -/
inductive Step where
  | preRun (path : String)
  | postRun (path : String)
  | verifyNewVersion (path : String)
  | initialized
  | replace (new : Replacement)

/-- What a step that does not fail comes to. -/
inductive Outcome where
  | decision (d : Gate.Decision)
  | presence (found : Bool)
  | done

/-- A step as a step of the lifecycle with collaborators in memory. -/
def Step.act (s : Surroundings) : Step → Act Rehearsal Outcome
  | preRun path => return .decision (← Lifecycle.preRun (collaborators s) s.settings path)
  | postRun path => do
    Lifecycle.postRun (collaborators s) s.settings path
    return .done
  | verifyNewVersion path => do
    Lifecycle.verifyNewVersion (collaborators s) s.settings path
    return .done
  | initialized => return .presence (← Lifecycle.isInitialized (collaborators s) s.settings)
  | replace new => do
    modify new.apply
    return .done

/-- What a step came to, and the rehearsal that it left. -/
structure Report where
  outcome : Except Fault Outcome
  after : Rehearsal

/-- The report of a step. -/
def perform (settings : Settings) (r : Rehearsal) (o : Occasion) (step : Step) : Report :=
  match step.act (o.surroundings settings) r with
  | .ok outcome after => ⟨.ok outcome, after⟩
  | .error fault after => ⟨.error fault, after⟩

/-- Steps taken one after another: for each of them the rehearsal that it found, and its report.
A step that fails does not keep the next one from being taken. -/
def trace (settings : Settings) : Rehearsal → List (Occasion × Step) → List (Rehearsal × Report)
  | _, [] => []
  | r, (o, step) :: rest =>
    let report := perform settings r o step
    (r, report) :: trace settings report.after rest

/-! ### The protocol -/

/-- Calls of collaborators: those about directories in order, the others by their number. -/
structure Calls where
  directory : List String := []
  tutorial : Nat := 0
  published : Nat := 0

/-- Calls, and others after them. -/
def Calls.append (calls more : Calls) : Calls where
  directory := calls.directory ++ more.directory
  tutorial := calls.tutorial + more.tutorial
  published := calls.published + more.published

/-- One rehearsal has more calls written down than another. -/
structure Adds (calls : Calls) (r r' : Rehearsal) : Prop where
  directory : r'.directoryCalls = r.directoryCalls ++ calls.directory
  tutorial : r'.tutorialCalls = r.tutorialCalls + calls.tutorial
  published : r'.publishedCalls = r.publishedCalls + calls.published

/-- The call that makes the home directory. -/
def createHome (settings : Settings) : String :=
  "create " ++ settings.homeDir.toString

/-- The call that asks whether the installation is initialized. -/
def askCommons (settings : Settings) : String :=
  "exists " ++ settings.commonsDir.toString

/-- The answer to that call. -/
def HasCommons (settings : Settings) (existing : List String) : Prop :=
  settings.commonsDir.toString ∈ existing

instance (settings : Settings) (existing : List String) :
    Decidable (HasCommons settings existing) :=
  inferInstanceAs (Decidable (_ ∈ _))

/-- **How the look for a version goes**: by the number of its calls, and by the failure that it
passes on, if any. A release fault is not passed on. -/
inductive LooksUp (r : Rehearsal) (path : String) : Nat → Option Fault → Prop
  | passedOver (h : path ≠ Gate.programName) : LooksUp r path 0 none
  | answered {version : String} (h : path = Gate.programName) (hp : r.published = .ok version) :
    LooksUp r path 1 none
  | unknown {fault : ReleaseFault} (h : path = Gate.programName)
      (hp : r.published = .error (.release fault)) : LooksUp r path 1 none
  | escapes {f : Fault} (h : path = Gate.programName) (hp : r.published = .error f)
      (hf : ∀ fault, f ≠ .release fault) : LooksUp r path 1 (some f)

/-- **The protocol**: the calls that a step makes, and what it comes to. -/
inductive Obeys (settings : Settings) (r : Rehearsal) :
    Step → Calls → Except Fault Outcome → Prop
  | refused {path message : String} (h : r.refusal = some message) :
    Obeys settings r (.preRun path) { directory := [createHome settings] }
      (.error (.directory (.reported message)))
  | exempt {path : String} (h : r.refusal = none) (hpath : Gate.Exempt path) :
    Obeys settings r (.preRun path) { directory := [createHome settings] }
      (.ok (.decision .proceed))
  | admitted {path : String} (h : r.refusal = none) (hpath : ¬ Gate.Exempt path)
      (hi : HasCommons settings (r.existing ++ [settings.homeDir.toString])) :
    Obeys settings r (.preRun path) { directory := [createHome settings, askCommons settings] }
      (.ok (.decision .proceed))
  | blocked {path : String} (h : r.refusal = none) (hpath : ¬ Gate.Exempt path)
      (hi : ¬ HasCommons settings (r.existing ++ [settings.homeDir.toString])) :
    Obeys settings r (.preRun path) { directory := [createHome settings, askCommons settings] }
      (.ok (.decision (.earlyExit Gate.initMessage 0)))
  | verified {path : String} {calls : Nat} (h : LooksUp r path calls none) :
    Obeys settings r (.verifyNewVersion path) { published := calls } (.ok .done)
  | verifyFails {path : String} {calls : Nat} {f : Fault} (h : LooksUp r path calls (some f)) :
    Obeys settings r (.verifyNewVersion path) { published := calls } (.error f)
  | postRunFails {path : String} {calls : Nat} {f : Fault} (h : LooksUp r path calls (some f)) :
    Obeys settings r (.postRun path) { published := calls } (.error f)
  | leftAlone {path : String} {calls : Nat} (h : LooksUp r path calls none)
      (hi : HasCommons settings r.existing) :
    Obeys settings r (.postRun path) { directory := [askCommons settings], published := calls }
      (.ok .done)
  | reminded {path : String} {calls : Nat} {tutorial : Tutorial} (h : LooksUp r path calls none)
      (hi : ¬ HasCommons settings r.existing) (ht : r.tutorial = .ok tutorial) :
    Obeys settings r (.postRun path)
      { directory := [askCommons settings], tutorial := 1, published := calls } (.ok .done)
  | unreadable {path : String} {calls : Nat} {f : Fault} (h : LooksUp r path calls none)
      (hi : ¬ HasCommons settings r.existing) (ht : r.tutorial = .error f) :
    Obeys settings r (.postRun path)
      { directory := [askCommons settings], tutorial := 1, published := calls } (.error f)
  | initialized :
    Obeys settings r .initialized { directory := [askCommons settings] }
      (.ok (.presence (decide (HasCommons settings r.existing))))
  | replaced {new : Replacement} : Obeys settings r (.replace new) {} (.ok .done)

/-- A report **follows** the protocol. -/
def Follows (settings : Settings) (r : Rehearsal) (step : Step) (report : Report) : Prop :=
  ∃ calls, Adds calls r report.after ∧ Obeys settings r step calls report.outcome

/-- When a step **has an event to record**, and the calls that it has made by then: a failure to
make the home directory, a command that is blocked, a look for a version that ends, or a tutorial
state that cannot be found out. -/
inductive HasEvent (settings : Settings) (r : Rehearsal) : Step → Calls → Prop
  | refused {path message : String} (h : r.refusal = some message) :
    HasEvent settings r (.preRun path) { directory := [createHome settings] }
  | blocked {path : String} (h : r.refusal = none) (hpath : ¬ Gate.Exempt path)
      (hi : ¬ HasCommons settings (r.existing ++ [settings.homeDir.toString])) :
    HasEvent settings r (.preRun path)
      { directory := [createHome settings, askCommons settings] }
  | verified {path : String} (hpath : path = Gate.programName) (h : LooksUp r path 1 none) :
    HasEvent settings r (.verifyNewVersion path) { published := 1 }
  | checked {path : String} (hpath : path = Gate.programName) (h : LooksUp r path 1 none) :
    HasEvent settings r (.postRun path) { published := 1 }
  | unreadable {path : String} {fault : TutorialFault} (hpath : path ≠ Gate.programName)
      (hi : ¬ HasCommons settings r.existing) (ht : r.tutorial = .error (.tutorial fault)) :
    HasEvent settings r (.postRun path) { directory := [askCommons settings], tutorial := 1 }

/-- A step is **interrupted** if it has an event to record, telemetry is on, and the path of the
log directory holds a NUL. It has made its calls up to that event, and fails then. -/
structure Interrupted (settings : Settings) (r : Rehearsal) (o : Occasion) (step : Step)
    (report : Report) : Prop where
  unrecordable : ¬ (o.surroundings settings).Recordable
  calls : ∃ calls, HasEvent settings r step calls ∧ Adds calls r report.after
  outcome : report.outcome = .error (.file .embeddedNul)

/-- **The law of a step**: it follows the protocol exactly if events can be recorded or it has
none, and otherwise it is interrupted. -/
structure Abides (settings : Settings) (r : Rehearsal) (o : Occasion) (step : Step)
    (report : Report) : Prop where
  follows_iff : Follows settings r step report ↔
    (o.surroundings settings).Recordable ∨ ∀ calls, ¬ HasEvent settings r step calls
  otherwise : ¬ Follows settings r step report → Interrupted settings r o step report

variable {settings : Settings} {o : Occasion} {r r' r'' : Rehearsal} {path : String}
variable {calls more : Calls}

/-! ### Calls -/

namespace Adds

theorem refl (r : Rehearsal) : Adds {} r r :=
  ⟨(List.append_nil _).symm, rfl, rfl⟩

/-- Calls made in two steps are made in their order. -/
theorem trans (h : Adds calls r r') (h' : Adds more r' r'') : Adds (calls.append more) r r'' where
  directory := by rw [h'.directory, h.directory, List.append_assoc, Calls.append]
  tutorial := by rw [h'.tutorial, h.tutorial, Nat.add_assoc, Calls.append]
  published := by rw [h'.published, h.published, Nat.add_assoc, Calls.append]

/-- What happens in the world calls no collaborator. -/
theorem inWorld (h : Adds calls r r') (w : World) : Adds calls r { r' with world := w } :=
  ⟨h.directory, h.tutorial, h.published⟩

end Adds

namespace LooksUp

variable {n m : Nat} {failure failure' : Option Fault}

/-- The look for a version goes in one way only. -/
theorem unique (h : LooksUp r path n failure) (h' : LooksUp r path m failure') :
    n = m ∧ failure = failure' := by
  cases h <;> cases h' <;> simp_all [eq_comm]

/-- A failure is passed on after the bare command only. -/
theorem path_eq {f : Fault} (h : LooksUp r path n (some f)) : path = Gate.programName := by
  cases h
  assumption

end LooksUp

/-! ### Recording -/

variable {s : Surroundings}

/-- Recording an event of the program succeeds where events can be recorded, and fails elsewhere.
It calls no collaborator. -/
theorem record_cases {e : Telemetry.Event} (he : Program.Records s e) (r : Rehearsal) :
    (s.Recordable ∧ ∃ w, (collaborators s).record e r = .ok () { r with world := w }) ∨
    (¬ s.Recordable ∧ (collaborators s).record e r = .error (.file .embeddedNul) r) := by
  have hplayed : (collaborators s).record e r = inWorld (Telemetry.record s e) r := rfl
  rw [hplayed, inWorld, Act.within]
  by_cases hr : s.Recordable
  · obtain ⟨u, hrecord⟩ := Program.record_of_recordable hr he r.world
    rw [hrecord]
    exact .inl ⟨hr, _, rfl⟩
  · rw [Program.record_of_not_recordable hr he]
    exact .inr ⟨hr, rfl⟩

/-! ### What comes before a command -/

/-- A refusal of the home directory is recorded and passed on. -/
theorem preRun_of_refusal {message : String} (h : r.refusal = some message) :
    ∃ r', Adds { directory := [createHome s.settings] } r r' ∧
      (s.Recordable ∧ Lifecycle.preRun (collaborators s) s.settings path r =
          .error (.directory (.reported message)) r' ∨
        ¬ s.Recordable ∧ Lifecycle.preRun (collaborators s) s.settings path r =
          .error (.file .embeddedNul) r') := by
  let asked : Rehearsal :=
    { r with directoryCalls := r.directoryCalls ++ [createHome s.settings] }
  have hasked : Adds { directory := [createHome s.settings] } r asked := ⟨rfl, rfl, rfl⟩
  have hcreate : (collaborators s).createDirectory s.settings.homeDir r =
      .error (.directory (.reported message)) asked := by
    obtain ⟨world, existing, refusal, tutorial, published⟩ := r
    obtain rfl : refusal = some message := h
    rfl
  rw [Lifecycle.preRun, Act.bind_apply, Lifecycle.makeHome, Act.tryCatch_apply, hcreate]
  dsimp only
  rw [Act.bind_apply]
  rcases record_cases (s := s) (.directoryFailed path (.reported message)) asked with
    ⟨hr, w, hrecord⟩ | ⟨hr, hrecord⟩
  · rw [hrecord]
    exact ⟨_, hasked.inWorld w, .inl ⟨hr, rfl⟩⟩
  · rw [hrecord]
    exact ⟨_, hasked, .inr ⟨hr, rfl⟩⟩

/-- A rehearsal whose home directory was made. -/
def withHome (settings : Settings) (r : Rehearsal) : Rehearsal :=
  { r with
    directoryCalls := r.directoryCalls ++ [createHome settings]
    existing := r.existing ++ [settings.homeDir.toString] }

/-- A rehearsal that was asked whether the installation is initialized. -/
def withAsked (settings : Settings) (r : Rehearsal) : Rehearsal :=
  { r with directoryCalls := r.directoryCalls ++ [askCommons settings] }

/-- Making the home directory is one call for a directory. -/
theorem adds_withHome (settings : Settings) (r : Rehearsal) :
    Adds { directory := [createHome settings] } r (withHome settings r) :=
  ⟨rfl, rfl, rfl⟩

/-- Asking for the commons is one call for a directory. -/
theorem adds_withAsked (settings : Settings) (r : Rehearsal) :
    Adds { directory := [askCommons settings] } r (withAsked settings r) :=
  ⟨rfl, rfl, rfl⟩

/-- Whether the installation is initialized is asked of the directories. -/
theorem isInitialized_apply (s : Surroundings) (r : Rehearsal) :
    Lifecycle.isInitialized (collaborators s) s.settings r =
      .ok (decide (HasCommons s.settings r.existing)) (withAsked s.settings r) := by
  have hcontains : r.existing.contains s.settings.commonsDir.toString =
      decide (HasCommons s.settings r.existing) := by
    rw [Bool.eq_iff_iff, List.contains_iff_mem, decide_eq_true_iff, HasCommons]
  rw [← hcontains]
  rfl

section Made

variable (h : r.refusal = none)

include h

/-- Once the home directory is made, the path of the command decides, or the commons directory
does. -/
theorem preRun_of_made :
    Lifecycle.preRun (collaborators s) s.settings path r =
      (if Gate.isListed Gate.openPaths path || Gate.isCompletion path then pure .proceed
        else do
          if ← Lifecycle.isInitialized (collaborators s) s.settings then pure .proceed
          else do
            (collaborators s).record (Lifecycle.commandEvent "lifecycle.blocked" path [])
            pure (.earlyExit Gate.initMessage 0) : Act Rehearsal Gate.Decision)
        (withHome s.settings r) := by
  have hcreate : (collaborators s).createDirectory s.settings.homeDir r =
      .ok () (withHome s.settings r) := by
    obtain ⟨world, existing, refusal, tutorial, published⟩ := r
    obtain rfl : refusal = none := h
    rfl
  have hmade : Lifecycle.makeHome (collaborators s) s.settings path r =
      .ok () (withHome s.settings r) := by
    rw [Lifecycle.makeHome, Act.tryCatch_apply, hcreate]
  rw [Lifecycle.preRun, Act.bind_apply, hmade]

/-- Before an exempt command only the home directory is made. -/
theorem preRun_of_exempt (hpath : Gate.Exempt path) :
    Lifecycle.preRun (collaborators s) s.settings path r =
      .ok .proceed (withHome s.settings r) := by
  rw [preRun_of_made h, if_pos (Gate.exempt_iff.mpr hpath)]
  rfl

/-- Before another command the commons are asked for, and where they exist it is let through. -/
theorem preRun_of_admitted (hpath : ¬ Gate.Exempt path)
    (hi : HasCommons s.settings (withHome s.settings r).existing) :
    Lifecycle.preRun (collaborators s) s.settings path r =
      .ok .proceed (withAsked s.settings (withHome s.settings r)) := by
  rw [preRun_of_made h, if_neg (mt Gate.exempt_iff.mp hpath), Act.bind_apply,
    isInitialized_apply]
  dsimp only
  rw [if_pos (by simpa using hi)]
  rfl

/-- Where they do not exist, the command is blocked once that is recorded. -/
theorem preRun_of_blocked (hpath : ¬ Gate.Exempt path)
    (hi : ¬ HasCommons s.settings (withHome s.settings r).existing) :
    ∃ r', Adds { directory := [createHome s.settings, askCommons s.settings] } r r' ∧
      (s.Recordable ∧ Lifecycle.preRun (collaborators s) s.settings path r =
          .ok (.earlyExit Gate.initMessage 0) r' ∨
        ¬ s.Recordable ∧ Lifecycle.preRun (collaborators s) s.settings path r =
          .error (.file .embeddedNul) r') := by
  have hadds := (adds_withHome s.settings r).trans (adds_withAsked s.settings _)
  rw [preRun_of_made h, if_neg (mt Gate.exempt_iff.mp hpath), Act.bind_apply,
    isInitialized_apply]
  dsimp only
  rw [if_neg (by simpa using hi), Act.bind_apply]
  rcases record_cases (s := s) (.blocked path)
    (withAsked s.settings (withHome s.settings r)) with ⟨hr, w, hrecord⟩ | ⟨hr, hrecord⟩
  · rw [hrecord]
    exact ⟨_, hadds.inWorld w, .inl ⟨hr, rfl⟩⟩
  · rw [hrecord]
    exact ⟨_, hadds, .inr ⟨hr, rfl⟩⟩

end Made

/-! ### The look for a version -/

/-- A rehearsal that was asked for the published version. -/
def withLook (r : Rehearsal) : Rehearsal :=
  { r with publishedCalls := r.publishedCalls + 1 }

/-- The published version is the one that is given, and asking for it is noted. -/
theorem publishedVersion_apply (s : Surroundings) (r : Rehearsal) :
    (collaborators s).publishedVersion r =
      match r.published with
      | .ok version => .ok version (withLook r)
      | .error f => .error f (withLook r) := by
  obtain ⟨world, existing, refusal, tutorial, published⟩ := r
  cases published <;> rfl

/-- The look for a version asks once, and a release fault is no news. -/
theorem news?_apply (s : Surroundings) (r : Rehearsal) :
    Release.news? (collaborators s).publishedVersion s.settings.version r =
      match r.published with
      | .ok version =>
        .ok (if version = s.settings.version then none else some version) (withLook r)
      | .error (.release _) => .ok none (withLook r)
      | .error f => .error f (withLook r) := by
  rw [Program.news?_eq, Act.tryCatch_apply, Act.bind_apply, publishedVersion_apply]
  cases r.published with
  | ok version => rfl
  | error f => cases f <;> rfl

/-- A rehearsal in which the collaborators that come after a look for a version were told the same
as in another. -/
structure SameTold (r r' : Rehearsal) : Prop where
  existing : r'.existing = r.existing
  tutorial : r'.tutorial = r.tutorial

/-- **What a look for a version comes to**: it ends, once it is recorded if there is something to
record; or a failure is passed on; or it is interrupted. -/
inductive Verifies (s : Surroundings) (r : Rehearsal) (path : String) :
    EStateM.Result Fault Rehearsal Unit → Prop
  | ends {n : Nat} {r' : Rehearsal} (h : LooksUp r path n none)
      (hr : path = Gate.programName → s.Recordable) (hadds : Adds { published := n } r r')
      (hsame : SameTold r r') : Verifies s r path (.ok () r')
  | escapes {f : Fault} {r' : Rehearsal} (h : LooksUp r path 1 (some f))
      (hadds : Adds { published := 1 } r r') : Verifies s r path (.error f r')
  | interrupted {r' : Rehearsal} (hpath : path = Gate.programName) (h : LooksUp r path 1 none)
      (hr : ¬ s.Recordable) (hadds : Adds { published := 1 } r r') :
    Verifies s r path (.error (.file .embeddedNul) r')

/-- The look for a version comes to one of its ends in every rehearsal. -/
theorem verifies (s : Surroundings) (r : Rehearsal) (path : String) :
    Verifies s r path (Lifecycle.verifyNewVersion (collaborators s) s.settings path r) := by
  by_cases hpath : path = Gate.programName
  swap
  · rw [Lifecycle.verifyNewVersion_of_ne hpath]
    exact .ends (.passedOver hpath) (fun h => absurd h hpath) (.refl r) ⟨rfl, rfl⟩
  have hlook : Adds { published := 1 } r (withLook r) := ⟨(List.append_nil _).symm, rfl, rfl⟩
  have hverify : Lifecycle.verifyNewVersion (collaborators s) s.settings path = (do
      let latest ← Release.news? (collaborators s).publishedVersion s.settings.version
      Lifecycle.announce (collaborators s) s latest) :=
    Lifecycle.verifyNewVersion_of_eq (o := ⟨s.environment, s.clock, s.network, s.launch⟩) hpath
  have announced (latest : Option String) (h : LooksUp r path 1 none) :
      Verifies s r path (Lifecycle.announce (collaborators s) s latest (withLook r)) := by
    rw [Lifecycle.announce.eq_def, Act.bind_apply]
    rcases record_cases (s := s) (.versionChecked latest) (withLook r) with
      ⟨hr, w, hrecord⟩ | ⟨hr, hrecord⟩
    · rw [Program.versionEvent, hrecord]
      cases latest with
      | none => exact .ends h (fun _ => hr) (hlook.inWorld w) ⟨rfl, rfl⟩
      | some version =>
          exact .ends h (fun _ => hr) (hlook.inWorld _) ⟨rfl, rfl⟩
    · rw [Program.versionEvent, hrecord]
      exact .interrupted hpath h hr hlook
  rw [hverify, Act.bind_apply, news?_apply]
  cases hp : r.published with
  | ok version => exact announced _ (.answered hpath hp)
  | error f =>
      by_cases hf : ∃ fault, f = .release fault
      · obtain ⟨fault, rfl⟩ := hf
        exact announced _ (.unknown hpath hp)
      · have hne (fault : ReleaseFault) : f ≠ .release fault := fun he => hf ⟨fault, he⟩
        cases f with
        | release fault => exact absurd rfl (hne fault)
        | _ => exact .escapes (.escapes hpath hp hne) hlook

/-! ### What comes after it -/

/-- **What the reminder comes to**: nothing where the installation is initialized, and elsewhere
what finding the tutorial state does, once that is recorded if it is a tutorial fault. -/
inductive Reminds (s : Surroundings) (r : Rehearsal) : EStateM.Result Fault Rehearsal Unit → Prop
  | leftAlone {r' : Rehearsal} (hi : HasCommons s.settings r.existing)
      (hadds : Adds { directory := [askCommons s.settings] } r r') : Reminds s r (.ok () r')
  | reminded {tutorial : Tutorial} {r' : Rehearsal} (hi : ¬ HasCommons s.settings r.existing)
      (ht : r.tutorial = .ok tutorial)
      (hadds : Adds { directory := [askCommons s.settings], tutorial := 1 } r r') :
    Reminds s r (.ok () r')
  | unreadable {f : Fault} {r' : Rehearsal} (hi : ¬ HasCommons s.settings r.existing)
      (ht : r.tutorial = .error f) (hr : (∃ fault, f = .tutorial fault) → s.Recordable)
      (hadds : Adds { directory := [askCommons s.settings], tutorial := 1 } r r') :
    Reminds s r (.error f r')
  | interrupted {fault : TutorialFault} {r' : Rehearsal}
      (hi : ¬ HasCommons s.settings r.existing) (ht : r.tutorial = .error (.tutorial fault))
      (hr : ¬ s.Recordable)
      (hadds : Adds { directory := [askCommons s.settings], tutorial := 1 } r r') :
    Reminds s r (.error (.file .embeddedNul) r')

/-- A rehearsal that was asked whether it is initialized, and then for the tutorial state. -/
def withFind (settings : Settings) (r : Rehearsal) : Rehearsal :=
  { withAsked settings r with tutorialCalls := r.tutorialCalls + 1 }

/-- The state of the tutorial is the one that is given, and asking for it is noted. -/
theorem findTutorial_apply (s : Surroundings) (r : Rehearsal) :
    (collaborators s).findTutorial (withAsked s.settings r) =
      match r.tutorial with
      | .ok tutorial => .ok tutorial (withFind s.settings r)
      | .error f => .error f (withFind s.settings r) := by
  obtain ⟨world, existing, refusal, tutorial, published⟩ := r
  cases tutorial <;> rfl

/-- What comes after the look for a version comes to one of its ends in every rehearsal. -/
theorem reminds (s : Surroundings) (r : Rehearsal) (path : String) :
    Reminds s r (Lifecycle.remindOf (collaborators s) s.settings path r) := by
  rw [Lifecycle.remindOf, Act.bind_apply, isInitialized_apply]
  dsimp only
  by_cases hi : HasCommons s.settings r.existing
  · rw [if_neg (by simpa using hi)]
    exact .leftAlone hi (adds_withAsked _ _)
  rw [if_pos (by simpa using hi), Act.bind_apply]
  have hadds : Adds { directory := [askCommons s.settings], tutorial := 1 } r
      (withFind s.settings r) := ⟨rfl, rfl, rfl⟩
  rw [Lifecycle.findTutorial, Act.tryCatch_apply, findTutorial_apply]
  cases ht : r.tutorial with
  | ok tutorial => exact .reminded hi ht (hadds.inWorld _)
  | error f =>
      cases f with
      | tutorial fault =>
          dsimp only
          rw [Act.bind_apply]
          rcases record_cases (s := s) (.tutorialFailed path fault) (withFind s.settings r) with
            ⟨hr, w, hrecord⟩ | ⟨hr, hrecord⟩
          · rw [hrecord]
            exact .unreadable hi ht (fun _ => hr) (hadds.inWorld w)
          · rw [hrecord]
            exact .interrupted hi ht hr hadds
      | _ => exact .unreadable hi ht (by simp) hadds

/-! ### Steps -/

/-- What a step does that is interrupted is not what the protocol says. -/
theorem Interrupted.not_follows {step : Step} {report : Report}
    (h : Interrupted settings r o step report) : ¬ Follows settings r step report := by
  obtain ⟨-, ⟨calls, hevent, hadds⟩, houtcome⟩ := h
  rintro ⟨calls', hadds', hobeys⟩
  rw [houtcome] at hobeys
  cases hevent with
  | refused h =>
      cases hobeys
  | blocked h hpath hi =>
      cases hobeys
  | verified hpath h =>
      cases hobeys with
      | verifyFails h' => simpa using (h.unique h').2
  | checked hpath h =>
      cases hobeys with
      | postRunFails h' => simpa using (h.unique h').2
      | unreadable h' hi ht =>
          have htutorial := hadds.tutorial.symm.trans hadds'.tutorial
          simp at htutorial
  | unreadable hpath hi ht =>
      cases hobeys with
      | postRunFails h' => exact hpath h'.path_eq
      | unreadable h' hi' ht' =>
          rw [ht] at ht'
          cases ht'

/-- A step that follows the protocol, because events can be recorded or it has none. -/
theorem Abides.of_follows {step : Step} {report : Report} {calls : Calls}
    (hadds : Adds calls r report.after) (h : Obeys settings r step calls report.outcome)
    (hr : (∃ calls, HasEvent settings r step calls) → (o.surroundings settings).Recordable) :
    Abides settings r o step report where
  follows_iff := by
    refine iff_of_true ⟨calls, hadds, h⟩ ?_
    by_cases hevent : ∃ calls, HasEvent settings r step calls
    · exact .inl (hr hevent)
    · exact .inr fun calls hcalls => hevent ⟨calls, hcalls⟩
  otherwise hno := absurd ⟨calls, hadds, h⟩ hno

/-- A step that is interrupted. -/
theorem Abides.of_interrupted {step : Step} {report : Report}
    (h : Interrupted settings r o step report) : Abides settings r o step report where
  follows_iff := by
    refine iff_of_false h.not_follows fun hno => ?_
    obtain ⟨calls, hevent, -⟩ := h.calls
    exact hno.elim h.unrecordable fun hnone => hnone calls hevent
  otherwise _ := h

/-- A step that ends is reported with what it comes to. -/
theorem perform_of_ok {step : Step} {outcome : Outcome}
    (h : step.act (o.surroundings settings) r = .ok outcome r') :
    perform settings r o step = ⟨.ok outcome, r'⟩ := by
  rw [perform, h]

/-- A step that fails is reported with its fault. -/
theorem perform_of_error {step : Step} {f : Fault}
    (h : step.act (o.surroundings settings) r = .error f r') :
    perform settings r o step = ⟨.error f, r'⟩ := by
  rw [perform, h]

/-- What comes before a command, as a step. -/
theorem preRun_abides (settings : Settings) (r : Rehearsal) (o : Occasion) (path : String) :
    Abides settings r o (.preRun path) (perform settings r o (.preRun path)) := by
  let s := o.surroundings settings
  have ends {d : Gate.Decision} {r' : Rehearsal}
      (h : Lifecycle.preRun (collaborators s) s.settings path r = .ok d r') :
      perform settings r o (.preRun path) = ⟨.ok (.decision d), r'⟩ := by
    refine perform_of_ok ?_
    rw [Step.act, Act.bind_apply, h]
    rfl
  have fails {f : Fault} {r' : Rehearsal}
      (h : Lifecycle.preRun (collaborators s) s.settings path r = .error f r') :
      perform settings r o (.preRun path) = ⟨.error f, r'⟩ := by
    refine perform_of_error ?_
    rw [Step.act, Act.bind_apply, h]
  cases hrefusal : r.refusal with
  | some message =>
      obtain ⟨r', hadds, ⟨hr, hpre⟩ | ⟨hr, hpre⟩⟩ := preRun_of_refusal (s := s) hrefusal
      · rw [fails hpre]
        exact .of_follows hadds (.refused hrefusal) fun _ => hr
      · rw [fails hpre]
        exact .of_interrupted ⟨hr, ⟨_, .refused hrefusal, hadds⟩, rfl⟩
  | none =>
      by_cases hpath : Gate.Exempt path
      · rw [ends (preRun_of_exempt (s := s) hrefusal hpath)]
        refine .of_follows (adds_withHome settings r) (.exempt hrefusal hpath) ?_
        rintro ⟨calls, hevent⟩
        cases hevent <;> simp_all
      by_cases hi : HasCommons settings (r.existing ++ [settings.homeDir.toString])
      · rw [ends (preRun_of_admitted (s := s) hrefusal hpath hi)]
        refine .of_follows ((adds_withHome settings r).trans (adds_withAsked settings _))
          (.admitted hrefusal hpath hi) ?_
        rintro ⟨calls, hevent⟩
        cases hevent <;> simp_all
      · obtain ⟨r', hadds, ⟨hr, hpre⟩ | ⟨hr, hpre⟩⟩ :=
          preRun_of_blocked (s := s) hrefusal hpath hi
        · rw [ends hpre]
          exact .of_follows hadds (.blocked hrefusal hpath hi) fun _ => hr
        · rw [fails hpre]
          exact .of_interrupted ⟨hr, ⟨_, .blocked hrefusal hpath hi, hadds⟩, rfl⟩

/-- The look for a version, as a step. -/
theorem verifyNewVersion_abides (settings : Settings) (r : Rehearsal) (o : Occasion)
    (path : String) :
    Abides settings r o (.verifyNewVersion path)
      (perform settings r o (.verifyNewVersion path)) := by
  let s := o.surroundings settings
  have hact : (Step.verifyNewVersion path).act s r =
      match Lifecycle.verifyNewVersion (collaborators s) s.settings path r with
      | .ok () r' => .ok .done r'
      | .error f r' => .error f r' := by
    rw [Step.act, Act.bind_apply]
    cases Lifecycle.verifyNewVersion (collaborators s) s.settings path r <;> rfl
  have hverifies := verifies s r path
  generalize Lifecycle.verifyNewVersion (collaborators s) s.settings path r = ended
    at hact hverifies
  cases hverifies with
  | ends h hr hadds hsame =>
      rw [perform_of_ok hact]
      refine .of_follows hadds (.verified h) ?_
      rintro ⟨calls, hevent⟩
      cases hevent with
      | verified hpath => exact hr hpath
  | escapes h hadds =>
      rw [perform_of_error hact]
      refine .of_follows hadds (.verifyFails h) ?_
      rintro ⟨calls, hevent⟩
      cases hevent with
      | verified hpath h' => simpa using (h.unique h').2
  | interrupted hpath h hr hadds =>
      rw [perform_of_error hact]
      exact .of_interrupted ⟨hr, ⟨_, .verified hpath h, hadds⟩, rfl⟩

/-- What comes after a command, as a step. -/
theorem postRun_abides (settings : Settings) (r : Rehearsal) (o : Occasion) (path : String) :
    Abides settings r o (.postRun path) (perform settings r o (.postRun path)) := by
  let s := o.surroundings settings
  have hact : (Step.postRun path).act s r =
      match Lifecycle.verifyNewVersion (collaborators s) s.settings path r with
      | .error f r' => .error f r'
      | .ok () r₁ =>
        match Lifecycle.remindOf (collaborators s) s.settings path r₁ with
        | .ok () r' => .ok .done r'
        | .error f r' => .error f r' := by
    rw [Step.act, Lifecycle.postRun_eq_remindOf, Act.bind_apply, Act.bind_apply]
    cases Lifecycle.verifyNewVersion (collaborators s) s.settings path r with
    | error f r' => rfl
    | ok u r₁ =>
        dsimp only
        cases Lifecycle.remindOf (collaborators s) s.settings path r₁ <;> rfl
  have hverifies := verifies s r path
  generalize Lifecycle.verifyNewVersion (collaborators s) s.settings path r = ended
    at hact hverifies
  cases hverifies with
  | escapes h hadds =>
      rw [perform_of_error hact]
      refine .of_follows hadds (.postRunFails h) ?_
      rintro ⟨calls, hevent⟩
      cases hevent with
      | checked hpath h' => simpa using (h.unique h').2
      | unreadable hpath hi ht => exact absurd h.path_eq hpath
  | interrupted hpath h hr hadds =>
      rw [perform_of_error hact]
      exact .of_interrupted ⟨hr, ⟨_, .checked hpath h, hadds⟩, rfl⟩
  | @ends n r₁ h hr hadds hsame =>
      have hcommons : HasCommons settings r₁.existing ↔ HasCommons settings r.existing := by
        rw [hsame.existing]
      have hreminds := reminds s r₁ path
      dsimp only at hact
      generalize Lifecycle.remindOf (collaborators s) s.settings path r₁ = ended at hact hreminds
      cases hreminds with
      | leftAlone hi hadds' =>
          rw [perform_of_ok hact]
          refine .of_follows (hadds.trans hadds') (.leftAlone h (hcommons.mp hi)) ?_
          rintro ⟨calls, hevent⟩
          cases hevent with
          | checked hpath h' => exact hr hpath
          | unreadable hpath hno ht => exact absurd (hcommons.mp hi) hno
      | reminded hi ht hadds' =>
          rw [hsame.tutorial] at ht
          rw [perform_of_ok hact]
          refine .of_follows (hadds.trans hadds') (.reminded h (mt hcommons.mpr hi) ht) ?_
          rintro ⟨calls, hevent⟩
          cases hevent with
          | checked hpath h' => exact hr hpath
          | unreadable hpath hno ht' =>
              rw [ht] at ht'
              cases ht'
      | unreadable hi ht hrecord hadds' =>
          rw [hsame.tutorial] at ht
          rw [perform_of_error hact]
          refine .of_follows (hadds.trans hadds') (.unreadable h (mt hcommons.mpr hi) ht) ?_
          rintro ⟨calls, hevent⟩
          cases hevent with
          | checked hpath h' => exact hr hpath
          | @unreadable _ fault hpath hno ht' =>
              rw [ht] at ht'
              exact hrecord ⟨fault, Except.error.inj ht'⟩
      | interrupted hi ht hno hadds' =>
          rw [hsame.tutorial] at ht
          -- there was nothing to record before
          have hpath : path ≠ Gate.programName := fun hpath => hno (hr hpath)
          obtain rfl : n = 0 := (h.unique (.passedOver hpath)).1
          rw [perform_of_error hact]
          exact .of_interrupted
            ⟨hno, ⟨_, .unreadable hpath (mt hcommons.mpr hi) ht, hadds.trans hadds'⟩, rfl⟩

/-- **One step abides by the law**, whatever the rehearsal. -/
theorem perform_abides (settings : Settings) (r : Rehearsal) (o : Occasion) (step : Step) :
    Abides settings r o step (perform settings r o step) := by
  cases step with
  | preRun path => exact preRun_abides settings r o path
  | postRun path => exact postRun_abides settings r o path
  | verifyNewVersion path => exact verifyNewVersion_abides settings r o path
  | initialized =>
      have hact : Step.act (o.surroundings settings) .initialized r =
          .ok (.presence (decide (HasCommons settings r.existing))) (withAsked settings r) := by
        rw [Step.act, Act.bind_apply, isInitialized_apply]
        rfl
      rw [perform_of_ok hact]
      exact .of_follows (adds_withAsked settings r) .initialized nofun
  | replace new =>
      have hact : (Step.replace new).act (o.surroundings settings) r = .ok .done (new.apply r) :=
        rfl
      have hadds : Adds {} r (new.apply r) := ⟨(List.append_nil _).symm, rfl, rfl⟩
      rw [perform_of_ok hact]
      exact .of_follows hadds .replaced nofun

/-! ### Sequences -/

/-- **The protocol of the collaborators.** In every sequence of steps, from every rehearsal and
with collaborators replaced in between: each step makes the calls of the protocol, in its order,
and comes to what the protocol says, exactly unless it has an event to record, telemetry is on,
and the path of the log directory holds a NUL. Then it makes the calls up to that event, and
fails. -/
theorem collaborator_protocol (settings : Settings) (r : Rehearsal)
    (steps : List (Occasion × Step)) :
    List.Forall₂ (fun turn entry => Abides settings entry.1 turn.1 turn.2 entry.2) steps
      (trace settings r steps) := by
  induction steps generalizing r with
  | nil => exact .nil
  | cons turn rest ih =>
      obtain ⟨o, step⟩ := turn
      exact .cons (perform_abides settings r o step) (ih _)

/-- A rehearsal without directories. -/
def bare : Rehearsal where
  world := { tree := [] }
  existing := []
  refusal := none
  tutorial := .ok ⟨Tutorial.on⟩
  published := .ok ""

/-- Settings with a NUL in the path of the log directory. -/
def nulLog : Settings :=
  { Session.settingsAt ⟨.relative, ["home"]⟩ with logDir := ⟨.relative, ["a\x00b"]⟩ }

/-- **A command that is not answered.** The installation is not initialized, and a command that
needs it does not end early: it fails, because that cannot be recorded. -/
theorem not_follows_of_nul :
    (perform nulLog bare Session.quiet (.preRun "rit tutorial")).outcome =
        .error (.file .embeddedNul) ∧
      ¬ Follows nulLog bare (.preRun "rit tutorial")
        (perform nulLog bare Session.quiet (.preRun "rit tutorial")) := by
  have houtcome : (perform nulLog bare Session.quiet (.preRun "rit tutorial")).outcome =
      .error (.file .embeddedNul) := rfl
  refine ⟨houtcome, ?_⟩
  rintro ⟨calls, -, hobeys⟩
  rw [houtcome] at hobeys
  cases hobeys

end Rehearsal

end CommandGate
