import CommandGate.Proofs.Program.Effects
import CommandGate.Proofs.Telemetry.Appended
import Mathlib.Data.List.Forall2

/-!
# The Trail of an Invocation

Where telemetry is on and the log can be written throughout, an invocation leaves its trail in
the log (`Program.trail`): one event if the home directory cannot be made, or if the gate blocks,
and otherwise the event of the body, that of the look for a version and that of a tutorial state
that cannot be found out, as far as there are any. An invocation that is answered by its arguments
leaves nothing. A trail is lost exactly if the path of the home directory holds a NUL, or an
installation is set up in a commons directory whose path is too long (`Program.Lost`).

A step logs events (`Program.Logs`) if it leaves their records behind what was in the log, and
leaves a log that can be written again. What one step after another logs stands in their order,
and so the trail is put together along the invocation.

## Main results

* `Program.Logs.bind`: what one step after another logs.
* `Program.CarriesOut.logs`: what the body of a command logs.
* `Program.leave_logs`: what is logged after it.
* `Program.audit_trail`: an invocation leaves its trail, unless that is lost.
* `Program.trail_lost_of_nul`: a trail that is lost.
-/

namespace CommandGate

open FileTree

namespace Telemetry

variable {s : Surroundings} {es more : List Event} {t u v : FileTree}

/-- Events are **logged** between two trees: behind what was in the log stand their records, one
for each, in their order. -/
def Logged (s : Surroundings) (es : List Event) (t u : FileTree) : Prop :=
  ∃ rs, List.Forall₂ (fun e r => Record.of s.clock e = .ok r) es rs ∧
    Appends s.settings.logFile rs t u

namespace Logged

/-- No event is logged where the log stays as it is. -/
theorem of_eq (h : u.bytesAt s.settings.logFile.place = t.bytesAt s.settings.logFile.place) :
    Logged s [] t u :=
  ⟨[], .nil, .of_eq h⟩

/-- Events of two steps are logged in their order. -/
theorem trans (h : Logged s es t u) (h' : Logged s more u v) : Logged s (es ++ more) t v := by
  obtain ⟨rs, hrs, happends⟩ := h
  obtain ⟨rs', hrs', happends'⟩ := h'
  exact ⟨rs ++ rs', List.rel_append hrs hrs', happends.trans happends'⟩

/-- Making folders logs nothing. -/
theorem of_makeFolders {p : Path} {r : Except FileFault Unit} (hmake : t.makeFolders p = (u, r))
    (h : Logged s es u v) : Logged s es t v :=
  (of_eq ((addsFolders_of_makeFolders hmake).bytesAt_eq _)).trans h

/-- In a log that stays as it is nothing is logged. -/
theorem eq_nil (h : Logged s es t u)
    (hsame : u.bytesAt s.settings.logFile.place = t.bytesAt s.settings.logFile.place) :
    es = [] := by
  obtain ⟨rs, hrs, happends⟩ := h
  obtain rfl := happends.eq_nil hsame
  exact List.forall₂_nil_right_iff.mp hrs

end Logged

end Telemetry

namespace Program

open Telemetry (CanWrite Event Logged)

variable {s : Surroundings} {args : List String} {path : String} {command : Act World Int}
variable {mode : UpgradeMode} {code : Int} {w w₁ w₂ : World} {t : FileTree}

/-! ### The trail -/

/-- The event of setting up in a tree. -/
def setUpEvent (s : Surroundings) (t : FileTree) : Event :=
  match t.makeFolders s.settings.commonsDir with
  | (_, .ok ()) =>
    let already := match t.present s.settings.commonsDir with
      | .ok found => found
      | .error _ => false
    event "init" [("status", .string "ok"), ("already_initialized", .bool already)] .info
  | (_, .error f) =>
    event "init" [("status", .string "failed"),
      ("error", .string (directoryMessage s.settings.commonsDir f))] .error

/-- The event of an upgrade. -/
def upgradeEvent (s : Surroundings) (mode : UpgradeMode) : Event :=
  if mode = .print then event "upgrade" [("mode", mode.toJson)] .info
  else launchEvent s.environment mode s.launch

/-- The events of a body in a tree. -/
def bodyEvents (s : Surroundings) (t : FileTree) : Task → List Event
  | .init => [setUpEvent s t]
  | .upgrade mode => [upgradeEvent s mode]
  | .setTutorial (some state) =>
    match (Tutorial.set s.settings.tutorialFile state t).2 with
    | .ok () => [event "tutorial.set" [("state", .string state)] .info]
    | .error _ => []
  | _ => []

/-- The events of what arguments make the program carry out in a tree; completing words has
none. -/
def commandEvents (s : Surroundings) (args : List String) (t : FileTree) : List Event :=
  match taskOf? args with
  | some task => bodyEvents s t task
  | none => []

/-- The events of the look for a version. -/
def versionEvents (s : Surroundings) (path : String) : List Event :=
  if path = Gate.programName then
    match newsIn s.settings.version s.network with
    | .ok latest => [versionEvent s latest]
    | .error _ => []
  else []

/-- The events of asking for the tutorial state in a tree, if it is asked for. -/
def reminderEvents (s : Surroundings) (path : String) : Option FileTree → List Event
  | none => []
  | some t =>
    match Tutorial.find s.settings.tutorialFile t with
    | .error (.tutorial fault) =>
      [Lifecycle.commandEvent "tutorial.failed" path [("error", .string fault.message)]]
    | _ => []

/-- **The trail of an invocation** that carries something out. -/
def trail (s : Surroundings) (args : List String) (path : String) (command : Act World Int)
    (w : World) : List Event :=
  match w.tree.makeFolders s.settings.homeDir with
  | (_, .error f) => [homeEvent s path (directoryMessage s.settings.homeDir f)]
  | (t, .ok ()) =>
    match Gate.isListed Gate.openPaths path || Gate.isCompletion path,
        t.present s.settings.commonsDir with
    | false, .ok false => [Lifecycle.commandEvent "lifecycle.blocked" path []]
    | _, _ =>
      commandEvents s args t ++
        (versionEvents s path ++
          reminderEvents s path (remindedIn? s path command { w with tree := t }))

/-- The log can be written **throughout** an invocation: once the home directory is tried, and
once the body has changed the tree. -/
structure Writable (s : Surroundings) (args : List String) (w : World) : Prop where
  home : CanWrite s.settings.logFile (w.tree.makeFolders s.settings.homeDir).1
  init : ∀ t, taskOf? args = some .init → w.tree.makeFolders s.settings.homeDir = (t, .ok ()) →
    CanWrite s.settings.logFile (t.makeFolders s.settings.commonsDir).1
  set : ∀ t state, taskOf? args = some (.setTutorial (some state)) →
    w.tree.makeFolders s.settings.homeDir = (t, .ok ()) → Initialized s.settings t →
      CanWrite s.settings.logFile (Tutorial.set s.settings.tutorialFile state t).1

/-- What makes a trail **lost**: a home directory with a NUL in its path, and setting up a commons
directory whose path is too long although the home directory can be made. -/
inductive Lost (s : Surroundings) (args : List String) (w : World) : Prop
  | nul (hnul : s.settings.homeDir.hasNul = true)
  | long {t : FileTree} (ht : taskOf? args = some .init)
      (hhome : w.tree.makeFolders s.settings.homeDir = (t, .ok ()))
      (hlong : ¬ s.settings.commonsDir.Fits)

/-! ### What a step logs -/

section Logs

variable {α β : Type} {es more : List Event} {a : Act World α} {f : α → Act World β}

/-- A step **logs** events in a world: it leaves a tree in which they are logged, and in which
the log can be written again. -/
structure Logs (s : Surroundings) (es : List Event) (a : Act World α) (w : World) : Prop where
  logged : Logged s es w.tree (a.after w).tree
  writable : CanWrite s.settings.logFile (a.after w).tree

/-- A step that leaves the log as it is logs nothing. -/
theorem Logs.of_bytes (h : (a.after w).tree = t)
    (hbytes : t.bytesAt s.settings.logFile.place = w.tree.bytesAt s.settings.logFile.place)
    (hlog : CanWrite s.settings.logFile t) : Logs s [] a w :=
  ⟨.of_eq (by rw [h, hbytes]), by rwa [h]⟩

/-- So does one that leaves the whole tree as it is. -/
theorem Logs.of_tree (h : (a.after w).tree = w.tree) (hlog : CanWrite s.settings.logFile w.tree) :
    Logs s [] a w :=
  .of_bytes h rfl hlog

/-- **What one step after another logs** stands in their order. -/
theorem Logs.bind {x : α} (ha : Logs s es a w) (hw : a w = .ok x w₁)
    (hf : Logs s more (f x) w₁) : Logs s (es ++ more) (a >>= f) w := by
  obtain ⟨hlogged, -⟩ := ha
  rw [Act.after, hw] at hlogged
  have hafter : (a >>= f).after w = (f x).after w₁ := by rw [Act.after_bind, hw]
  refine ⟨?_, ?_⟩
  · rw [hafter]
    exact hlogged.trans hf.logged
  · rw [hafter]
    exact hf.writable

/-- After a fault nothing more is logged. -/
theorem Logs.bind_of_error {e : Fault} (ha : Logs s es a w) (hw : a w = .error e w₁) :
    Logs s es (a >>= f) w := by
  have hafter : (a >>= f).after w = a.after w := by rw [Act.after_bind, Act.after, hw]
  exact ⟨hafter ▸ ha.logged, hafter ▸ ha.writable⟩

/-- Printing before a step logs nothing. -/
theorem Logs.bind_of_print {stream : Stream} {text : Text}
    (h : ∀ w', w'.tree = w.tree → Logs s es a w') :
    Logs s es (do World.print stream text; a) w := by
  obtain ⟨w', hprint, htree⟩ : ∃ w', World.print stream text w = .ok () w' ∧ w'.tree = w.tree := by
    cases stream <;> exact ⟨_, rfl, rfl⟩
  have hafter : (do World.print stream text; a : Act World α).after w = a.after w' := by
    rw [Act.after_bind, hprint]
  have ha := h w' htree
  exact ⟨hafter ▸ htree ▸ ha.logged, hafter ▸ ha.writable⟩

/-- Nothing more is logged where the tree stays as it is from then on. -/
theorem Logs.bind_quiet (ha : Logs s es a w) (hf : ∀ x w', ((f x).after w').tree = w'.tree) :
    Logs s es (a >>= f) w := by
  have hafter : ((a >>= f).after w).tree = (a.after w).tree := by
    rw [Act.after_bind, Act.after]
    cases a w with
    | ok x w' => exact hf x w'
    | error e w' => rfl
  exact ⟨hafter ▸ ha.logged, hafter ▸ ha.writable⟩

end Logs

/-- An attempt to make the commons directory, which keeps a refusal. -/
def attempt (s : Surroundings) : Act World (Option DirectoryFault) :=
  tryCatch (do
    Directory.create s.settings.commonsDir
    pure none)
    fun e => match e with
      | .directory fault => pure (some fault)
      | fault => throw fault

/-- What an attempt comes to, where the path is not too long. -/
theorem attempt_cases (hf : s.settings.commonsDir.Fits) (w : World) :
    ∃ failure t, attempt s w = .ok failure { w with tree := t } ∧
      (failure = none ∧ w.tree.makeFolders s.settings.commonsDir = (t, .ok ()) ∨
        ∃ errno q, failure = some (.notCreated s.settings.commonsDir errno) ∧
          w.tree.makeFolders s.settings.commonsDir = (t, .error (.refused errno q))) := by
  have hnul := makeFolders_ne_embeddedNul (t := w.tree) hf.1
  simp only [attempt, Act.tryCatch_apply, Act.bind_apply, Directory.create_apply]
  rcases hmake : w.tree.makeFolders s.settings.commonsDir with ⟨t, f | ⟨⟩⟩
  · cases f with
    | refused errno q => exact ⟨_, t, rfl, .inr ⟨errno, q, rfl, rfl⟩⟩
    | embeddedNul => exact absurd (by rw [hmake]) hnul
  · exact ⟨none, t, rfl, .inl ⟨rfl, rfl⟩⟩

/-- A look for a version that fails has no events. -/
theorem versionEvents_of_error {f : Fault} (hcheck : Checks s path w (.error f w₁)) :
    versionEvents s path = [] ∧ w₁.tree = w.tree := by
  cases hcheck with
  | foreign h hnetwork =>
      rw [versionEvents, if_pos h, newsIn, hnetwork]
      exact ⟨rfl, rfl⟩

section Steps

variable (hon : Telemetry.enabled s.environment = true)

include hon

/-- **Recording an event logs it**, where the log can be written. -/
theorem record_logs {e : Event} (he : Records s e) (hlog : CanWrite s.settings.logFile w.tree) :
    Logs s [e] (Telemetry.record s e) w := by
  obtain ⟨r, u, hr, hrecord, happends, hagain⟩ := Telemetry.record_appends he.sound hon hlog
  have hafter : (Telemetry.record s e).after w = { w with tree := u } := by rw [Act.after, hrecord]
  refine ⟨?_, ?_⟩
  · rw [hafter]
    exact ⟨[r], .cons hr .nil, happends⟩
  · rw [hafter]
    exact hagain

/-- Recording succeeds there, and leaves a tree in which the event is logged. -/
theorem exists_logged {e : Event} (he : Records s e)
    (hlog : CanWrite s.settings.logFile w.tree) :
    ∃ u, Telemetry.record s e w = .ok () { w with tree := u } ∧ Logged s [e] w.tree u := by
  obtain ⟨u, hrecord⟩ := record_of_recordable (recordable_of_canWrite hlog) he w
  have hlogged := (record_logs hon he hlog).logged
  rw [Act.after, hrecord] at hlogged
  exact ⟨u, hrecord, hlogged⟩

/-! ### Bodies -/

/-- An upgrade logs its event. -/
theorem upgrade_logs (hlog : CanWrite s.settings.logFile w.tree) :
    Logs s [upgradeEvent s mode] (upgrade s mode) w := by
  by_cases hmode : mode = .print
  · have hevent : upgradeEvent s mode = event "upgrade" [("mode", mode.toJson)] .info :=
      if_pos hmode
    simp only [upgrade, if_pos hmode, hevent]
    refine .bind_of_print fun w' htree => ?_
    exact (record_logs hon (.upgradeShown mode) (htree ▸ hlog)).bind_quiet fun _ _ => rfl
  · have hevent : upgradeEvent s mode = launchEvent s.environment mode s.launch := if_neg hmode
    have htree : (launched s.environment mode s.launch w).tree = w.tree := launched_tree _ mode _ w
    have hrecord := record_logs hon (records_launchEvent mode) (htree ▸ hlog)
    have hafter := after_upgrade hmode w (s := s)
    rw [hevent]
    exact ⟨hafter ▸ htree ▸ hrecord.logged, hafter ▸ hrecord.writable⟩

/-- Setting up logs its event, where the commons directory can be looked for. -/
theorem setUp_logs (hf : s.settings.commonsDir.Fits) {found : Bool}
    (hp : w.tree.present s.settings.commonsDir = .ok found)
    (hlog : CanWrite s.settings.logFile w.tree)
    (hmade : CanWrite s.settings.logFile (w.tree.makeFolders s.settings.commonsDir).1) :
    Logs s [setUpEvent s w.tree] (setUp s) w := by
  have hlook : Directory.present s.settings.commonsDir w = .ok found w := by
    rw [Directory.present_apply, hp]
  obtain ⟨failure, t, htry, hmake⟩ := attempt_cases hf w
  have htree : (w.tree.makeFolders s.settings.commonsDir).1 = t := by
    rcases hmake with ⟨-, hmake⟩ | ⟨errno, q, -, hmake⟩ <;> rw [hmake]
  have hadd := makeFolders_addsFolders w.tree s.settings.commonsDir
  rw [htree] at hadd hmade
  have hattempt : Logs s [] (attempt s) w :=
    .of_bytes (by rw [Act.after, htry]) (hadd.bytesAt_eq _) hmade
  rw [setUp_eq]
  refine (Logs.of_tree (by rw [Act.after, hlook]) hlog).bind hlook (hattempt.bind htry ?_)
  rcases hmake with ⟨rfl, hmake⟩ | ⟨errno, q, rfl, hmake⟩
  · have hevent : setUpEvent s w.tree = event "init"
        [("status", .string "ok"), ("already_initialized", .bool found)] .info := by
      rw [setUpEvent, hmake, hp]
    rw [hevent]
    exact (record_logs hon (.initDone found) hmade).bind_quiet fun _ _ => rfl
  · let fault : DirectoryFault := .notCreated s.settings.commonsDir errno
    have hevent : setUpEvent s w.tree = event "init"
        [("status", .string "failed"), ("error", .string fault.message)] .error := by
      rw [setUpEvent, hmake]
      rfl
    rw [hevent]
    dsimp only [reportFailure]
    refine .bind_of_print fun w' htree' => ?_
    exact (record_logs hon (.initFailed fault) (htree' ▸ hmade)).bind_quiet fun _ _ => rfl

/-- Setting a tutorial state logs its event, if the state can be set. -/
theorem setTutorial_logs (state : String)
    (hset : CanWrite s.settings.logFile
      (Tutorial.set s.settings.tutorialFile state w.tree).1) :
    Logs s (bodyEvents s w.tree (.setTutorial (some state))) (setTutorial s (some state)) w := by
  have hchange : Logs s [] (World.change (Tutorial.set s.settings.tutorialFile state)) w := by
    refine .of_bytes (by rw [World.after_change]) ?_ hset
    exact (Tutorial.set_rewrites s.settings.tutorialFile state w.tree).bytesAt_of_ne
      s.settings.logFile_place_ne
  rw [setTutorial, bodyEvents]
  cases hresult : (Tutorial.set s.settings.tutorialFile state w.tree).2 with
  | ok =>
      refine hchange.bind (World.change_of_ok hresult) ?_
      exact (record_logs hon (.tutorialSet state) hset).bind_quiet fun _ _ => rfl
  | error f => exact hchange.bind_of_error (World.change_of_error hresult)

/-- **The body of a command logs its events** where the commons directory can be looked for. -/
theorem CarriesOut.logs (hc : CarriesOut s args path command)
    (hhome : w.tree.makeFolders s.settings.homeDir = (t, .ok ())) (hpass : Passes s path t)
    (hlost : ¬ Lost s args w) (hlog : Writable s args w) :
    Logs s (commandEvents s args t) command { w with tree := t } := by
  have hcan : CanWrite s.settings.logFile t := by simpa only [hhome] using hlog.home
  have quiet {a : Act World Int} (ha : (a.after { w with tree := t }).tree = t) :
      Logs s [] a { w with tree := t } := .of_tree ha hcan
  cases hc with
  | completion words =>
      rw [commandEvents, taskOf?_completion]
      exact quiet rfl
  | task ht =>
      rename_i task
      rw [commandEvents, ht]
      cases task with
      | overview => exact quiet rfl
      | help => exact quiet rfl
      | completionScript shell => exact quiet rfl
      | init =>
          have hf : s.settings.commonsDir.Fits := by
            by_contra hlong
            exact hlost (.long ht hhome hlong)
          obtain ⟨found, hpresent⟩ := exists_present (stands_of_makeFolders hhome) hf
          exact setUp_logs (w := { w with tree := t }) hon hf hpresent hcan (hlog.init t ht hhome)
      | upgrade mode => exact upgrade_logs hon hcan
      | showTutorial =>
          refine quiet ?_
          rw [Act.after, body, showTutorial_apply]
          dsimp only
          cases Tutorial.find s.settings.tutorialFile t with
          | ok tutorial => rfl
          | error f => cases f <;> rfl
      | setTutorial state =>
          cases state with
          | none => exact quiet rfl
          | some state =>
              exact setTutorial_logs (w := { w with tree := t }) hon state
                (hlog.set t state ht hhome (initialized_of_passes hpass))

/-! ### After the body -/

/-- The look for a version logs its events. -/
theorem checks_logs (hcheck : Checks s path w (.ok () w₁))
    (hlog : CanWrite s.settings.logFile w.tree) :
    Logged s (versionEvents s path) w.tree w₁.tree ∧ CanWrite s.settings.logFile w₁.tree := by
  cases hcheck with
  | passedOver h =>
      rw [versionEvents, if_neg h]
      exact ⟨.of_eq rfl, hlog⟩
  | @answered latest w' h hnews hrecord =>
      have hlogs := record_logs (w := asked s w) hon (.versionChecked latest) hlog
      have hafter : (Telemetry.record s (versionEvent s latest)).after (asked s w) = w' := by
        rw [Act.after, hrecord]
      have hevents : versionEvents s path = [versionEvent s latest] := by
        rw [versionEvents, if_pos h, hnews]
      rw [hevents, ← hafter]
      exact ⟨hlogs.logged, hlogs.writable⟩

/-- The reminder logs its events. -/
theorem remind_logs (path : String) (code : Int) (hlog : CanWrite s.settings.logFile w.tree) :
    Logs s
      (reminderEvents s path (match w.tree.present s.settings.commonsDir with
        | .ok false => some w.tree
        | _ => none))
      (remind s path code) w := by
  -- where nothing is recorded, the tree stays as it is
  have quiet (htree : ((remind s path code).after w).tree = w.tree) :
      Logs s [] (remind s path code) w := .of_tree htree hlog
  have htree := remind_tree s path code w
  cases hp : w.tree.present s.settings.commonsDir with
  | error f =>
      rw [hp] at htree
      exact quiet htree
  | ok found =>
      rw [hp] at htree
      cases found with
      | true => exact quiet htree
      | false =>
          dsimp only
          rw [reminderEvents]
          cases hfind : Tutorial.find s.settings.tutorialFile w.tree with
          | ok tutorial =>
              rw [hfind] at htree
              exact quiet htree
          | error f =>
              rw [hfind] at htree
              cases f with
              | tutorial fault =>
                  have hrecord := record_logs hon (.tutorialFailed path fault) hlog
                  exact ⟨htree ▸ hrecord.logged, htree ▸ hrecord.writable⟩
              | _ => exact quiet htree

/-- **What follows a body logs its events**: that of the look for a version, and that of a
tutorial state that cannot be found out. -/
theorem leave_logs (hbody : command w = .ok code w₁) (hlog : CanWrite s.settings.logFile w₁.tree) :
    Logs s (versionEvents s path ++ reminderEvents s path (remindedIn? s path command w))
      (leave s path code) w₁ := by
  obtain ⟨r, hcheck⟩ := exists_checks path (recordable_of_canWrite hlog) w₁
  cases r with
  | ok u w₂ =>
      obtain ⟨hlogged, hagain⟩ := checks_logs hon hcheck hlog
      have hleave : (leave s path code).after w₁ = (remind s path code).after w₂ := by
        rw [Act.after, leave_of_checks hcheck, Act.after]
      have hremind := remind_logs hon path code hagain
      rw [remindedIn?_of_checks hbody hcheck]
      exact ⟨hleave ▸ hlogged.trans hremind.logged, hleave ▸ hremind.writable⟩
  | error f w₂ =>
      obtain ⟨hevents, htree⟩ := versionEvents_of_error hcheck
      have hleave : ((leave s path code).after w₁).tree = w₁.tree := by
        rw [Act.after, leave_of_foreign hcheck, htree]
      rw [remindedIn?_of_foreign hbody hcheck, hevents]
      exact .of_tree hleave hlog

end Steps

/-! ### The cases of a trail -/

/-- The body of the bare command ends. -/
theorem CarriesOut.ends_of_programName (hc : CarriesOut s args path command)
    (hp : path = Gate.programName) (w : World) : ∃ w', command w = .ok 0 w' := by
  cases hc with
  | completion words => exact absurd hp (by decide)
  | task ht =>
      obtain rfl := commandPath_names_eq_iff.mp hp
      exact ⟨_, rfl⟩

/-- A command that is not blocked leaves the events of its body, and those of what follows. -/
theorem trail_of_made (hhome : w.tree.makeFolders s.settings.homeDir = (t, .ok ()))
    (h : (Gate.isListed Gate.openPaths path || Gate.isCompletion path) = true ∨
      t.present s.settings.commonsDir ≠ .ok false) :
    trail s args path command w =
      commandEvents s args t ++ (versionEvents s path ++
        reminderEvents s path (remindedIn? s path command { w with tree := t })) := by
  rw [trail, hhome]
  dsimp only
  split
  · rename_i hclosed hp
    rcases h with hopen | hne
    · rw [hclosed] at hopen
      cases hopen
    · exact absurd hp hne
  · rfl

/-- A command that passes leaves its own events, then those of what comes after it. -/
theorem trail_of_passes (hhome : w.tree.makeFolders s.settings.homeDir = (t, .ok ()))
    (hpass : Passes s path t) :
    trail s args path command w =
      commandEvents s args t ++ (versionEvents s path ++
        reminderEvents s path (remindedIn? s path command { w with tree := t })) := by
  refine trail_of_made hhome ?_
  rcases hpass with hlisted | hcompletion | hi
  · exact .inl (by rw [hlisted, Bool.true_or])
  · exact .inl (by rw [hcompletion, Bool.or_true])
  · exact .inr (by rw [hi]; simp)

/-- A tutorial state cannot be set where its path is too long. -/
theorem set_of_long (hlong : ¬ s.settings.commonsDir.Fits) (state : String) (t : FileTree) :
    (Tutorial.set s.settings.tutorialFile state t).2 ≠ .ok () := fun hset =>
  hlong (Settings.fits_commonsDir_iff.mpr
    (fits_of_resolve_eq_ok (Tutorial.stored_of_set hset).resolve))

/-- **A trail is empty** where the gate cannot find out whether to block. -/
theorem CarriesOut.trail_of_unknown (hc : CarriesOut s args path command)
    (hhome : w.tree.makeFolders s.settings.homeDir = (t, .ok ()))
    (hclosed : (Gate.isListed Gate.openPaths path || Gate.isCompletion path) = false)
    (hlong : ¬ s.settings.commonsDir.Fits) : trail s args path command w = [] := by
  have hpresent := present_of_long_of_made hhome hlong t
  have hpath : path ≠ Gate.programName := by
    rintro rfl
    exact absurd hclosed (by decide)
  have hcommand : commandEvents s args t = [] := by
    cases hc with
    | completion words => rw [commandEvents, taskOf?_completion]
    | task ht =>
        rename_i task
        rw [commandEvents, ht]
        cases task with
        | init => exact absurd hclosed (by decide)
        | upgrade mode =>
            change (Gate.isListed Gate.openPaths upgradePath || Gate.isCompletion upgradePath) =
              false at hclosed
            exact absurd hclosed (by decide)
        | setTutorial state =>
            cases state with
            | none => rfl
            | some state =>
                dsimp only [bodyEvents]
                split
                · exact absurd ‹_› (set_of_long hlong state t)
                · rfl
        | _ => rfl
  rw [trail_of_made hhome (.inr (by rw [hpresent]; simp)), hcommand, versionEvents, if_neg hpath,
    remindedIn?_of_long hhome hlong]
  rfl

/-! ### Invocations -/

section Invocations

variable (hon : Telemetry.enabled s.environment = true)
variable (hc : CarriesOut s args path command) (hlog : Writable s args w)

include hon hc hlog

/-- An invocation that is refused the home directory leaves its trail. -/
theorem logged_of_refused {errno : Errno} {q : Path}
    (hhome : w.tree.makeFolders s.settings.homeDir = (t, .error (.refused errno q))) :
    Logged s (trail s args path command w) w.tree ((run s args).after w).tree := by
  have hcan := hlog.home
  rw [hhome] at hcan
  obtain ⟨u, hrecord, hlogged⟩ := exists_logged (w := { w with tree := t }) hon
    (.directoryFailed path (.notCreated s.settings.homeDir errno)) hcan
  rw [trail, hhome, Act.after, hc.run_eq,
    runCommand_of_ended (enter_of_refused_of_record hhome hrecord)]
  exact hlogged.of_makeFolders hhome

/-- So does one that is blocked. -/
theorem logged_of_blocked (hhome : w.tree.makeFolders s.settings.homeDir = (t, .ok ()))
    (hclosed : (Gate.isListed Gate.openPaths path || Gate.isCompletion path) = false)
    (hp : t.present s.settings.commonsDir = .ok false) :
    Logged s (trail s args path command w) w.tree ((run s args).after w).tree := by
  have hcan := hlog.home
  rw [hhome] at hcan
  obtain ⟨u, hrecord, hlogged⟩ := exists_logged (w := { w with tree := t }) hon (.blocked path) hcan
  have henter := enter_of_absent hhome hclosed hp
  rw [hrecord] at henter
  have htrail : trail s args path command w =
      [Lifecycle.commandEvent "lifecycle.blocked" path []] := by
    simp only [trail, hhome, hclosed, hp]
  rw [htrail, Act.after, hc.run_eq, runCommand_of_ended henter]
  exact hlogged.of_makeFolders hhome

/-- So does one that passes, unless its trail is lost. -/
theorem logged_of_passes (hhome : w.tree.makeFolders s.settings.homeDir = (t, .ok ()))
    (hpass : Passes s path t) (hlost : ¬ Lost s args w) :
    Logged s (trail s args path command w) w.tree ((run s args).after w).tree := by
  have hcommand := hc.logs hon hhome hpass hlost hlog
  have hrun : (run s args).after w =
      (do leave s path (← command) : Act World Int).after { w with tree := t } := by
    rw [Act.after, Act.after, hc.run_of_passes hhome hpass]
  rw [trail_of_passes hhome hpass, hrun]
  refine Logged.of_makeFolders hhome ?_
  cases hbody : command { w with tree := t } with
  | ok code w₁ =>
      have hwritable := hcommand.writable
      rw [Act.after, hbody] at hwritable
      exact (hcommand.bind hbody (leave_logs hon hbody hwritable)).logged
  | error f w₁ =>
      have hpath : path ≠ Gate.programName := by
        intro hp
        obtain ⟨w', hends⟩ := hc.ends_of_programName hp { w with tree := t }
        rw [hbody] at hends
        cases hends
      rw [remindedIn?_of_error hbody, versionEvents, if_neg hpath, reminderEvents, List.append_nil,
        List.append_nil]
      exact (hcommand.bind_of_error hbody).logged

/-- **An invocation leaves its trail**, unless that is lost. -/
theorem logged_trail (hlost : ¬ Lost s args w) :
    Logged s (trail s args path command w) w.tree ((run s args).after w).tree := by
  rcases hhome : w.tree.makeFolders s.settings.homeDir with ⟨t, f | ⟨⟩⟩
  · cases f with
    | refused errno q => exact logged_of_refused hon hc hlog hhome
    | embeddedNul =>
        refine absurd (Lost.nul (by_contra fun hn => ?_)) hlost
        exact makeFolders_ne_embeddedNul (t := w.tree) (by simpa using hn) (by rw [hhome])
  by_cases hpass : Passes s path t
  · exact logged_of_passes hon hc hlog hhome hpass hlost
  rw [Passes, not_or, not_or, Bool.not_eq_true, Bool.not_eq_true] at hpass
  obtain ⟨hlisted, hcompletion, hi⟩ := hpass
  have hclosed : (Gate.isListed Gate.openPaths path || Gate.isCompletion path) = false := by
    rw [hlisted, hcompletion, Bool.or_false]
  by_cases hf : s.settings.commonsDir.Fits
  · have hpresent := present_of_not_initialized (stands_of_makeFolders hhome) hf hi
    exact logged_of_blocked hon hc hlog hhome hclosed hpresent
  · have henter := enter_of_unknown hhome hclosed (present_of_long_of_made hhome hf t)
    rw [hc.trail_of_unknown hhome hclosed hf, Act.after, hc.run_eq, runCommand_of_error henter]
    exact .of_makeFolders hhome (.of_eq rfl)

end Invocations

/-- **A trail that is lost**: it is not empty, and nothing is logged. -/
theorem CarriesOut.logged_of_lost (hc : CarriesOut s args path command) (hlost : Lost s args w) :
    trail s args path command w ≠ [] ∧
      ((run s args).after w).tree.bytesAt s.settings.logFile.place =
        w.tree.bytesAt s.settings.logFile.place := by
  cases hlost with
  | nul hnul =>
      have hhome := makeFolders_of_hasNul (t := w.tree) hnul
      rw [trail, hhome, Act.after, hc.run_eq, runCommand_of_error (enter_of_hasNul hhome)]
      exact ⟨by simp, rfl⟩
  | @long t ht hhome hlong =>
      cases hc with
      | completion words => simp [taskOf?_completion] at ht
      | task ht' =>
          obtain rfl := Option.some.inj (ht'.symm.trans ht)
          have hpass : Passes s (Gate.commandPath Task.init.names) t := .inl (by decide)
          have hbody : setUp s { w with tree := t } =
              .error (.file (.refused .nameTooLong s.settings.commonsDir))
                { w with tree := t } := by
            rw [setUp_eq, Act.bind_apply, Directory.present_apply,
              present_of_long_of_made hhome hlong]
          refine ⟨?_, ?_⟩
          · rw [trail_of_passes hhome hpass, commandEvents, ht]
            simp [bodyEvents]
          · rw [Act.after, (CarriesOut.task ht).run_of_passes hhome hpass, Act.bind_apply, body,
              hbody]
            exact (addsFolders_of_makeFolders hhome).bytesAt_eq _

/-- **The audit trail of an invocation.** Let telemetry be on and the log be writable throughout.
An invocation that carries something out leaves exactly its trail in the log, behind what was
there, unless the trail is lost; and then it leaves nothing. One that is answered by its arguments
leaves nothing either. -/
theorem audit_trail (s : Surroundings) (args : List String) (w : World)
    (hon : Telemetry.enabled s.environment = true) (hlog : Writable s args w) :
    (∀ path command, CarriesOut s args path command →
      (Logged s (trail s args path command w) w.tree ((run s args).after w).tree ↔
        ¬ Lost s args w) ∧
      (Lost s args w → Logged s [] w.tree ((run s args).after w).tree)) ∧
    ((∀ path command, ¬ CarriesOut s args path command) →
      Logged s [] w.tree ((run s args).after w).tree) := by
  refine ⟨fun path command hc => ⟨⟨fun hlogged hlost => ?_, logged_trail hon hc hlog⟩,
    fun hlost => .of_eq (hc.logged_of_lost hlost).2⟩, fun hnone => ?_⟩
  · obtain ⟨hne, hsame⟩ := hc.logged_of_lost hlost
    exact hne (hlogged.eq_nil hsame)
  · rcases carriesOut_or s args with ⟨path, command, hc⟩ | hrun
    · exact absurd hc (hnone path command)
    · refine .of_eq ?_
      rw [hrun, conclude_tree]

open Session in
set_option maxRecDepth 4000 in
/-- The trail of the bare command where a folder stands in the place of the tutorial file: the
look for a version, and the tutorial state that cannot be found out. -/
theorem audit_trail_home :
    let s := atHome
    let w : World := { tree := [("home", .folder [("tutorial.json", .folder [])])] }
    let fault : TutorialFault := .unreadable s.settings.tutorialFile (.refused .isDirectory)
    Telemetry.enabled s.environment = true ∧ Writable s [] w ∧ ¬ Lost s [] w ∧
      CarriesOut s [] Gate.programName (body s .overview) ∧
      Logged s
        [versionEvent s none,
          Lifecycle.commandEvent "tutorial.failed" "rit" [("error", .string fault.message)]]
        w.tree ((run s []).after w).tree := by
  let w : World := { tree := [("home", .folder [("tutorial.json", .folder [])])] }
  have hon : Telemetry.enabled atHome.environment = true := by decide
  have hlog : Writable atHome [] w := by
    refine ⟨⟨rfl, _, rfl⟩, fun _ ht => ?_, fun _ _ ht => ?_⟩ <;> cases ht
  have hlost : ¬ Lost atHome [] w := by
    intro h
    cases h with
    | nul hnul => exact absurd hnul (by decide)
    | long ht => cases ht
  have hc : CarriesOut atHome [] (Gate.commandPath Task.overview.names) (body atHome .overview) :=
    .task rfl
  exact ⟨hon, hlog, hlost, hc, ((audit_trail atHome [] w hon hlog).1 _ _ hc).1.mpr hlost⟩

open Session in
/-- **A trail that is lost**: the path of the home directory holds a NUL. The log can be written,
and the directory cannot be made, but no event of that is logged. -/
theorem trail_lost_of_nul :
    let s : Surroundings := { atHome with
      settings := { atHome.settings with
        homeDir := ⟨.relative, ["a\x00b"]⟩
        logDir := ⟨.relative, ["logs"]⟩ } }
    let w : World := { tree := [] }
    Telemetry.enabled s.environment = true ∧ Writable s ["help"] w ∧
      makeFolders [] s.settings.homeDir = ([], .error .embeddedNul) ∧
      ((run s ["help"]).after w).tree = [] ∧
      ∃ path command, CarriesOut s ["help"] path command ∧
        ¬ Logged s (trail s ["help"] path command w) w.tree ((run s ["help"]).after w).tree := by
  let s : Surroundings := { atHome with
    settings := { atHome.settings with
      homeDir := ⟨.relative, ["a\x00b"]⟩
      logDir := ⟨.relative, ["logs"]⟩ } }
  let w : World := { tree := [] }
  have hhome : makeFolders [] s.settings.homeDir = ([], .error .embeddedNul) :=
    makeFolders_of_hasNul (by decide)
  have hlog : Writable s ["help"] w := by
    refine ⟨?_, fun _ ht => ?_, fun _ _ ht => ?_⟩
    · rw [hhome]
      exact ⟨rfl, _, rfl⟩
    · cases ht
    · cases ht
  have hc : CarriesOut s ["help"] (Gate.commandPath Task.help.names) (body s .help) :=
    .task (by decide)
  refine ⟨by decide, hlog, hhome, rfl, _, _, hc, fun hlogged => ?_⟩
  obtain ⟨hne, hsame⟩ := hc.logged_of_lost (w := w) (.nul (by decide))
  exact hne (hlogged.eq_nil hsame)

end Program

end CommandGate
