import CommandGate.Proofs.Program.Course
import CommandGate.Proofs.Telemetry.Appended

/-!
# The Lifecycle on a Stage

The lifecycle works over any state and with any collaborators. A stage (`Lifecycle.Stage`) says
what is seen of a state as a world, and which states occur; collaborators play on it
(`Lifecycle.Plays`) if recording and printing are those of the world, and everything else leaves
the log and the output alone. What a step of the lifecycle does is then told by the records and
the text that it adds.

## Main results

* `Lifecycle.preRun_quiet`: what comes before a command records no look for a version and prints
  nothing.
* `Lifecycle.verifyNewVersion_adds`: what a look for a version adds.
* `Lifecycle.remindOf_reminds`: what comes after it adds no more than a banner.
-/

namespace CommandGate

namespace Telemetry.Record

/-- The name of a record is that of its event. -/
theorem event_of {time : Binary64} {e : Event} {r : Record} (h : Record.of time e = .ok r) :
    e.name = .string r.event := by
  rw [of_eq_bind] at h
  obtain ⟨event, hevent, h⟩ := Except.bind_eq_ok_iff.mp h
  obtain ⟨payload, -, h⟩ := Except.bind_eq_ok_iff.mp h
  obtain ⟨level, -, h⟩ := Except.bind_eq_ok_iff.mp h
  obtain ⟨status, -, h⟩ := Except.bind_eq_ok_iff.mp h
  obtain rfl := Except.ok.inj h
  exact (eventOf_eq_ok hevent).1

/-- The name of the records of looks for a version. -/
def checkName : Text :=
  Text.ofString "version.check"

/-- A record of a look for a version, with a status. -/
def IsCheck (status : String) (r : Record) : Prop :=
  r.event = checkName ∧ r.status = some (Text.ofString status)

end Telemetry.Record

namespace Lifecycle

open Telemetry Program

variable {σ : Type} {settings : Settings}

/-- A **stage** for the lifecycle: what is seen of a state as a world, and the states that occur.
In these the log can be written. -/
structure Stage (σ : Type) (settings : Settings) where
  world : σ → World
  Occurs : σ → Prop
  canWrite : ∀ {x}, Occurs x → CanWrite settings.logFile (world x).tree

/-- What a step **adds** on a stage: records to the log, and text to the output. -/
structure Stage.Adds (stage : Stage σ settings) (rs : List Record) (text : Text) (x x' : σ) :
    Prop where
  occurs : stage.Occurs x'
  log : Appends settings.logFile rs (stage.world x).tree (stage.world x').tree
  stdout : (stage.world x').stdout = (stage.world x).stdout ++ text

/-- Collaborators **play** on a stage: they record and print in its world, the published version
is a text or cannot be found out, and otherwise they add nothing. -/
structure Plays (stage : Stage σ settings) (o : Session.Occasion) (c : Collaborators σ) :
    Prop where
  createDirectory : ∀ p x, stage.Occurs x → stage.Adds [] [] x ((c.createDirectory p).after x)
  directoryExists : ∀ p x, stage.Occurs x → stage.Adds [] [] x ((c.directoryExists p).after x)
  findTutorial : ∀ x, stage.Occurs x → stage.Adds [] [] x (c.findTutorial.after x)
  publishedVersion : ∀ x, stage.Occurs x → stage.Adds [] [] x (c.publishedVersion.after x)
  resolves : ∀ x f x', stage.Occurs x → c.publishedVersion x = .error f x' →
    ∃ fault, f = .release fault
  record : ∀ e x w, stage.Occurs x →
    Telemetry.record (o.surroundings settings) e (stage.world x) = .ok () w →
      ∃ x', c.record e x = .ok () x' ∧ stage.world x' = w ∧ stage.Occurs x'
  print : ∀ t x, stage.Occurs x → ∃ x', c.print t x = .ok () x' ∧
    stage.world x' = (World.print .stdout t).after (stage.world x) ∧ stage.Occurs x'

variable {stage : Stage σ settings} {x x' x'' : σ} {rs more : List Record} {text rest : Text}

/-! ### Putting steps together -/

namespace Stage.Adds

theorem refl (h : stage.Occurs x) : stage.Adds [] [] x x :=
  ⟨h, .of_eq rfl, (List.append_nil _).symm⟩

/-- What two steps add is added in their order. -/
theorem trans (h : stage.Adds rs text x x') (h' : stage.Adds more rest x' x'') :
    stage.Adds (rs ++ more) (text ++ rest) x x'' :=
  ⟨h'.occurs, h.log.trans h'.log, by rw [h'.stdout, h.stdout, List.append_assoc]⟩

end Stage.Adds

/-- A step is **quiet** if it prints nothing and what it records is no look for a version. -/
def Stage.Quiet (stage : Stage σ settings) (x x' : σ) : Prop :=
  stage.Occurs x →
    ∃ rs, stage.Adds rs [] x x' ∧ ∀ r ∈ rs, r.event ≠ Record.checkName

theorem Stage.quiet_refl (stage : Stage σ settings) (x : σ) : stage.Quiet x x :=
  fun h => ⟨[], .refl h, by simp⟩

/-- Two quiet steps are quiet together. -/
theorem Stage.quiet_trans (stage : Stage σ settings) (x x' x'' : σ) (h : stage.Quiet x x')
    (h' : stage.Quiet x' x'') : stage.Quiet x x'' := by
  intro hx
  obtain ⟨rs, hadds, hrs⟩ := h hx
  obtain ⟨more, hadds', hmore⟩ := h' hadds.occurs
  refine ⟨rs ++ more, hadds.trans hadds', fun r hr => ?_⟩
  exact (List.mem_append.mp hr).elim (hrs r) (hmore r)

/-- A step **reminds** if it prints nothing or a banner, and what it records is no look for a
version. -/
def Stage.Reminds (stage : Stage σ settings) (x x' : σ) : Prop :=
  stage.Occurs x →
    ∃ rs text, stage.Adds rs text x x' ∧ (∀ r ∈ rs, r.event ≠ Record.checkName) ∧
      (text = [] ∨ ∃ tutorial : Tutorial, text = tutorial.banner)

/-- A quiet step reminds, with no banner. -/
theorem Stage.Quiet.reminds (h : stage.Quiet x x') : stage.Reminds x x' := by
  intro hx
  obtain ⟨rs, hadds, hrs⟩ := h hx
  exact ⟨rs, [], hadds, hrs, .inl rfl⟩

/-- A step that reminds does so after a quiet one. -/
theorem Stage.Quiet.trans_reminds (h : stage.Quiet x x') (h' : stage.Reminds x' x'') :
    stage.Reminds x x'' := by
  intro hx
  obtain ⟨rs, hadds, hrs⟩ := h hx
  obtain ⟨more, text, hadds', hmore, htext⟩ := h' hadds.occurs
  refine ⟨rs ++ more, text, hadds.trans hadds', fun r hr => ?_, htext⟩
  exact (List.mem_append.mp hr).elim (hrs r) (hmore r)

/-- A quiet step before one that reminds. -/
theorem Stage.reminds_bind {α β : Type} {a : Act σ α} {f : α → Act σ β}
    (ha : Act.Keeps stage.Quiet a) (hf : ∀ y, Act.Keeps stage.Reminds (f y)) :
    Act.Keeps stage.Reminds (a >>= f) := by
  intro x
  have hquiet := ha x
  rw [Act.after] at hquiet
  rw [Act.after_bind]
  cases hax : a x with
  | ok y x' =>
      rw [hax] at hquiet
      exact hquiet.trans_reminds (hf y x')
  | error f x' =>
      rw [hax] at hquiet
      exact hquiet.reminds

/-- A step that adds nothing is quiet. -/
theorem Stage.quiet_of_adds (h : stage.Occurs x → stage.Adds [] [] x x') : stage.Quiet x x' :=
  fun hx => ⟨[], h hx, by simp⟩

section Plays

variable {o : Session.Occasion} {c : Collaborators σ} (h : Plays stage o c)
variable (hon : Telemetry.enabled o.environment = true) {path : String}

include h hon

/-! ### Recording -/

/-- An event of the program adds its record. -/
theorem record_adds {e : Event} (he : Records (o.surroundings settings) e)
    (hx : stage.Occurs x) :
    ∃ r x', Record.of o.clock e = .ok r ∧ c.record e x = .ok () x' ∧ stage.Adds [r] [] x x' := by
  obtain ⟨r, u, hr, hrecord, happends, -⟩ :=
    record_appends (s := o.surroundings settings) he.sound hon (stage.canWrite hx)
  obtain ⟨x', hplayed, hworld, hoccurs⟩ := h.record e x _ hx hrecord
  refine ⟨r, x', hr, hplayed, hoccurs, ?_, ?_⟩
  · rw [hworld]
    exact happends
  · rw [hworld, List.append_nil]

/-- Recording an event of a command is quiet. -/
theorem record_quiet {name : String} {more : List (Text × Json)}
    (he : Records (o.surroundings settings) (commandEvent name path more))
    (hname : Text.ofString name ≠ Record.checkName) :
    Act.Keeps stage.Quiet (c.record (commandEvent name path more)) := by
  intro x hx
  obtain ⟨r, x', hr, hrecord, hadds⟩ := record_adds h hon he hx
  rw [Act.after, hrecord]
  refine ⟨[r], hadds, fun r' hr' => ?_⟩
  obtain rfl := List.mem_singleton.mp hr'
  have hevent : Text.ofString name = r'.event := Json.string.inj (Record.event_of hr)
  rwa [← hevent]

/-! ### What comes before a command -/

/-- Making the home directory is quiet: at most its failure is recorded. -/
theorem makeHome_quiet : Act.Keeps stage.Quiet (makeHome c settings path) := by
  rw [makeHome]
  refine .tryCatch stage.quiet_trans (fun x => Stage.quiet_of_adds (h.createDirectory _ x)) ?_
  intro f
  split
  · rename_i fault
    have he := Records.directoryFailed (s := o.surroundings settings) path fault
    exact .bind stage.quiet_trans (record_quiet h hon he (by decide)) fun _ =>
      .throw stage.quiet_refl _
  · exact .throw stage.quiet_refl _

omit hon in
/-- Asking for the commons adds nothing. -/
theorem isInitialized_quiet : Act.Keeps stage.Quiet (isInitialized c settings) :=
  fun x => Stage.quiet_of_adds (h.directoryExists _ x)

/-- **What comes before a command is quiet.** -/
theorem preRun_quiet : Act.Keeps stage.Quiet (preRun c settings path) := by
  have he := Records.blocked (s := o.surroundings settings) path
  rw [preRun]
  refine .bind stage.quiet_trans (makeHome_quiet h hon) fun _ => ?_
  split
  · exact .pure stage.quiet_refl _
  · refine .bind stage.quiet_trans (isInitialized_quiet h) fun initialized => ?_
    split
    · exact .pure stage.quiet_refl _
    · exact .bind stage.quiet_trans (record_quiet h hon he (by decide)) fun _ =>
        .pure stage.quiet_refl _

/-! ### What comes after a command -/

/-- Finding the state of the tutorial is quiet: at most its failure is recorded. -/
theorem findTutorial_quiet : Act.Keeps stage.Quiet (findTutorial c path) := by
  rw [findTutorial]
  refine .tryCatch stage.quiet_trans (fun x => Stage.quiet_of_adds (h.findTutorial x)) fun f => ?_
  split
  · rename_i fault
    have he := Records.tutorialFailed (s := o.surroundings settings) path fault
    exact .bind stage.quiet_trans (record_quiet h hon he (by decide)) fun _ =>
      .throw stage.quiet_refl _
  · exact .throw stage.quiet_refl _

/-- What comes after the look for a version: the banner, if the installation is not
initialized. -/
def remindOf (c : Collaborators σ) (settings : Settings) (path : String) : Act σ Unit := do
  if !(← isInitialized c settings) then
    let tutorial ← findTutorial c path
    c.print tutorial.banner

omit h hon in
/-- What comes after a command is the look for a version, and what comes after that. -/
theorem postRun_eq_remindOf :
    postRun c settings path = (do
      verifyNewVersion c settings path
      remindOf c settings path) :=
  rfl

omit hon in
/-- Printing adds the text. -/
theorem print_adds (t : Text) (hx : stage.Occurs x) :
    ∃ x', c.print t x = .ok () x' ∧ stage.Adds [] t x x' := by
  obtain ⟨x', hprint, hworld, hoccurs⟩ := h.print t x hx
  refine ⟨x', hprint, hoccurs, ?_, ?_⟩
  · rw [hworld]
    exact .of_eq rfl
  · rw [hworld]
    rfl

/-- **What comes after the look for a version** adds no more than a banner. -/
theorem remindOf_reminds : Act.Keeps stage.Reminds (remindOf c settings path) := by
  rw [remindOf]
  refine Stage.reminds_bind (isInitialized_quiet h) fun initialized => ?_
  split
  · refine Stage.reminds_bind (findTutorial_quiet h hon) fun tutorial x hx => ?_
    obtain ⟨x', hprint, hadds⟩ := print_adds h tutorial.banner hx
    rw [Act.after, hprint]
    exact ⟨[], tutorial.banner, hadds, by simp, .inr ⟨tutorial, rfl⟩⟩
  · exact fun x => (stage.quiet_refl x).reminds

/-! ### The look for a version -/

omit h hon in
/-- Versions are looked for after the bare command only. -/
theorem isListed_versionPaths :
    Gate.isListed Gate.versionPaths path = true ↔ path = Gate.programName := by
  simp [Gate.isListed, Gate.versionPaths]

omit h hon in
/-- After any other command than the bare one, no version is looked for. -/
theorem verifyNewVersion_of_ne (hp : path ≠ Gate.programName) :
    verifyNewVersion c settings path = pure () := by
  rw [verifyNewVersion, if_neg (mt isListed_versionPaths.mp hp)]

/-- What is done about news: the look for them is recorded, and a newer version is told of. -/
def announce (c : Collaborators σ) (s : Surroundings) (latest : Option String) : Act σ Unit := do
  c.record (versionEvent s latest)
  match latest with
  | none => pure ()
  | some version => c.print (newsText s.settings c.interpreter (some version))

omit h hon in
/-- After the bare command, the version is looked for, and what comes of it is announced. -/
theorem verifyNewVersion_of_eq (hp : path = Gate.programName) :
    verifyNewVersion c settings path = (do
      let latest ← Release.news? c.publishedVersion settings.version
      announce c (o.surroundings settings) latest) := by
  rw [verifyNewVersion, if_pos (isListed_versionPaths.mpr hp)]
  refine bind_congr fun latest => bind_congr fun _ => ?_
  cases latest <;> rfl

omit hon in
/-- News are looked for quietly, and there are news or none. -/
theorem exists_news (hx : stage.Occurs x) :
    ∃ latest x', Release.news? c.publishedVersion settings.version x = .ok latest x' ∧
      stage.Adds [] [] x x' ∧
      (latest = some "" ↔
        settings.version ≠ "" ∧ ∃ x', c.publishedVersion x = .ok "" x') := by
  have hquiet := h.publishedVersion x hx
  rw [news?_eq, Act.tryCatch_apply, Act.bind_apply]
  rw [Act.after] at hquiet
  cases hv : c.publishedVersion x with
  | ok version x' =>
      rw [hv] at hquiet
      refine ⟨_, x', rfl, hquiet, ?_⟩
      by_cases hsame : version = settings.version
      · rw [if_pos hsame, hsame]
        simp
      · rw [if_neg hsame]
        constructor
        · intro hempty
          obtain rfl := Option.some.inj hempty
          exact ⟨Ne.symm hsame, x', rfl⟩
        · rintro ⟨-, x'', hx''⟩
          cases hx''
          rfl
  | error f x' =>
      obtain ⟨fault, rfl⟩ := h.resolves x f x' hx hv
      rw [hv] at hquiet
      exact ⟨none, x', rfl, hquiet, by simp⟩

/-- The status with which a look for a version is recorded. -/
def statusOf (latest : Option String) : String :=
  if latest.any (· ≠ "") then "outdated" else "current"

omit h hon in
/-- The record of a look for a version. -/
theorem isCheck_of_versionEvent {time : Binary64} {latest : Option String} {r : Record}
    (hr : Record.of time (versionEvent (o.surroundings settings) latest) = .ok r) :
    r.IsCheck (statusOf latest) := by
  have hstatus : Record.statusOf
      (versionEvent (o.surroundings settings) latest).status =
        .ok (some (Text.ofString (statusOf latest))) := by
    rw [versionEvent, statusOf]
    split <;> rfl
  have hname : Record.checkName.isBlank = false := by decide
  obtain rfl := Except.ok.inj ((Record.of_eq (l := .info) hname hstatus).symm.trans hr)
  exact ⟨rfl, rfl⟩

/-- **What a look for a version adds**: its record, and the notice of a newer version. -/
theorem verifyNewVersion_adds (hp : path = Gate.programName) (hx : stage.Occurs x) :
    ∃ latest r x', verifyNewVersion c settings path x = .ok () x' ∧
      stage.Adds [r] (newsText settings c.interpreter latest) x x' ∧
      Record.of o.clock (versionEvent (o.surroundings settings) latest) = .ok r ∧
      (latest = some "" ↔
        settings.version ≠ "" ∧ ∃ x', c.publishedVersion x = .ok "" x') := by
  obtain ⟨latest, x₁, hnews, hquiet, hempty⟩ := exists_news h hx
  obtain ⟨r, x₂, hr, hrecord, hadds⟩ :=
    record_adds h hon (e := versionEvent (o.surroundings settings) latest)
      (.versionChecked latest) hquiet.occurs
  rw [verifyNewVersion_of_eq hp, Act.bind_apply, hnews]
  dsimp only
  rw [announce.eq_def, Act.bind_apply, hrecord]
  cases latest with
  | none => exact ⟨none, r, x₂, rfl, hquiet.trans hadds, hr, hempty⟩
  | some version =>
      obtain ⟨x₃, hprint, hprinted⟩ := print_adds h
        (newsText settings c.interpreter (some version)) hadds.occurs
      exact ⟨some version, r, x₃, hprint, (hquiet.trans hadds).trans hprinted, hr, hempty⟩

end Plays

end Lifecycle

end CommandGate
