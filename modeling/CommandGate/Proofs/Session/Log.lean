import CommandGate.Proofs.Json.Exact
import CommandGate.Proofs.Program.Frame
import CommandGate.Proofs.Session.Invocations
import CommandGate.Proofs.Telemetry.Log

/-!
# The Log over Whole Sessions

Whatever the steps of a session are and whatever they come to, the log only grows, by whole
lines, and each line that is added is the document of a record. So a log that is well formed
in the beginning is well formed all along.

The log is the file at the place that its path leads to by its spelling, each `..` being a
step back. A path with a `..` can lead nowhere in the beginning and to a file after folders
have been made (`Session.not_wellFormed_of_step_back`), so a log that is not found need not
be absent.

## Main results

* `Session.perform_extends`: what one step does to the log.
* `Session.log_grows_wellFormed`: the log along a session.
-/

namespace CommandGate

open FileTree Telemetry Program

namespace Program

variable {s : Surroundings} {e : Event}

/-- The particulars of the program's events are readable if the exit code of a launched
program is. -/
theorem Records.isReadable_payload (h : Records s e)
    (hcode : ∀ code, s.launch = .ended code → Json.IsShort code) : e.payload.IsReadable := by
  have mode (m : UpgradeMode) : m.toJson.IsReadable := by
    cases m <;>
      simp [UpgradeMode.toJson, UpgradeMode.name?, Json.IsReadable, Json.Holds, Json.ItemsHold]
  cases h with
  | versionChecked latest =>
      cases latest <;> simp [Json.IsReadable, Json.Holds, Json.MembersHold, Json.MemberHolds]
  | upgradeShown m =>
      exact ⟨⟨trivial, mode m⟩, trivial⟩
  | upgradeEnded m code hended =>
      exact ⟨⟨trivial, mode m⟩, ⟨trivial, hcode code hended⟩, trivial⟩
  | upgradeNotStarted m errno reason name =>
      exact ⟨⟨trivial, mode m⟩, ⟨trivial, trivial⟩, trivial⟩
  | _ => simp [Json.IsReadable, Json.Holds, Json.MembersHold, Json.MemberHolds,
      Lifecycle.commandEvent, event]

end Program

namespace Session

/-- An occasion on which launched programs end with an exit code that can be read back. -/
def Occasion.HasShortCode (o : Occasion) : Prop :=
  ∀ code, o.launch = .ended code → Json.IsShort code

variable {settings : Settings} {t : FileTree} {o : Occasion} {step : Step}

/-- The particulars of an event whose arguments are given as a text are readable. -/
theorem isReadable_payload_eventOf (arguments : Text) :
    (eventOf arguments).payload.IsReadable := by
  rw [eventOf]
  split
  · rename_i members hparse
    have hmembers : Json.AreReadable members := Json.isReadable_of_parse hparse
    dsimp only
    cases hm : Json.member? "payload" members with
    | none => trivial
    | some v => exact hmembers.member? hm
  · trivial

/-- The world that a step leaves. -/
theorem perform_world :
    (perform settings t o step).world =
      (step.act (o.surroundings settings)).after { tree := t } := by
  rw [perform, Act.after]
  cases step.act (o.surroundings settings) { tree := t } <;> rfl

/-! ### One step -/

section Step

variable {s : Surroundings}

/-- Recording an event with readable particulars extends the log. -/
theorem record_keeps {e : Event} (he : e.payload.IsReadable) :
    Act.Keeps (fun w w' => Extends s.settings.logFile w.tree w'.tree) (Telemetry.record s e) := by
  intro w
  rcases after_record s e w with hw | ⟨r, -, hr, hw⟩
  · rw [hw]
    exact .refl _
  · rw [hw]
    exact appendLine_extends (Record.proper_of hr he) _ _

/-- Making folders leaves the log as it is. -/
theorem makeFolders_extends (log p : Path) (t : FileTree) :
    Extends log t (t.makeFolders p).1 :=
  .of_eq ((makeFolders_addsFolders t p).bytesAt_eq _)

/-- Setting the tutorial state leaves the log as it is. -/
theorem set_extends (settings : Settings) (state : String) (t : FileTree) :
    Extends settings.logFile t (Tutorial.set settings.tutorialFile state t).1 :=
  .of_eq ((Tutorial.set_rewrites _ state t).bytesAt_of_ne settings.logFile_place_ne)

/-- An invocation extends the log. -/
theorem run_extends (hcode : ∀ code, s.launch = .ended code → Json.IsShort code)
    (args : List String) :
    Act.Keeps (fun w w' => Extends s.settings.logFile w.tree w'.tree) (run s args) :=
  run_keeps .refl (fun _ _ _ => .trans) args (makeFolders_extends _ _)
    (fun _ => makeFolders_extends _ _) (fun state _ => set_extends _ state)
    fun _ _ _ he hr t =>
      appendLine_extends (Record.proper_of hr (he.isReadable_payload hcode)) _ t

/-- **A step extends the log**, whatever it comes to. -/
theorem Step.act_keeps (hcode : ∀ code, s.launch = .ended code → Json.IsShort code)
    (step : Step) :
    Act.Keeps (fun w w' => Extends s.settings.logFile w.tree w'.tree) (step.act s) := by
  have refl (w : World) : Extends s.settings.logFile w.tree w.tree := .refl _
  have next {α : Type} {a : Act World α} {f : α → Outcome}
      (ha : Act.Keeps (fun w w' => Extends s.settings.logFile w.tree w'.tree) a) :
      Act.Keeps (fun w w' => Extends s.settings.logFile w.tree w'.tree)
        (a >>= fun x => pure (f x)) :=
    .bind (fun _ _ _ => .trans) ha fun x => .pure refl (f x)
  cases step with
  | invoke args => exact next (run_extends hcode args)
  | record arguments => exact next (record_keeps (isReadable_payload_eventOf arguments))
  | findTutorial =>
      refine next fun w => ?_
      rw [World.after_look]
      exact refl w
  | setTutorial state =>
      refine next fun w => ?_
      rw [World.after_change]
      exact set_extends s.settings state w.tree
  | create p =>
      refine next fun w => ?_
      rw [Directory.after_create]
      exact makeFolders_extends _ p w.tree
  | present p =>
      refine next fun w => ?_
      rw [Directory.present, World.after_look]
      exact refl w

end Step

/-- **A step of a session extends the log.** -/
theorem perform_extends (ho : o.HasShortCode) :
    Extends settings.logFile t (perform settings t o step).world.tree := by
  rw [perform_world]
  exact Step.act_keeps (s := o.surroundings settings) ho step { tree := t }

/-! ### Whole sessions -/

/-- The steps of a session extend the log. -/
theorem treeAfter_extends {steps : List (Occasion × Step)}
    (hcodes : ∀ taken ∈ steps, taken.1.HasShortCode) :
    Extends settings.logFile t (treeAfter settings t steps) := by
  induction steps generalizing t with
  | nil => exact .refl t
  | cons first rest ih =>
      obtain ⟨hfirst, hrest⟩ := List.forall_mem_cons.mp hcodes
      exact (perform_extends hfirst).trans (ih hrest)

/-- One step more is performed in the tree that those before it leave. -/
theorem treeAfter_concat (settings : Settings) (t : FileTree) (steps : List (Occasion × Step))
    (o : Occasion) (step : Step) :
    treeAfter settings t (steps ++ [(o, step)]) =
      (perform settings (treeAfter settings t steps) o step).world.tree := by
  simp [treeAfter]

/-- What is in the log after steps: the bytes of the file at its place. -/
def logAfter (settings : Settings) (t : FileTree) (steps : List (Occasion × Step)) : Bytes :=
  (treeAfter settings t steps).bytesAt settings.logFile.place

/-- **The log over whole sessions.** In a session that starts with a log that is well formed,
each step leaves in the log what was there, with lines added at the end if at all, and leaves
it well formed, whatever the step is and whether or not it fails. -/
theorem log_grows_wellFormed (hw : WellFormed (t.bytesAt settings.logFile.place))
    (steps : List (Occasion × Step)) (o : Occasion) (step : Step)
    (hcodes : ∀ taken ∈ steps ++ [(o, step)], taken.1.HasShortCode) :
    logAfter settings t steps <+: logAfter settings t (steps ++ [(o, step)]) ∧
      WellFormed (logAfter settings t (steps ++ [(o, step)])) := by
  have hlast : o.HasShortCode := hcodes (o, step) (by simp)
  refine ⟨?_, (treeAfter_extends hcodes).wellFormed hw⟩
  rw [logAfter, logAfter, treeAfter_concat]
  exact (perform_extends hlast).bytes

/-- On a quiet occasion no exit code is too long. -/
theorem hasShortCode_quiet : quiet.HasShortCode := by
  rintro code ⟨⟩
  rw [Json.IsShort]
  decide

/-- The log where an event is recorded and then the tutorial is asked for too early. -/
theorem log_grows_wellFormed_home :
    WellFormed (bytesAt [] (settingsAt ⟨.relative, ["home"]⟩).logFile.place) ∧
      quiet.HasShortCode ∧
      logAfter (settingsAt ⟨.relative, ["home"]⟩) []
          [(quiet, .record (Text.ofString "\x7b\"event\": \"e\"\x7d"))] <+:
        logAfter (settingsAt ⟨.relative, ["home"]⟩) []
          [(quiet, .record (Text.ofString "\x7b\"event\": \"e\"\x7d")),
            (quiet, .invoke ["tutorial"])] ∧
      WellFormed (logAfter (settingsAt ⟨.relative, ["home"]⟩) []
          [(quiet, .record (Text.ofString "\x7b\"event\": \"e\"\x7d")),
            (quiet, .invoke ["tutorial"])]) := by
  have hw : WellFormed (bytesAt [] (settingsAt ⟨.relative, ["home"]⟩).logFile.place) :=
    wellFormed_nil
  exact ⟨hw, hasShortCode_quiet, log_grows_wellFormed hw
    [(quiet, .record (Text.ofString "\x7b\"event\": \"e\"\x7d"))] quiet (.invoke ["tutorial"])
    (by simp [hasShortCode_quiet])⟩

/-! ### A log that is not found -/

/-- No document begins with the letter `g`. -/
theorem readDocument_g (rest : Text) :
    Json.readDocument (.scalar 'g' :: rest) = .error (.form .value (.scalar 'g' :: rest)) :=
  rfl

/-- A file that begins with the letter `g` is no well-formed log. -/
theorem not_wellFormed_g (more : Bytes) : ¬ WellFormed (0x67 :: more) := by
  rintro ⟨lines, hlines, hall⟩
  have hdecode : (Utf8.decodeFrom 1 none more).map (.scalar 'g' :: ·) =
      .ok (lines.flatMap fun line => line ++ "\n") := hlines
  obtain ⟨rest, -, hrest⟩ := Except.map_eq_ok_iff.mp hdecode
  cases lines with
  | nil => simp at hrest
  | cons line others =>
      obtain ⟨-, members, hparse, -⟩ := hall line (by simp)
      cases line with
      | nil => simp [Text.ofString] at hrest
      | cons c cs =>
          obtain rfl : CodePoint.scalar 'g' = c := by simpa using (List.cons.inj hrest).1
          rw [Json.parse, readDocument_g] at hparse
          simp at hparse

/-- Settings with a log whose path goes through a folder and back. -/
def roundabout : Settings :=
  { settingsAt ⟨.relative, ["home"]⟩ with logDir := ⟨.relative, ["a", "..", "b"]⟩ }

/-- A tree with another file in the place of that log, and without the folder. -/
def strayed : FileTree :=
  [("b", .folder [("telemetry.jsonl", .file ("garbage".toList.flatMap Utf8.encodeChar))])]

/-- A name alone makes an event, with nothing else given. -/
theorem eventOf_named :
    eventOf (Text.ofString "\x7b\"event\": \"e\"\x7d") =
      { name := .string (Text.ofString "e") } := by
  let v : Json := .object [(Text.ofString "event", .string (Text.ofString "e"))]
  have hname : (Json.string (Text.ofString "e")).Exact := .string (Text.isScalar_ofString "e")
  have hv : v.Exact := .object (by simp) (by simp) (by simpa using hname)
  have hwrite : Json.write .line v = Text.ofString "\x7b\"event\": \"e\"\x7d" := rfl
  have hparse : Json.parse (Json.write .line v) = .ok v := hv.parse_write
  rw [hwrite] at hparse
  rw [eventOf]
  rw [hparse]
  rfl

set_option maxRecDepth 4000 in
/-- Where the path of the log goes through a folder that is not there, the log is not found.
Recording an event makes the folder, and then another file is found, which is no well-formed
log. -/
theorem not_wellFormed_of_step_back :
    strayed.present roundabout.logFile = .ok false ∧
      ∃ content,
        (perform roundabout strayed quiet
          (.record (Text.ofString "\x7b\"event\": \"e\"\x7d"))).world.tree.read
            roundabout.logFile = .ok content ∧
        ¬ WellFormed content := by
  refine ⟨rfl, ?_⟩
  obtain ⟨content, hread⟩ : ∃ content,
      (perform roundabout strayed quiet
        (.record (Text.ofString "\x7b\"event\": \"e\"\x7d"))).world.tree.read
          roundabout.logFile = .ok content := by
    rw [perform_world, Step.act, eventOf_named]
    exact ⟨_, rfl⟩
  refine ⟨content, hread, ?_⟩
  -- what is read begins with what was in the place of the log before
  have hgrown : Extends roundabout.logFile strayed
      (perform roundabout strayed quiet
        (.record (Text.ofString "\x7b\"event\": \"e\"\x7d"))).world.tree :=
    perform_extends hasShortCode_quiet
  obtain ⟨more, hmore⟩ := hgrown.bytes
  rw [← bytesAt_of_read hread, ← hmore]
  exact not_wellFormed_g _

end Session

end CommandGate
