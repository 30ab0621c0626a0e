import CommandGate.Proofs.Program.Course

/-!
# The Reminder after a Command

What follows a body is the look for a version and, after that, the reminder: while the
installation is not initialized, the tutorial state is asked for and its banner shown. Only
the look for a version depends on the network, and only the reminder on the tutorial file.

These statements hold in every tree and for all settings. What the reminder comes to is plainer
where events can be recorded (`Program.remind_apply`).

## Main results

* `Program.leave_of_checks`: once the version is looked for, the reminder is left.
* `Program.remind_eq_match`, `Program.remind_apply`: what the reminder comes to.
-/

namespace CommandGate

open FileTree

namespace Program

section Reminder

variable (s : Surroundings) (path : String)

/-- The reminder: the banner, if the installation is not initialized. -/
def showBanner : Act World Unit := do
  let found ← Directory.present s.settings.commonsDir
  if found then pure ()
  else do
    let tutorial ← tryCatch (World.look (Tutorial.find s.settings.tutorialFile))
      (noteTutorial s path)
    World.print (streamAfter path) tutorial.banner

/-- What follows a body that ended with an exit code, after the look for a version. -/
def remind (code : Int) : Act World Int :=
  tryCatch (do
    showBanner s path
    pure code)
    reportTutorial

end Reminder

variable {s : Surroundings} {path : String} {code : Int} {w w' : World} {r : Result Unit}

/-- What follows a body, in a plain form. -/
theorem leave_eq_showBanner (s : Surroundings) (path : String) (code : Int) :
    leave s path code =
      tryCatch (do
        Lifecycle.verifyNewVersion
          (finding s (World.look (Tutorial.find s.settings.tutorialFile)) (streamAfter path))
          s.settings path
        showBanner s path
        pure code)
        reportTutorial := by
  have hleave : leave s path code =
      depart s path (World.look (Tutorial.find s.settings.tutorialFile)) code :=
    leave_eq s path code
  rw [hleave, depart, postRun_eq, bind_assoc]
  rfl

/-- **Once the version is looked for, the reminder is left.** -/
theorem leave_of_checks (h : Checks s path w (.ok () w')) :
    leave s path code w = remind s path code w' := by
  rw [leave_eq_showBanner, Act.tryCatch_apply, Act.bind_apply, h.apply]
  dsimp only
  rw [remind, Act.tryCatch_apply]

/-- **What the reminder comes to**, whether or not events can be recorded. -/
theorem remind_eq_match :
    remind s path code w =
      match w.tree.present s.settings.commonsDir with
      | .error f => .error (.file f) w
      | .ok true => .ok code w
      | .ok false =>
        match Tutorial.find s.settings.tutorialFile w.tree with
        | .ok tutorial =>
          .ok code ((World.print (streamAfter path) tutorial.banner).after w)
        | .error (.tutorial fault) =>
          match Telemetry.record s (Lifecycle.commandEvent "tutorial.failed" path
              [("error", .string fault.message)]) w with
          | .ok () w' => .ok 1 (w'.complaining fault.message)
          | .error f w' => reportTutorial f w'
        | .error f => .error f w := by
  rw [remind, Act.tryCatch_apply, Act.bind_apply, showBanner, Act.bind_apply,
    Directory.present_apply]
  cases w.tree.present s.settings.commonsDir with
  | error f => rfl
  | ok found =>
      cases found with
      | true => rfl
      | false =>
          dsimp only
          rw [if_neg (by simp), Act.bind_apply, Act.tryCatch_apply, World.look_apply]
          cases Tutorial.find s.settings.tutorialFile w.tree with
          | ok tutorial => cases streamAfter path <;> rfl
          | error f =>
              cases f with
              | tutorial fault =>
                  dsimp only [noteTutorial]
                  rw [Act.bind_apply]
                  generalize Telemetry.record s _ w = recorded
                  cases recorded <;> rfl
              | _ => rfl

/-- The world once a tutorial state that cannot be found out is recorded and reported. -/
def reminderFailed (s : Surroundings) (path : String) (fault : TutorialFault) (w : World) :
    World :=
  ((Telemetry.record s (Lifecycle.commandEvent "tutorial.failed" path
    [("error", .string fault.message)])).after w).complaining fault.message

/-- Where events can be recorded, the reminder leaves an initialized installation as it is, and
otherwise shows the banner, or ends with 1 where the tutorial state cannot be found out. -/
theorem remind_apply (hr : s.Recordable) :
    remind s path code w =
      match w.tree.present s.settings.commonsDir with
      | .error f => .error (.file f) w
      | .ok true => .ok code w
      | .ok false =>
        match Tutorial.find s.settings.tutorialFile w.tree with
        | .ok tutorial =>
          .ok code ((World.print (streamAfter path) tutorial.banner).after w)
        | .error (.tutorial fault) => .ok 1 (reminderFailed s path fault w)
        | .error f => .error f w := by
  rw [remind_eq_match]
  cases w.tree.present s.settings.commonsDir with
  | error f => rfl
  | ok found =>
      cases found with
      | true => rfl
      | false =>
          cases Tutorial.find s.settings.tutorialFile w.tree with
          | ok tutorial => rfl
          | error f =>
              cases f with
              | tutorial fault =>
                  obtain ⟨u, hrecord⟩ := record_of_recordable hr (.tutorialFailed path fault) w
                  dsimp only
                  rw [reminderFailed, Act.after, hrecord]
              | _ => rfl

/-- In an initialized installation there is nothing to remind of. -/
theorem remind_of_initialized (hr : s.Recordable) (hi : Initialized s.settings w.tree) :
    remind s path code w = .ok code w := by
  rw [remind_apply hr, hi]

/-- A fault of another kind in finding the tutorial state is passed on. -/
theorem remind_of_error (hr : s.Recordable)
    (hp : w.tree.present s.settings.commonsDir = .ok false) {f : Fault}
    (hfind : Tutorial.find s.settings.tutorialFile w.tree = .error f)
    (hf : ∀ fault, f ≠ .tutorial fault) : remind s path code w = .error f w := by
  rw [remind_apply hr, hp, hfind]
  cases f with
  | tutorial fault => exact absurd rfl (hf fault)
  | _ => rfl

/-! ### What the reminder leaves -/

/-- Recording prints nothing, and what is in the log stays at its beginning. -/
theorem record_after (e : Telemetry.Event) :
    ((Telemetry.record s e).after w).stdout = w.stdout ∧
      w.tree.bytesAt s.settings.logFile.place <+:
        ((Telemetry.record s e).after w).tree.bytesAt s.settings.logFile.place := by
  rcases Telemetry.after_record s e w with hafter | ⟨record, -, -, hafter⟩
  · rw [hafter]
    exact ⟨rfl, List.prefix_rfl⟩
  · rw [hafter]
    refine ⟨rfl, ?_⟩
    dsimp only
    rcases (Telemetry.appendLine_rewrites s.settings.logFile record.line w.tree).bytesAt_place with
      hsame | ⟨more, -, hmore⟩
    · exact ⟨[], (List.append_nil _).trans hsame.symm⟩
    · rw [hmore]
      exact List.prefix_append _ _

/-- **What the reminder leaves.** It prints a banner to the output, or nothing, and what is in
the log stays at its beginning. -/
theorem remind_after (hr : s.Recordable) :
    (∃ rest : Text, (rest = [] ∨ ∃ tutorial : Tutorial, rest = tutorial.banner) ∧
      ((remind s path code).after w).stdout = w.stdout ++ rest) ∧
    w.tree.bytesAt s.settings.logFile.place <+:
      ((remind s path code).after w).tree.bytesAt s.settings.logFile.place := by
  let Left (u : World) : Prop :=
    (∃ rest : Text, (rest = [] ∨ ∃ tutorial : Tutorial, rest = tutorial.banner) ∧
      u.stdout = w.stdout ++ rest) ∧
    w.tree.bytesAt s.settings.logFile.place <+: u.tree.bytesAt s.settings.logFile.place
  have silent {u : World} (hu : u.stdout = w.stdout)
      (hlog : w.tree.bytesAt s.settings.logFile.place <+:
        u.tree.bytesAt s.settings.logFile.place) : Left u :=
    ⟨⟨[], .inl rfl, by rw [hu, List.append_nil]⟩, hlog⟩
  change Left _
  rw [Act.after, remind_apply hr]
  cases w.tree.present s.settings.commonsDir with
  | error f => exact silent rfl List.prefix_rfl
  | ok found =>
      cases found with
      | true => exact silent rfl List.prefix_rfl
      | false =>
          cases Tutorial.find s.settings.tutorialFile w.tree with
          | ok tutorial =>
              cases streamAfter path with
              | stdout => exact ⟨⟨_, .inr ⟨tutorial, rfl⟩, rfl⟩, List.prefix_rfl⟩
              | stderr => exact silent rfl List.prefix_rfl
          | error f =>
              cases f with
              | tutorial fault => exact silent (record_after _).1 (record_after _).2
              | _ => exact silent rfl List.prefix_rfl

end Program

end CommandGate
