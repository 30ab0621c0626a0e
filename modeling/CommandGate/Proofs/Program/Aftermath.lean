import CommandGate.Proofs.Program.Endings

/-!
# After the Body of a Command

What follows a body asks for the tutorial state in one tree at most (`Program.remindedIn?`): the
one that the body and the look for a version leave, if the body ends with an exit code, the look
is no failure, and the commons directory is found to be absent. A tutorial state that cannot be
found out there is recorded, and where that is a fault, the invocation ends with it.

## Main results

* `Program.remind_tree`: when the reminder changes the tree.
* `Program.remindedIn?_of_checks`: the tree in which the tutorial state is asked for.
-/

namespace CommandGate

open FileTree

namespace Program

variable {s : Surroundings} {path : String} {command : Act World Int} {code : Int}
variable {w w₁ w₂ : World} {t : FileTree}

/-! ### The commons directory and the log -/

/-- Below a home directory that stands, a commons directory whose path fits can be looked for. -/
theorem exists_present (h : Stands t s.settings.homeDir) (hf : s.settings.commonsDir.Fits) :
    ∃ found, t.present s.settings.commonsDir = .ok found :=
  ⟨_, present_of_stands h hf⟩

/-- Where the home directory can be made, a commons directory whose path is too long can be
looked for in no tree. -/
theorem present_of_long_of_made (hhome : w.tree.makeFolders s.settings.homeDir = (t, .ok ()))
    (hlong : ¬ s.settings.commonsDir.Fits) (u : FileTree) :
    u.present s.settings.commonsDir = .error (.refused .nameTooLong s.settings.commonsDir) :=
  present_commonsDir_of_not_fits (fits_of_makeFolders_eq_ok (by rw [hhome])).1 hlong u

/-- Where events cannot be recorded, recording one is a fault. -/
theorem record_of_not_recordable (hr : ¬ s.Recordable) {e : Telemetry.Event} (he : Records s e)
    (w : World) : Telemetry.record s e w = .error (.file .embeddedNul) w := by
  rw [Surroundings.Recordable, Classical.not_imp, Bool.not_eq_false] at hr
  exact record_of_hasNul hr.1 hr.2 he.sound w

/-! ### The reminder -/

/-- The reminder changes the tree only to record a tutorial state that cannot be found out. -/
theorem remind_tree (s : Surroundings) (path : String) (code : Int) (w : World) :
    ((remind s path code).after w).tree =
      match w.tree.present s.settings.commonsDir with
      | .ok false =>
        match Tutorial.find s.settings.tutorialFile w.tree with
        | .error (.tutorial fault) =>
          ((Telemetry.record s (Lifecycle.commandEvent "tutorial.failed" path
            [("error", .string fault.message)])).after w).tree
        | _ => w.tree
      | _ => w.tree := by
  rw [Act.after, remind_eq_match]
  cases w.tree.present s.settings.commonsDir with
  | error f => rfl
  | ok found =>
      cases found with
      | true => rfl
      | false =>
          cases Tutorial.find s.settings.tutorialFile w.tree with
          | ok tutorial => cases streamAfter path <;> rfl
          | error f =>
              cases f with
              | tutorial fault =>
                  dsimp only [Act.after]
                  cases Telemetry.record s (Lifecycle.commandEvent "tutorial.failed" path
                      [("error", .string fault.message)]) w with
                  | ok u w' => rfl
                  | error f w' => cases f <;> rfl
              | _ => rfl

/-- Where events cannot be recorded, a tutorial state that cannot be found out is a fault. -/
theorem remind_of_not_recordable (hr : ¬ s.Recordable)
    (hp : w.tree.present s.settings.commonsDir = .ok false) {fault : TutorialFault}
    (hfind : Tutorial.find s.settings.tutorialFile w.tree = .error (.tutorial fault)) :
    remind s path code w = .error (.file .embeddedNul) w := by
  have hrecord := record_of_not_recordable hr (.tutorialFailed path fault) w
  rw [remind_eq_match, hp, hfind]
  simp only [hrecord]
  rfl

/-- The look for a version comes to what is said of it with the collaborators of the program. -/
theorem Checks.apply_collaborators {r : Result Unit} (h : Checks s path w r) :
    Lifecycle.verifyNewVersion (collaborators s (streamAfter path)) s.settings path w = r := by
  let find := World.look (Tutorial.find s.settings.tutorialFile)
  have happly : Lifecycle.verifyNewVersion (finding s find (streamAfter path)) s.settings path w =
      r := h.apply
  exact happly

/-- A look for a version that fails is passed on, and nothing is reminded of. -/
theorem leave_of_foreign {f : Fault} (hcheck : Checks s path w (.error f w₁)) :
    leave s path code w = .error f w₁ := by
  rw [leave_eq_showBanner, Act.tryCatch_apply, Act.bind_apply, hcheck.apply]
  cases hcheck with
  | foreign h hnetwork => rfl

/-! ### Where the tutorial state is asked for -/

/-- **The tree in which the tutorial state is asked for** after the body of a command, if it is
asked for at all. -/
def remindedIn? (s : Surroundings) (path : String) (command : Act World Int) (w : World) :
    Option FileTree :=
  let checked : Act World Unit := do
    let _ ← command
    Lifecycle.verifyNewVersion (collaborators s (streamAfter path)) s.settings path
  match checked w with
  | .error _ _ => none
  | .ok () w' =>
    match w'.tree.present s.settings.commonsDir with
    | .ok false => some w'.tree
    | _ => none

/-- It is not asked for after a body that fails. -/
theorem remindedIn?_of_error {f : Fault} (h : command w = .error f w₁) :
    remindedIn? s path command w = none := by
  simp only [remindedIn?, Act.bind_apply, h]

/-- Nor where the look for a version fails. -/
theorem remindedIn?_of_foreign (h : command w = .ok code w₁) {f : Fault}
    (hcheck : Checks s path w₁ (.error f w₂)) : remindedIn? s path command w = none := by
  simp only [remindedIn?, Act.bind_apply, h, hcheck.apply_collaborators]

/-- Nor where the path of the commons directory is too long. -/
theorem remindedIn?_of_long (hhome : w.tree.makeFolders s.settings.homeDir = (t, .ok ()))
    (hlong : ¬ s.settings.commonsDir.Fits) (w' : World) :
    remindedIn? s path command w' = none := by
  simp only [remindedIn?, present_of_long_of_made hhome hlong]
  split <;> rfl

/-- **Otherwise it is asked for** where the commons directory is absent after the look. -/
theorem remindedIn?_of_checks (h : command w = .ok code w₁)
    (hcheck : Checks s path w₁ (.ok () w₂)) :
    remindedIn? s path command w =
      match w₂.tree.present s.settings.commonsDir with
      | .ok false => some w₂.tree
      | _ => none := by
  simp only [remindedIn?, Act.bind_apply, h, hcheck.apply_collaborators]

end Program

end CommandGate
