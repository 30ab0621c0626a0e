import CommandGate.Proofs.Program.Frame
import CommandGate.Proofs.Program.Places

/-!
# The Gate and the Home Directory

Every command begins with making the home directory. Where that succeeds, the gate decides on
the tree with the home directory in it; where the file system refuses, the command ends with
1 and a message; and a home directory whose path holds the character NUL is a fault that
nothing recovers from.

These statements are about settings as they are loaded (`Settings.Usual`): the log is kept
in the folder `logs` of a home directory that is spelled without steps back.

## Main results

* `Program.enter_of_made`, `Program.enter_of_refused`, `Program.enter_of_hasNul`: the three
  ways in which a command begins.
-/

namespace CommandGate

open FileTree

namespace Program

variable {s : Surroundings} {path : String} {w : World} {t : FileTree}

/-- Below a home directory that cannot be made, recording changes nothing. -/
theorem record_of_refused (hs : s.settings.Usual) {u : FileTree} {errno : Errno} {q : Path}
    (h : u.makeFolders s.settings.homeDir = (t, .error (.refused errno q)))
    {e : Telemetry.Event} (he : e.Sound) (hw : w.tree = t) :
    Telemetry.record s e w = .ok () w := by
  obtain ⟨line, -, hrecord⟩ := Telemetry.record_apply (s := s) he
  have hlog : Telemetry.appendLine s.settings.logFile line t = (t, .ok ()) := by
    rw [hs.logFile]
    exact Telemetry.appendLine_of_refused (hs.join_plain (by decide)) (by decide) h
  rw [hrecord, World.change_apply, hw, hlog, ← hw]
  split <;> rfl

/-- Below a home directory that is there, recording never fails, and changes nothing but the
folder of the log and what is in it. -/
theorem record_of_passable (hs : s.settings.Usual) (hn : s.settings.homeDir.hasNul = false)
    {e : Telemetry.Event} (he : e.Sound)
    (hw : w.tree.Passable [] s.settings.homeDir.names) :
    ∃ t, Telemetry.record s e w = .ok () { w with tree := t } ∧
      (∀ m, ¬ s.settings.homeDir.names ++ ["logs"] <+: m → t.look m = w.tree.look m) := by
  have hparent : s.settings.logFile.parent = s.settings.homeDir.join ["logs"] := by
    rw [s.settings.logFile_parent, hs.logDir]
  have hnul : s.settings.logFile.parent.hasNul = false := by
    rw [hparent, Path.hasNul, Path.join, List.any_append, ← Path.hasNul, hn]
    simp
  have hrecord := Telemetry.record_eq_ok he (fun _ => hnul) w
  rcases Telemetry.after_record s e w with hafter | ⟨r, -, -, hafter⟩
  · rw [hafter] at hrecord
    exact ⟨w.tree, hrecord, fun m _ => rfl⟩
  · rw [hafter] at hrecord
    refine ⟨_, hrecord, fun m hm => ?_⟩
    rw [hs.logFile]
    exact Telemetry.appendLine_of_passable (hs.join_plain (by decide)) (by decide) hw hm

/-- **Where the home directory can be made**, the gate decides after that. -/
theorem enter_of_made (h : w.tree.makeFolders s.settings.homeDir = (t, .ok ())) :
    enter s path w =
      (tryCatch (do answer (← admission s path)) reportDirectory : Act World (Option Int))
        { w with tree := t } := by
  have hhome : Lifecycle.makeHome (collaborators s .stdout) s.settings path w =
      .ok () { w with tree := t } := by
    rw [makeHome_eq, Act.tryCatch_apply, Directory.create_apply, h]
  rw [enter_eq, Act.tryCatch_apply, Act.bind_apply, hhome, Act.tryCatch_apply]

section Made

variable (hmake : w.tree.makeFolders s.settings.homeDir = (t, .ok ()))

include hmake

/-- The gate lets a command pass that needs no initialized installation. -/
theorem enter_of_open
    (hopen : (Gate.isListed Gate.openPaths path || Gate.isCompletion path) = true) :
    enter s path w = .ok none { w with tree := t } := by
  rw [enter_of_made hmake, Act.tryCatch_apply, Act.bind_apply, admission, if_pos hopen]
  rfl

/-- It lets every command pass where the commons directory is present. -/
theorem enter_of_present (hpresent : t.present s.settings.commonsDir = .ok true) :
    enter s path w = .ok none { w with tree := t } := by
  by_cases hopen : (Gate.isListed Gate.openPaths path || Gate.isCompletion path) = true
  · exact enter_of_open hmake hopen
  · rw [enter_of_made hmake, Act.tryCatch_apply, Act.bind_apply, admission, if_neg hopen,
      Act.bind_apply, Directory.present_apply, hpresent]
    rfl

/-- Where it is absent, the gate answers a command that needs it, once that is recorded. -/
theorem enter_of_absent
    (hclosed : (Gate.isListed Gate.openPaths path || Gate.isCompletion path) = false)
    (hpresent : t.present s.settings.commonsDir = .ok false) :
    enter s path w =
      match Telemetry.record s (Lifecycle.commandEvent "lifecycle.blocked" path [])
        { w with tree := t } with
      | .ok () w' => .ok (some 0)
          { w' with stdout := w'.stdout ++ (Text.ofString Gate.initMessage ++ "\n") }
      | .error f w' => reportDirectory f w' := by
  rw [enter_of_made hmake, Act.tryCatch_apply, Act.bind_apply, admission, hclosed,
    if_neg (by simp), Act.bind_apply, Directory.present_apply, hpresent]
  dsimp only
  rw [if_neg (by simp), Act.bind_apply]
  cases Telemetry.record s (Lifecycle.commandEvent "lifecycle.blocked" path [])
    { w with tree := t } <;> rfl

/-- Where it cannot be looked for, a command that needs it ends with a fault. -/
theorem enter_of_unknown
    (hclosed : (Gate.isListed Gate.openPaths path || Gate.isCompletion path) = false)
    {f : FileFault} (hpresent : t.present s.settings.commonsDir = .error f) :
    enter s path w = .error (.file f) { w with tree := t } := by
  rw [enter_of_made hmake, Act.tryCatch_apply, Act.bind_apply, admission, hclosed,
    if_neg (by simp), Act.bind_apply, Directory.present_apply, hpresent]
  rfl

end Made

/-- What a command that the gate passes comes to. -/
theorem runCommand_of_passed {path : String} {command : Act World Int} {w' : World}
    (h : enter s path w = .ok none w') :
    runCommand s path command w = (do leave s path (← command) : Act World Int) w' := by
  rw [runCommand, Act.bind_apply, h]

/-- What a command that the gate answers comes to. -/
theorem runCommand_of_ended {path : String} {command : Act World Int} {w' : World} {code : Int}
    (h : enter s path w = .ok (some code) w') : runCommand s path command w = .ok code w' := by
  rw [runCommand, Act.bind_apply, h]
  rfl

/-- A failure on the way into a command is that of the invocation. -/
theorem runCommand_of_error {path : String} {command : Act World Int} {w' : World} {f : Fault}
    (h : enter s path w = .error f w') : runCommand s path command w = .error f w' := by
  rw [runCommand, Act.bind_apply, h]

/-- What a command does once the home directory is there. -/
def proceed (s : Surroundings) (path : String) (command : Act World Int) : Act World Int := do
  match ← tryCatch (do answer (← admission s path)) reportDirectory with
  | some exitCode => return exitCode
  | none => leave s path (← command)

/-- Once the home directory is made, the command goes on in the tree with it. -/
theorem runCommand_of_made {command : Act World Int}
    (h : w.tree.makeFolders s.settings.homeDir = (t, .ok ())) :
    runCommand s path command w = proceed s path command { w with tree := t } := by
  rw [proceed]
  rw [runCommand, Act.bind_apply, enter_of_made h]
  exact (Act.bind_apply _ _ _).symm

/-- A refusal of the home directory is recorded and passed on. -/
theorem makeHome_of_refused {errno : Errno} {q : Path}
    (h : w.tree.makeFolders s.settings.homeDir = (t, .error (.refused errno q))) :
    Lifecycle.makeHome (collaborators s .stdout) s.settings path w =
      match Telemetry.record s
          (Lifecycle.commandEvent "lifecycle.directory_failed" path
            [("home", .string s.settings.homeDir.toString),
              ("error", .string (DirectoryFault.notCreated s.settings.homeDir errno).message)])
          { w with tree := t } with
      | .ok _ w' => .error (.directory (.notCreated s.settings.homeDir errno)) w'
      | .error f w' => .error f w' := by
  rw [makeHome_eq, Act.tryCatch_apply, Directory.create_apply, h]
  dsimp only [noteDirectory]
  rw [Act.bind_apply]
  generalize Telemetry.record s _ _ = recorded
  cases recorded <;> rfl

/-- A home directory that the file system refuses, and whose failure is recorded, ends the
command with 1. -/
theorem enter_of_refused_of_record {u : FileTree} {errno : Errno} {q : Path}
    (h : w.tree.makeFolders s.settings.homeDir = (t, .error (.refused errno q)))
    (hrecord : Telemetry.record s
        (Lifecycle.commandEvent "lifecycle.directory_failed" path
          [("home", .string s.settings.homeDir.toString),
            ("error", .string (DirectoryFault.notCreated s.settings.homeDir errno).message)])
        { w with tree := t } = .ok () { w with tree := u }) :
    enter s path w =
      .ok (some 1) { w with
        tree := u
        stderr := w.stderr ++ (Text.ofString s!"{Gate.programName}: "
          ++ (DirectoryFault.notCreated s.settings.homeDir errno).message ++ "\n") } := by
  rw [enter_eq, Act.tryCatch_apply, Act.bind_apply, makeHome_of_refused h, hrecord]
  rfl

/-- **Where the file system refuses the home directory**, the command ends with 1. -/
theorem enter_of_refused (hs : s.settings.Usual) {errno : Errno} {q : Path}
    (h : w.tree.makeFolders s.settings.homeDir = (t, .error (.refused errno q))) :
    enter s path w =
      .ok (some 1) { w with
        tree := t
        stderr := w.stderr ++ (Text.ofString s!"{Gate.programName}: "
          ++ (DirectoryFault.notCreated s.settings.homeDir errno).message ++ "\n") } :=
  enter_of_refused_of_record h
    (record_of_refused hs h (Records.directoryFailed (s := s) path _).sound rfl)

/-- **A home directory with a NUL in its path** is a fault. -/
theorem enter_of_hasNul
    (h : w.tree.makeFolders s.settings.homeDir = (t, .error .embeddedNul)) :
    enter s path w = .error (.file .embeddedNul) { w with tree := t } := by
  have hhome : Lifecycle.makeHome (collaborators s .stdout) s.settings path w =
      .error (.file .embeddedNul) { w with tree := t } := by
    rw [makeHome_eq, Act.tryCatch_apply, Directory.create_apply, h]
    rfl
  rw [enter_eq, Act.tryCatch_apply, Act.bind_apply, hhome]
  rfl

end Program

end CommandGate
