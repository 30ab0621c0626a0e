import CommandGate.Proofs.Program.Initialization
import CommandGate.Proofs.Program.News

/-!
# The Course of a Command

Between the gate and what follows every command stands the body of the command.
`Program.Course` lists what a command can come to, whatever its body does and however the
tutorial state is found. It is refused where the home directory cannot be made, and blocked
where the gate does not let it pass. Otherwise its body is run once, a version is looked for
after the bare command, and the tutorial state is asked for if the installation is not
initialized after the body. A tutorial state that cannot be found out makes the exit code 1.

Commands take that course unless a path of the settings cannot be used at all
(`Surroundings.Workable`): a home directory with a NUL in its path, a log directory with one
while telemetry is on, or a commons directory whose path is too long although that of the
home directory is not.

## Main results

* `Program.Course.apply`: a command comes to what its course says.
* `Program.exists_course`: every command has a course.
* `Program.course_iff`: the two directions packaged as an equivalence.
-/

namespace CommandGate

open FileTree

/-- Settings whose home directory and log directory have no steps back in their paths, with a
log that is not kept in the commons directory. -/
structure Settings.Apart (settings : Settings) : Prop where
  home : settings.homeDir.IsPlain
  log : settings.logDir.IsPlain
  apart : ¬ settings.commonsDir.names <+: settings.logDir.names

namespace Settings.Apart

variable {settings : Settings} (h : settings.Apart)

include h

/-- The commons lie at a plain path. -/
theorem commonsDir_plain : settings.commonsDir.IsPlain := by
  intro hm
  rcases List.mem_append.mp hm with hm | hm
  · exact h.home hm
  · exact absurd hm (by decide)

/-- Recording leaves the commons directory as it is. -/
theorem look_appendLine (line : Text) (t : FileTree) :
    look (Telemetry.appendLine settings.logFile line t).1 settings.commonsDir.names =
      t.look settings.commonsDir.names := by
  refine (Telemetry.appendLine_rewrites settings.logFile line t).look_of_not ?_ ?_
  · rw [settings.logFile_parent, onTheWay_iff h.log]
    exact h.apart
  · rw [Settings.logFile, Path.place_join_file _ (by decide), h.log.place_eq]
    intro he
    have hlast := congrArg List.getLast? he
    simp [Settings.commonsDir, Path.join] at hlast

/-- Making the home directory leaves the commons directory as it is. -/
theorem look_makeHome (t : FileTree) :
    look (t.makeFolders settings.homeDir).1 settings.commonsDir.names =
      t.look settings.commonsDir.names := by
  refine (makeFolders_addsFolders t settings.homeDir).look_of_not ?_
  rw [onTheWay_iff h.home]
  exact not_append_front (by simp)

/-- Whether the commons are there is seen at their own place only. -/
theorem initialized_congr {t u : FileTree}
    (hl : u.look settings.commonsDir.names = t.look settings.commonsDir.names) :
    Initialized settings u ↔ Initialized settings t := by
  rw [Initialized, Initialized, present_eq_true_iff h.commonsDir_plain,
    present_eq_true_iff h.commonsDir_plain, hl]

end Settings.Apart

/-- Surroundings in which no path keeps events from being recorded. -/
def Surroundings.Recordable (s : Surroundings) : Prop :=
  Telemetry.enabled s.environment = true → s.settings.logDir.hasNul = false

/-- Surroundings in which no path keeps commands from their course. -/
structure Surroundings.Workable (s : Surroundings) : Prop where
  home : s.settings.homeDir.hasNul = false
  commons : s.settings.homeDir.Nameable → s.settings.commonsDir.Fits
  log : Telemetry.enabled s.environment = true → s.settings.logDir.hasNul = false

/-- The world with a message of the program on the error stream. -/
def World.complaining (w : World) (message : Text) : World :=
  { w with stderr := w.stderr ++ (Text.ofString s!"{Gate.programName}: " ++ message ++ "\n") }

namespace Program

/-- What a step of the program comes to: a value or a fault, and the world that it leaves. -/
abbrev Result (α : Type) : Type := EStateM.Result Fault World α

/-! ### The law -/

section Law

variable (s : Surroundings) (path : String)

/-- The event of a home directory that cannot be made. -/
def homeEvent (message : Text) : Telemetry.Event :=
  Lifecycle.commandEvent "lifecycle.directory_failed" path
    [("home", .string s.settings.homeDir.toString), ("error", .string message)]

/-- The event of a look for a version. -/
def versionEvent (latest : Option String) : Telemetry.Event where
  name := .string "version.check"
  payload := .object [("current", .string s.settings.version),
    ("latest", (latest.map fun v => Json.string v).getD .null)]
  status := .string (if latest.any (· ≠ "") then "outdated" else "current")

/-- What is reported when a directory cannot be made. -/
def directoryMessage (p : Path) : FileFault → Text
  | .refused errno _ => (DirectoryFault.notCreated p errno).message
  | .embeddedNul =>
    s!"failed to create directory {p.toString}: " ++ FileFault.embeddedNul.message

/-- What is printed after a look for a version. -/
def newsText (settings : Settings) (interpreter : Interpreter) : Option String → Text
  | none => []
  | some latest =>
    Colour.yellow (Release.notice settings.version settings.buildDate (some latest) interpreter)
      ++ "\n"

/-- The stream for what follows a command. -/
def streamAfter : Stream :=
  if Gate.isCompletion path then .stderr else .stdout

/-- Whether the gate lets a command pass. -/
def Passes (t : FileTree) : Prop :=
  Gate.isListed Gate.openPaths path = true ∨ Gate.isCompletion path = true ∨
    Initialized s.settings t

/-- **What the look for a version comes to**: nothing after any other command than the bare
one; after that, one request, an event and what there is to tell, or the failure of the
network that is passed on. -/
inductive Checks (w : World) : Result Unit → Prop
  | passedOver (h : path ≠ Gate.programName) : Checks w (.ok () w)
  | answered {latest : Option String} {w' : World} (h : path = Gate.programName)
      (hnews : newsIn s.settings.version s.network = .ok latest)
      (hrecord : Telemetry.record s (versionEvent s latest) (asked s w) = .ok () w') :
      Checks w (.ok () { w' with
        stdout := w'.stdout ++ newsText s.settings s.environment.interpreter latest })
  | foreign {kind message : String} (h : path = Gate.programName)
      (hnetwork : s.network = .foreign kind message) :
      Checks w (.error (.foreign kind message) (asked s w))

/-- **What follows a body** that ended with an exit code: the look for a version, and, if the
installation is not initialized after the body, the tutorial state. -/
inductive Follows (find : Act World Tutorial) (code : Int) (w : World) : Result Int → Prop
  | checkFails {kind message : String} {w₁ : World}
      (hcheck : Checks s path w (.error (.foreign kind message) w₁)) :
      Follows find code w (.error (.foreign kind message) w₁)
  | initialized {w₁ : World} (hcheck : Checks s path w (.ok () w₁))
      (hi : Initialized s.settings w.tree) : Follows find code w (.ok code w₁)
  | shown {tutorial : Tutorial} {w₁ w₂ : World} (hcheck : Checks s path w (.ok () w₁))
      (hi : ¬ Initialized s.settings w.tree) (hfind : find w₁ = .ok tutorial w₂) :
      Follows find code w (.ok code ((World.print (streamAfter path) tutorial.banner).after w₂))
  | unreadable {fault : TutorialFault} {w₁ w₂ w₃ : World} (hcheck : Checks s path w (.ok () w₁))
      (hi : ¬ Initialized s.settings w.tree) (hfind : find w₁ = .error (.tutorial fault) w₂)
      (hrecord : Telemetry.record s (Lifecycle.commandEvent "tutorial.failed" path
        [("error", .string fault.message)]) w₂ = .ok () w₃) :
      Follows find code w (.ok 1 (w₃.complaining fault.message))
  | findFails {f : Fault} {w₁ w₂ : World} (hcheck : Checks s path w (.ok () w₁))
      (hi : ¬ Initialized s.settings w.tree) (hfind : find w₁ = .error f w₂)
      (hf : ∀ fault, f ≠ .tutorial fault) : Follows find code w (.error f w₂)

/-- **The course of a command** with a body, where the tutorial state is found in some way. -/
inductive Course (find : Act World Tutorial) (command : Act World Int) (w : World) :
    Result Int → Prop
  | refused {t u : FileTree} {f : FileFault}
      (hhome : w.tree.makeFolders s.settings.homeDir = (t, .error f))
      (hrecord : Telemetry.record s (homeEvent s path (directoryMessage s.settings.homeDir f))
        { w with tree := t } = .ok () { w with tree := u }) :
      Course find command w
        (.ok 1 ({ w with tree := u }.complaining (directoryMessage s.settings.homeDir f)))
  | blocked {t u : FileTree} (hhome : w.tree.makeFolders s.settings.homeDir = (t, .ok ()))
      (hpass : ¬ Passes s path t)
      (hrecord : Telemetry.record s (Lifecycle.commandEvent "lifecycle.blocked" path [])
        { w with tree := t } = .ok () { w with tree := u }) :
      Course find command w (.ok 0 { w with
        tree := u
        stdout := w.stdout ++ (Text.ofString Gate.initMessage ++ "\n") })
  | bodyFails {t : FileTree} {f : Fault} {w' : World}
      (hhome : w.tree.makeFolders s.settings.homeDir = (t, .ok ())) (hpass : Passes s path t)
      (hbody : command { w with tree := t } = .error f w') : Course find command w (.error f w')
  | bodyEnds {t : FileTree} {code : Int} {w' : World} {r : Result Int}
      (hhome : w.tree.makeFolders s.settings.homeDir = (t, .ok ())) (hpass : Passes s path t)
      (hbody : command { w with tree := t } = .ok code w')
      (h : Follows s path find code w' r) : Course find command w r

end Law

/-! ### Commands, however the tutorial state is found -/

/-- The collaborators of the lifecycle, with some way to find the tutorial state. -/
def finding (s : Surroundings) (find : Act World Tutorial) (stream : Stream) :
    Lifecycle.Collaborators World :=
  { collaborators s stream with findTutorial := find }

section Commands

variable (s : Surroundings) (path : String) (find : Act World Tutorial)

/-- The gate before a command. -/
def arrive : Act World (Option Int) :=
  tryCatch (do answer (← Lifecycle.preRun (finding s find .stdout) s.settings path))
    reportDirectory

/-- What follows a command that ended with an exit code. -/
def depart (exitCode : Int) : Act World Int :=
  tryCatch (do
    Lifecycle.postRun (finding s find (streamAfter path)) s.settings path
    pure exitCode)
    reportTutorial

/-- A command from the gate to its exit code. -/
def carryOut (command : Act World Int) : Act World Int := do
  match ← arrive s path find with
  | some exitCode => return exitCode
  | none => depart s path find (← command)

/-- The gate does not ask for the tutorial state. -/
theorem arrive_eq : arrive s path find = enter s path := by
  have hpre : Lifecycle.preRun (finding s find .stdout) s.settings path = (do
      Lifecycle.makeHome (collaborators s .stdout) s.settings path
      admission s path) := rfl
  rw [arrive, enter_eq, hpre, bind_assoc]

/-- The program's commands find the tutorial state in its file. -/
theorem runCommand_eq (command : Act World Int) :
    runCommand s path command =
      carryOut s path (World.look (Tutorial.find s.settings.tutorialFile)) command := by
  rw [runCommand, carryOut, arrive_eq]
  refine bind_congr fun decision => ?_
  cases decision with
  | some exitCode => rfl
  | none => exact bind_congr fun code => leave_eq s path code

end Commands

/-! ### The law determines what a command comes to -/

section Apply

variable {s : Surroundings} {path : String} {find : Act World Tutorial}
variable {command : Act World Int} {code : Int} {w w' : World} {t : FileTree} {e : Telemetry.Event}

/-- Recording leaves the commons directory as it is. -/
theorem look_of_record (hs : s.settings.Apart) (h : Telemetry.record s e w = .ok () w') :
    w'.tree.look s.settings.commonsDir.names = w.tree.look s.settings.commonsDir.names := by
  have hafter : (Telemetry.record s e).after w = w' := by rw [Act.after, h]
  rcases Telemetry.after_record s e w with hw | ⟨r, -, -, hw⟩
  · rw [← hafter, hw]
  · rw [← hafter, hw]
    exact hs.look_appendLine r.line w.tree

/-- So does the look for a version. -/
theorem Checks.initialized_iff (hs : s.settings.Apart) (h : Checks s path w (.ok () w')) :
    Initialized s.settings w'.tree ↔ Initialized s.settings w.tree := by
  cases h with
  | passedOver h => rfl
  | answered h hnews hrecord =>
      have hlook := look_of_record hs hrecord
      exact hs.initialized_congr hlook

/-- The look for a version, in a plain form. -/
theorem verifyNewVersion_eq (stream : Stream) :
    Lifecycle.verifyNewVersion (finding s find stream) s.settings path =
      if Gate.isListed Gate.versionPaths path then do
        let latest ← Release.news? (Release.current s) s.settings.version
        Telemetry.record s (versionEvent s latest)
        match latest with
        | none => pure ()
        | some version =>
          World.print stream (newsText s.settings s.environment.interpreter (some version))
      else pure () := by
  rw [Lifecycle.verifyNewVersion]
  refine ite_congr rfl (fun _ => ?_) fun _ => rfl
  refine bind_congr fun latest => bind_congr fun _ => ?_
  cases latest <;> rfl

/-- The look for a version comes to what is said of it. -/
theorem Checks.apply {r : Result Unit} (h : Checks s path w r) :
    Lifecycle.verifyNewVersion (finding s find (streamAfter path)) s.settings path w = r := by
  have hlisted : Gate.isListed Gate.versionPaths path = true ↔ path = Gate.programName := by
    simp [Gate.isListed, Gate.versionPaths]
  rw [verifyNewVersion_eq]
  cases h with
  | passedOver h =>
      rw [if_neg (mt hlisted.mp h)]
      rfl
  | answered h hnews hrecord =>
      rename_i latest w₁
      rw [if_pos (hlisted.mpr h), Act.bind_apply, news?_current, hnews, h]
      dsimp only
      rw [Act.bind_apply, hrecord]
      cases latest with
      | none =>
          rw [newsText, List.append_nil]
          rfl
      | some version => rfl
  | foreign h hnetwork =>
      rw [if_pos (hlisted.mpr h), Act.bind_apply, news?_current, hnetwork]
      rfl

/-- A nameable commons directory can be looked for. -/
theorem present_eq_false (hs : s.settings.Apart) (hname : s.settings.commonsDir.Nameable)
    (hi : ¬ Initialized s.settings t) : t.present s.settings.commonsDir = .ok false := by
  have hpresent := present_of_nameable (t := t) hs.commonsDir_plain hname
  rw [Initialized, hpresent] at hi
  simpa [hpresent] using hi

/-- A failure to find the tutorial state is recorded and passed on. -/
def noteTutorial (s : Surroundings) (path : String) : Fault → Act World Tutorial
  | .tutorial fault => do
    Telemetry.record s (Lifecycle.commandEvent "tutorial.failed" path
      [("error", .string fault.message)])
    throw (.tutorial fault)
  | fault => throw fault

/-- What follows a body, in a plain form. -/
theorem postRun_eq (stream : Stream) :
    Lifecycle.postRun (finding s find stream) s.settings path = (do
      Lifecycle.verifyNewVersion (finding s find stream) s.settings path
      let found ← Directory.present s.settings.commonsDir
      if found then pure ()
      else do
        let tutorial ← tryCatch find (noteTutorial s path)
        World.print stream tutorial.banner) := by
  rw [Lifecycle.postRun]
  refine bind_congr fun _ => bind_congr fun found => ?_
  cases found <;> rfl

/-- **What follows a body comes to what is said of it.** -/
theorem Follows.apply (hs : s.settings.Apart) (hname : s.settings.commonsDir.Nameable)
    {r : Result Int} (h : Follows s path find code w r) : depart s path find code w = r := by
  -- once the version is looked for, an installation that is not initialized asks for the state
  have asks {w₁ : World} (hcheck : Checks s path w (.ok () w₁))
      (hi : ¬ Initialized s.settings w.tree) :
      Lifecycle.postRun (finding s find (streamAfter path)) s.settings path w =
        (do
          let tutorial ← tryCatch find (noteTutorial s path)
          World.print (streamAfter path) tutorial.banner : Act World Unit) w₁ := by
    have hi' := mt (hcheck.initialized_iff hs).mp hi
    rw [postRun_eq, Act.bind_apply, hcheck.apply]
    dsimp only
    rw [Act.bind_apply, Directory.present_apply, present_eq_false hs hname hi']
    rfl
  rw [depart, Act.tryCatch_apply, Act.bind_apply]
  cases h with
  | checkFails hcheck =>
      rw [postRun_eq, Act.bind_apply, hcheck.apply]
      rfl
  | initialized hcheck hi =>
      have hi' := (hcheck.initialized_iff hs).mpr hi
      rw [postRun_eq, Act.bind_apply, hcheck.apply]
      dsimp only
      rw [Act.bind_apply, Directory.present_apply, hi']
      rfl
  | shown hcheck hi hfind =>
      rw [asks hcheck hi, Act.bind_apply, Act.tryCatch_apply, hfind]
      cases streamAfter path <;> rfl
  | unreadable hcheck hi hfind hrecord =>
      rw [asks hcheck hi, Act.bind_apply, Act.tryCatch_apply, hfind]
      dsimp only [noteTutorial]
      rw [Act.bind_apply, hrecord]
      rfl
  | findFails hcheck hi hfind hf =>
      rename_i f w₁ w₂
      have hnote : noteTutorial s path f w₂ = .error f w₂ := by
        cases f with
        | tutorial fault => exact absurd rfl (hf fault)
        | _ => rfl
      have hreport : reportTutorial f w₂ = .error f w₂ := by
        cases f with
        | tutorial fault => exact absurd rfl (hf fault)
        | _ => rfl
      rw [asks hcheck hi, Act.bind_apply, Act.tryCatch_apply, hfind]
      dsimp only
      rw [hnote]
      exact hreport

/-- Where the home directory can be made, the commons directory is nameable. -/
theorem nameable_commonsDir_of_made (hs : s.settings.Apart) (hw : s.Workable)
    (hhome : w.tree.makeFolders s.settings.homeDir = (t, .ok ())) :
    s.settings.commonsDir.Nameable := by
  obtain ⟨hfits, hpass⟩ := fits_passable_of_makeFolders_eq_ok hs.home hhome
  exact Settings.nameable_commonsDir (hw.commons ⟨hfits, hpass.short⟩) hpass

/-- A command that passes the gate goes on, with the home directory made. -/
theorem enter_of_passes (hhome : w.tree.makeFolders s.settings.homeDir = (t, .ok ()))
    (hpass : Passes s path t) : enter s path w = .ok none { w with tree := t } := by
  rcases hpass with hlisted | hcompletion | hi
  · exact enter_of_open hhome (by rw [hlisted, Bool.true_or])
  · exact enter_of_open hhome (by rw [hcompletion, Bool.or_true])
  · exact enter_of_present hhome hi

/-- A command that does not pass is answered once the block is recorded. -/
theorem enter_of_not_passes (hs : s.settings.Apart) (hname : s.settings.commonsDir.Nameable)
    {u : FileTree} (hhome : w.tree.makeFolders s.settings.homeDir = (t, .ok ()))
    (hpass : ¬ Passes s path t)
    (hrecord : Telemetry.record s (Lifecycle.commandEvent "lifecycle.blocked" path [])
      { w with tree := t } = .ok () { w with tree := u }) :
    enter s path w = .ok (some 0) { w with
      tree := u
      stdout := w.stdout ++ (Text.ofString Gate.initMessage ++ "\n") } := by
  rw [Passes, not_or, not_or, Bool.not_eq_true, Bool.not_eq_true] at hpass
  obtain ⟨hlisted, hcompletion, hi⟩ := hpass
  have hclosed : (Gate.isListed Gate.openPaths path || Gate.isCompletion path) = false := by
    rw [hlisted, hcompletion, Bool.or_false]
  rw [enter_of_absent hhome hclosed (present_eq_false hs hname hi), hrecord]

/-- **A command comes to what its course says.** -/
theorem Course.apply (hs : s.settings.Apart) (hw : s.Workable) {r : Result Int}
    (h : Course s path find command w r) : carryOut s path find command w = r := by
  rw [carryOut, arrive_eq, Act.bind_apply]
  cases h with
  | refused hhome hrecord =>
      rename_i t u f
      cases f with
      | refused errno q =>
          rw [enter_of_refused_of_record hhome hrecord]
          rfl
      | embeddedNul =>
          exact absurd (by rw [hhome]) (makeFolders_ne_embeddedNul (t := w.tree)
            hw.home)
  | blocked hhome hpass hrecord =>
      rw [enter_of_not_passes hs (nameable_commonsDir_of_made hs hw hhome) hhome hpass hrecord]
      rfl
  | bodyFails hhome hpass hbody =>
      rw [enter_of_passes hhome hpass]
      dsimp only
      rw [Act.bind_apply, hbody]
  | bodyEnds hhome hpass hbody hfollows =>
      rw [enter_of_passes hhome hpass]
      dsimp only
      rw [Act.bind_apply, hbody]
      exact hfollows.apply hs (nameable_commonsDir_of_made hs hw hhome)

end Apply

/-! ### There is a course -/

section Exists

variable {s : Surroundings} {t : FileTree}

/-- Recording an event of the program never fails. -/
theorem record_of_recordable (hr : s.Recordable) {e : Telemetry.Event} (he : Records s e)
    (w : World) :
    ∃ u, Telemetry.record s e w = .ok () { w with tree := u } := by
  have hparent := s.settings.logFile_parent
  have hrecord := Telemetry.record_eq_ok he.sound (fun hon => hparent ▸ hr hon) w
  rcases Telemetry.after_record s e w with hafter | ⟨r, -, -, hafter⟩
  · rw [hafter] at hrecord
    exact ⟨w.tree, hrecord⟩
  · rw [hafter] at hrecord
    exact ⟨_, hrecord⟩

variable (path : String) (find : Act World Tutorial)

/-- Where events can be recorded, the look for a version comes to something. -/
theorem exists_checks (hr : s.Recordable) (w : World) :
    ∃ r, Checks s path w r := by
  by_cases h : path = Gate.programName
  · rcases newsIn_cases s.settings.version s.network with
      ⟨latest, hnews⟩ | ⟨kind, message, hnetwork, -⟩
    · obtain ⟨u, hrecord⟩ := record_of_recordable hr (.versionChecked latest) (asked s w)
      exact ⟨_, .answered h hnews hrecord⟩
    · exact ⟨_, .foreign h hnetwork⟩
  · exact ⟨_, .passedOver h⟩

/-- Where commands can take their course, what comes after one comes to something. -/
theorem exists_follows (hw : s.Workable) (code : Int) (w : World) :
    ∃ r, Follows s path find code w r := by
  obtain ⟨r, hcheck⟩ := exists_checks path hw.log w
  cases r with
  | error f w₁ =>
      cases hcheck with
      | foreign h hnetwork => exact ⟨_, .checkFails (.foreign h hnetwork)⟩
  | ok u w₁ =>
      by_cases hi : Initialized s.settings w.tree
      · exact ⟨_, .initialized hcheck hi⟩
      · cases hfind : find w₁ with
        | ok tutorial w₂ => exact ⟨_, .shown hcheck hi hfind⟩
        | error f w₂ =>
            by_cases hf : ∃ fault, f = .tutorial fault
            · obtain ⟨fault, rfl⟩ := hf
              obtain ⟨u, hrecord⟩ := record_of_recordable hw.log (.tutorialFailed path fault) w₂
              exact ⟨_, .unreadable hcheck hi hfind hrecord⟩
            · exact ⟨_, .findFails hcheck hi hfind fun fault he => hf ⟨fault, he⟩⟩

/-- **Every command has a course.** -/
theorem exists_course (hw : s.Workable) (command : Act World Int) (w : World) :
    ∃ r, Course s path find command w r := by
  rcases hhome : w.tree.makeFolders s.settings.homeDir with ⟨t, f | ⟨⟩⟩
  · cases f with
    | refused errno q =>
        let fault : DirectoryFault := .notCreated s.settings.homeDir errno
        obtain ⟨u, hrecord⟩ := record_of_recordable hw.log (.directoryFailed path fault)
          { w with tree := t }
        exact ⟨_, .refused hhome hrecord⟩
    | embeddedNul =>
        exact absurd (by rw [hhome]) (makeFolders_ne_embeddedNul (t := w.tree)
          hw.home)
  · by_cases hpass : Passes s path t
    · cases hbody : command { w with tree := t } with
      | error f w' => exact ⟨_, .bodyFails hhome hpass hbody⟩
      | ok code w' =>
          obtain ⟨r, hfollows⟩ := exists_follows path find hw code w'
          exact ⟨r, .bodyEnds hhome hpass hbody hfollows⟩
    · obtain ⟨u, hrecord⟩ := record_of_recordable hw.log (.blocked path) { w with tree := t }
      exact ⟨_, .blocked hhome hpass hrecord⟩

/-- **The course of a command is what it comes to.** -/
theorem course_iff (hs : s.settings.Apart) (hw : s.Workable) (command : Act World Int)
    (w : World) (r : Result Int) :
    Course s path find command w r ↔ carryOut s path find command w = r := by
  refine ⟨fun h => h.apply hs hw, ?_⟩
  rintro rfl
  obtain ⟨r, h⟩ := exists_course path find hw command w
  rwa [h.apply hs hw]

end Exists

end Program

end CommandGate
