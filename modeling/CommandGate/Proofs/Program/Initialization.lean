import CommandGate.Proofs.Program.Entry

/-!
# When an Installation Is Initialized

An installation is initialized when its commons directory is present. Nothing but setting up
brings that directory about, and nothing takes it away. While it is absent, a command that
needs it is answered by the gate, and its body is not reached.

## Main results

* `Program.preRun_of_initialized`: the gate of an initialized installation.
* `Program.enter_of_uninitialized`: how a command that needs an initialized installation
  ends without one.
* `Program.run_init`: when setting up makes an installation initialized.
-/

namespace CommandGate

open FileTree

/-- Whether the installation is initialized in a tree. -/
def Initialized (settings : Settings) (t : FileTree) : Prop :=
  t.present settings.commonsDir = .ok true

namespace Settings

/-- The commons directory is nameable if its path fits and the home directory is there. -/
theorem nameable_commonsDir {settings : Settings} {t : FileTree} (hf : settings.commonsDir.Fits)
    (hp : t.Passable [] settings.homeDir.names) : settings.commonsDir.Nameable := by
  refine ⟨hf, fun name hm => ?_⟩
  rcases List.mem_append.mp hm with hm | hm
  · exact hp.short name hm
  · have hshort : ∀ name ∈ ["repos", "commons"], name.utf8ByteSize ≤ maxNameBytes := by decide
    exact hshort name hm

namespace Usual

variable {settings : Settings} (h : settings.Usual)

include h

/-- The installation is initialized if something stands where the commons do, at a path that can be
named. -/
theorem initialized_iff {t : FileTree} :
    Initialized settings t ↔
      settings.commonsDir.Nameable ∧ t.look settings.commonsDir.names ≠ none :=
  present_eq_true_iff h.commonsDir_plain

omit h in
/-- The path of the home directory fits if that of a directory below it does. -/
theorem fits_homeDir (hf : settings.commonsDir.Fits) : settings.homeDir.Fits := by
  have hpath : (Path.mk settings.homeDir.anchor
      (settings.homeDir.names ++ ["repos", "commons"])).Fits := hf
  exact hpath.front

/-- Where the installation is not initialized, nothing stands at a nameable path of its
commons directory. -/
theorem look_of_uninitialized {t : FileTree} (hname : settings.commonsDir.Nameable)
    (hi : ¬ Initialized settings t) : t.look settings.commonsDir.names = none := by
  by_contra hl
  exact hi (h.initialized_iff.mpr ⟨hname, hl⟩)

/-- An initialized installation has a home directory. -/
theorem passable_of_initialized {t : FileTree} (hi : Initialized settings t) :
    settings.homeDir.Fits ∧ t.Passable [] settings.homeDir.names := by
  obtain ⟨⟨hf, hshort⟩, hl⟩ := h.initialized_iff.mp hi
  obtain ⟨e, he⟩ := Option.ne_none_iff_exists'.mp hl
  have hnames : settings.commonsDir.names = [] ++ (settings.homeDir.names ++ ["repos"]) ++
      ["commons"] := by
    simp [Settings.commonsDir, Path.join]
  refine ⟨fits_homeDir hf, ?_⟩
  rw [hnames] at he
  refine Passable.append_left (passable_of_look (fun name hm => hshort name ?_) he)
  rw [hnames]
  exact List.mem_append_left _ (by simpa using hm)

end Usual

end Settings

namespace Program

variable {s : Surroundings} {w : World}

/-! ### Frames -/

/-- What is put together from basic steps that do not make the commons directory leaves that
directory as it is. -/
theorem Pair.look_commonsDir {s' : Surroundings} {made : List Path} {settable : String → Prop}
    {α : Type} {a b : Act World α} (h : Pair s s' made settable a b) (hs : s.settings.Usual)
    (hmade : made ⊆ [s.settings.homeDir]) (w : World) :
    (a.after w).tree.look s.settings.commonsDir.names =
      w.tree.look s.settings.commonsDir.names := by
  refine h.keeps (R := fun t u => u.look s.settings.commonsDir.names =
    t.look s.settings.commonsDir.names) (fun _ => rfl) (fun t u v htu huv => huv.trans htu)
    ?_ ?_ ?_ w
  · intro p hp t
    rw [List.mem_singleton.mp (hmade hp)]
    exact hs.look_makeFolders_home t _ (by simp)
  · exact fun state _ t => hs.look_setTutorial state t (by simp) (by simp)
  · exact fun _ e r _ _ t => hs.look_appendLine r.line t (by decide)

/-- What stands somewhere does not go away. -/
theorem look_run_ne_none {m : Location} (hm : w.tree.look m ≠ none) (args : List String) :
    ((run s args).after w).tree.look m ≠ none := by
  have folders (p : Path) (t : FileTree) (h : t.look m ≠ none) :
      look (t.makeFolders p).1 m ≠ none := by
    obtain ⟨e, he⟩ := Option.ne_none_iff_exists'.mp h
    rw [(makeFolders_addsFolders t p).look_of_some he]
    simp
  exact run_keeps (R := fun t u => t.look m ≠ none → u.look m ≠ none) (fun _ h => h)
    (fun t u v htu huv h => huv (htu h)) args (folders _) (fun _ => folders _)
    (fun state _ t => (Tutorial.set_rewrites _ state t).look_ne_none)
    (fun _ e r _ _ t => (Telemetry.appendLine_rewrites _ r.line t).look_ne_none) w hm

/-! ### The gate -/

/-- The path of the command for the tutorial. -/
def tutorialPath : String := Gate.commandPath ["tutorial"]

/-- It needs an initialized installation. -/
theorem tutorialPath_closed :
    (Gate.isListed Gate.openPaths tutorialPath || Gate.isCompletion tutorialPath) = false := by
  decide

/-- A commons directory whose path does not fit cannot be looked for. -/
theorem present_commonsDir_of_not_fits (hn : s.settings.homeDir.hasNul = false)
    (hf : ¬ s.settings.commonsDir.Fits) (t : FileTree) :
    t.present s.settings.commonsDir =
      .error (.refused .nameTooLong s.settings.commonsDir) := by
  have hnul : s.settings.commonsDir.hasNul = false := by
    rw [Path.hasNul] at hn
    rw [Settings.commonsDir, Path.hasNul, Path.join, List.any_append, hn]
    decide
  refine present_of_long hnul ?_
  by_contra hs
  exact hf ⟨hnul, Nat.not_lt.mp hs⟩

/-- **In an initialized installation** the gate lets every command pass, and leaves the world
as it is. -/
theorem preRun_of_initialized (hs : s.settings.Usual) (hi : Initialized s.settings w.tree)
    (stream : Stream) (path : String) :
    Lifecycle.preRun (collaborators s stream) s.settings path w = .ok .proceed w := by
  obtain ⟨hfits, hpass⟩ := hs.passable_of_initialized hi
  have hpre : Lifecycle.preRun (collaborators s stream) s.settings path =
      tryCatch (Directory.create s.settings.homeDir) (noteDirectory s path) >>= fun _ =>
        admission s path := rfl
  have hpresent : Directory.present s.settings.commonsDir w = .ok true w := by
    rw [Directory.present_apply, hi]
  rw [hpre, Act.bind_apply, Act.tryCatch_apply, Directory.create_apply,
    makeFolders_of_passable hs.plain hfits hpass]
  change admission s path w = _
  rw [admission]
  split
  · rfl
  · rw [Act.bind_apply, hpresent]
    rfl

/-- **Without an initialized installation**, a command that needs one ends at the gate: with
1 where the home directory is refused, and with a message and 0 where the commons directory
can be looked for; otherwise there is a fault. -/
theorem enter_of_uninitialized (hs : s.settings.Usual) {path : String}
    (hpath : (Gate.isListed Gate.openPaths path || Gate.isCompletion path) = false)
    (hi : ¬ Initialized s.settings w.tree) :
    (∃ errno q t message,
      w.tree.makeFolders s.settings.homeDir = (t, .error (.refused errno q)) ∧
      enter s path w = .ok (some 1) { w with tree := t, stderr := w.stderr ++ message }) ∨
    (∃ t, s.settings.commonsDir.Fits ∧ (w.tree.makeFolders s.settings.homeDir).2 = .ok () ∧
      (∀ m, ¬ m <+: s.settings.homeDir.names → ¬ s.settings.homeDir.names ++ ["logs"] <+: m →
        t.look m = w.tree.look m) ∧
      enter s path w = .ok (some 0) { w with
        tree := t
        stdout := w.stdout ++ (Text.ofString Gate.initMessage ++ "\n") }) ∨
    (∃ f t, ¬ s.settings.commonsDir.Fits ∧
      (∀ e q, (w.tree.makeFolders s.settings.homeDir).2 ≠ .error (.refused e q)) ∧
      (∀ m, ¬ m <+: s.settings.homeDir.names → t.look m = w.tree.look m) ∧
      enter s path w = .error (.file f) { w with tree := t }) := by
  have frame (m : Location) (hm : ¬ m <+: s.settings.homeDir.names) :
      look (w.tree.makeFolders s.settings.homeDir).1 m = w.tree.look m :=
    (makeFolders_addsFolders _ _).look_of_not (mt (onTheWay_iff hs.plain).mp hm)
  rcases hmake : w.tree.makeFolders s.settings.homeDir with ⟨t, f | ⟨⟩⟩
  · rw [hmake] at frame
    cases f with
    | refused errno q =>
        exact .inl ⟨errno, q, t, _, rfl, enter_of_refused hs hmake⟩
    | embeddedNul =>
        refine .inr (.inr ⟨.embeddedNul, t, ?_, by simp, frame, enter_of_hasNul hmake⟩)
        intro hf
        have hnul : s.settings.homeDir.hasNul = false := (Settings.Usual.fits_homeDir hf).1
        exact makeFolders_ne_embeddedNul hnul (by rw [hmake])
  · obtain ⟨hfits, hpass⟩ := fits_passable_of_makeFolders_eq_ok hs.plain hmake
    rw [hmake] at frame
    have hcommons : ¬ s.settings.commonsDir.names <+: s.settings.homeDir.names :=
      not_append_front (by simp)
    by_cases hf : s.settings.commonsDir.Fits
    · have hname := Settings.nameable_commonsDir hf hpass
      have hnone : t.look s.settings.commonsDir.names = none := by
        rw [frame _ hcommons]
        exact hs.look_of_uninitialized hname hi
      have hpresent : t.present s.settings.commonsDir = .ok false := by
        rw [present_of_nameable hs.commonsDir_plain hname, hnone]
        rfl
      obtain ⟨u, hrecord, hu⟩ := record_of_passable hs hfits.1
        (Records.blocked (s := s) path).sound (w := { w with tree := t }) hpass
      refine .inr (.inl ⟨u, hf, rfl, fun m hm hlogs => (hu m hlogs).trans (frame m hm), ?_⟩)
      rw [enter_of_absent hmake hpath hpresent, hrecord]
    · refine .inr (.inr ⟨.refused .nameTooLong s.settings.commonsDir, t, hf, by simp, frame, ?_⟩)
      exact enter_of_unknown hmake hpath (present_commonsDir_of_not_fits hfits.1 hf t)

/-! ### Setting up -/

/-- **Setting up** an installation that is not initialized: it is initialized if that
succeeds, and otherwise it is not. -/
theorem setUp_cases (hs : s.settings.Usual) (hn : s.settings.homeDir.hasNul = false)
    (hpass : w.tree.Passable [] s.settings.homeDir.names)
    (hi : ¬ Initialized s.settings w.tree) :
    (∃ u stdout, setUp s w = .ok 0 { w with tree := u, stdout := stdout } ∧
      Initialized s.settings u) ∨
    (∃ u stderr, setUp s w = .ok 1 { w with tree := u, stderr := stderr } ∧
      ¬ Initialized s.settings u) ∨
    (∃ f, setUp s w = .error (.file f) w) := by
  have hplain := hs.commonsDir_plain
  by_cases hf : s.settings.commonsDir.Fits
  swap
  · refine .inr (.inr ⟨.refused .nameTooLong s.settings.commonsDir, ?_⟩)
    rw [setUp_eq, Act.bind_apply, Directory.present_apply, present_commonsDir_of_not_fits hn hf]
  have hname := Settings.nameable_commonsDir hf hpass
  have hnone := hs.look_of_uninitialized hname hi
  have hpresent : w.tree.present s.settings.commonsDir = .ok false := by
    rw [present_of_nameable hplain hname, hnone]
    rfl
  have hnotlogs : ¬ s.settings.homeDir.names ++ ["logs"] <+: s.settings.commonsDir.names := by
    rw [Settings.commonsDir, Path.join, List.prefix_append_right_inj]
    decide
  have hadd := makeFolders_addsFolders w.tree s.settings.commonsDir
  have hcases := makeFolders_cases (t := w.tree) hplain hf
  rcases hmake : w.tree.makeFolders s.settings.commonsDir with ⟨t, f⟩
  rw [hmake] at hadd hcases
  have hhome : t.Passable [] s.settings.homeDir.names := hpass.addsFolders hadd
  rw [setUp_eq, Act.bind_apply, Directory.present_apply, hpresent]
  dsimp only
  rw [Act.bind_apply, Act.tryCatch_apply, Act.bind_apply, Directory.create_apply, hmake]
  rcases hcases with ⟨hok, hp⟩ | ⟨⟨e, q, he⟩, -, hsame⟩
  · obtain rfl : f = .ok () := hok
    obtain ⟨u, hrecord, hu⟩ := record_of_passable hs hn (Records.initDone (s := s) false).sound
      (w := { w with tree := t }) hhome
    refine .inl ⟨u, w.stdout ++ (Text.ofString (setUpLine s false) ++ "\n"), ?_,
      hs.initialized_iff.mpr ⟨hname, ?_⟩⟩
    · change (_ >>= _ : Act World Int) _ = _
      rw [Act.bind_apply, hrecord]
      rfl
    · have hfolder : t.look s.settings.commonsDir.names = some .folder :=
        hp.look_eq (look_nil t)
      rw [hu _ hnotlogs, hfolder]
      simp
  · obtain rfl : f = .error (.refused e q) := he
    let failure : DirectoryFault := .notCreated s.settings.commonsDir e
    let stderr := w.stderr ++ (Text.ofString s!"{Gate.programName}: " ++ failure.message ++ "\n")
    obtain ⟨u, hrecord, hu⟩ := record_of_passable hs hn (Records.initFailed (s := s) failure).sound
      (w := { w with tree := t, stderr := stderr }) hhome
    refine .inr (.inl ⟨u, stderr, ?_, fun hi' => ?_⟩)
    · change (_ >>= _ : Act World Int) _ = _
      rw [Act.bind_apply]
      change (_ >>= _ : Act World Int) { w with tree := t, stderr := stderr } = _
      rw [Act.bind_apply, hrecord]
      rfl
    · refine (hs.initialized_iff.mp hi').2 ?_
      rw [hu _ hnotlogs]
      exact hsame.trans hnone

/-! ### What follows a command -/

/-- In an initialized installation nothing follows a command but the look for a version. -/
theorem leave_of_initialized {path : String} (hpath : Gate.isListed Gate.versionPaths path = false)
    (hi : Initialized s.settings w.tree) (exitCode : Int) :
    leave s path exitCode w = .ok exitCode w := by
  let c := collaborators s (if Gate.isCompletion path then .stderr else .stdout)
  have hpost : Lifecycle.postRun c s.settings path = (do
      if !(← Directory.present s.settings.commonsDir) then
        let tutorial ← Lifecycle.findTutorial c path
        c.print tutorial.banner) := by
    rw [Lifecycle.postRun, Lifecycle.verifyNewVersion]
    rw [hpath]
    rfl
  rw [leave_eq, hpost, Act.tryCatch_apply, Act.bind_apply, Act.bind_apply,
    Directory.present_apply, hi]
  rfl

/-- A command that ends leaves with its own exit code, or with 1. -/
theorem leave_exitCode {path : String} {exitCode code : Int} {w' : World}
    (h : leave s path exitCode w = .ok code w') : code = exitCode ∨ code = 1 := by
  rw [leave_eq, Act.tryCatch_apply, Act.bind_apply] at h
  generalize Lifecycle.postRun _ _ _ w = end₁ at h
  cases end₁ with
  | ok u w'' =>
      cases h
      exact .inl rfl
  | error f w'' =>
      cases f <;> cases h
      exact .inr rfl

/-- Leaving a command does not initialize the installation. -/
theorem initialized_after_leave (hs : s.settings.Usual) (path : String) (exitCode : Int) :
    Initialized s.settings ((leave s path exitCode).after w).tree ↔
      Initialized s.settings w.tree := by
  have hpair : Pair s (s.moved s.environment s.clock) [] (fun _ => False)
      (leave s path exitCode) _ := leave_paired rfl exitCode
  rw [hs.initialized_iff, hs.initialized_iff, hpair.look_commonsDir hs (by simp)]

/-- **An invocation that asks for the installation to be set up**, where it is not: it is
initialized afterwards exactly if the invocation ends with 0. -/
theorem run_init (hs : s.settings.Usual) {args : List String} (ht : taskOf? args = some .init)
    (hi : ¬ Initialized s.settings w.tree) :
    Initialized s.settings ((run s args).after w).tree ↔ ∃ w', run s args w = .ok 0 w' := by
  have hopen : Gate.isListed Gate.openPaths (Gate.commandPath Task.init.names) = true := by decide
  have hversion : Gate.isListed Gate.versionPaths (Gate.commandPath Task.init.names) = false := by
    decide
  rw [run_of_task ht, body, Act.after]
  generalize Gate.commandPath Task.init.names = path at hopen hversion
  -- making the home directory does not make the commons directory
  have absent : ¬ Initialized s.settings (w.tree.makeFolders s.settings.homeDir).1 := by
    have hsame := hs.look_makeFolders_home w.tree ["repos", "commons"] (by simp)
    exact fun h => hi (hs.initialized_iff.mpr (hsame ▸ hs.initialized_iff.mp h))
  rcases hmake : w.tree.makeFolders s.settings.homeDir with ⟨t, f | ⟨⟩⟩
  · rw [hmake] at absent
    cases f with
    | refused errno q =>
        rw [runCommand_of_ended (enter_of_refused hs hmake)]
        simp [absent]
    | embeddedNul =>
        rw [runCommand_of_error (enter_of_hasNul hmake)]
        simp [absent]
  · obtain ⟨hfits, hpass⟩ := fits_passable_of_makeFolders_eq_ok hs.plain hmake
    rw [hmake] at absent
    have henter : enter s path w = .ok none { w with tree := t } :=
      enter_of_open hmake (by rw [hopen, Bool.true_or])
    rw [runCommand_of_passed henter, Act.bind_apply]
    rcases setUp_cases (w := { w with tree := t }) hs hfits.1 hpass absent with
      ⟨u, stdout, hu, hi'⟩ | ⟨u, stderr, hu, hi'⟩ | ⟨f, hu⟩
    · rw [hu]
      dsimp only
      rw [leave_of_initialized hversion hi']
      simp [hi']
    · have hleft := initialized_after_leave (w := { w with tree := u, stderr := stderr }) hs path 1
      rw [hu]
      dsimp only
      rw [Act.after] at hleft
      rw [hleft]
      refine ⟨fun h => absurd h hi', ?_⟩
      rintro ⟨w', hw'⟩
      exact absurd (leave_exitCode hw') (by simp)
    · rw [hu]
      simp [absent]

end Program

end CommandGate
