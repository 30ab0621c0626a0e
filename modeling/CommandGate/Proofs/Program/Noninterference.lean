import CommandGate.Proofs.Program.Entry

/-!
# Telemetry Does Not Show

Two worlds are told apart by their logs only (`World.SameBut`) if they have the same outputs,
requests and launches, and trees that agree outside the folder of the logs. From two such
worlds, in surroundings that differ in the clock and in the switch of telemetry, an
invocation comes to the same and leaves two such worlds.

## Main results

* `Program.run_alike`: an invocation from two worlds that are told apart by their logs only.
-/

namespace CommandGate

open FileTree

/-- Two worlds with the same outputs, requests and launches, and with trees that agree
outside a location. -/
def World.SameBut (here : Location) (w w' : World) : Prop :=
  ∃ u, AgreeOutside here w.tree u ∧ w' = { w with tree := u }

namespace Program

/-- Two worlds that are the same but for the logs, with the home directory there. -/
structure Settled (settings : Settings) (w w' : World) : Prop where
  same : w.SameBut (settings.homeDir.names ++ ["logs"]) w'
  home : w.tree.Passable [] settings.homeDir.names

variable {s : Surroundings} {env : Environment} {clock : Binary64} {made : List Path}
variable {settable : String → Prop}

/-- A look at the tree that comes to the same in both trees. -/
theorem look_settled {α : Type} {settings : Settings} {w : World} {u : FileTree}
    (h : Settled settings w { w with tree := u }) {f : FileTree → Except Fault α}
    (hf : f u = f w.tree) :
    Act.EndsAlike (Settled settings) (World.look f w) (World.look f { w with tree := u }) := by
  rw [World.look_apply, World.look_apply, hf]
  cases f w.tree with
  | ok x => exact .ok x h
  | error e => exact .error e h

/-- A change of the tree that comes to the same in both trees, and keeps the home directory. -/
theorem change_settled {settings : Settings} {w : World} {u : FileTree}
    {f : FileTree → FileTree × Except Fault Unit} (hanswer : (f u).2 = (f w.tree).2)
    (hafter : AgreeOutside (settings.homeDir.names ++ ["logs"]) (f w.tree).1 (f u).1)
    (hhome : (f w.tree).1.Passable [] settings.homeDir.names) :
    Act.EndsAlike (Settled settings) (World.change f w) (World.change f { w with tree := u }) := by
  rw [World.change_apply, World.change_apply]
  dsimp only
  generalize f w.tree = changed, f u = changed' at hanswer hafter hhome ⊢
  obtain ⟨t, r⟩ := changed
  obtain ⟨t', r'⟩ := changed'
  obtain rfl : r' = r := hanswer
  cases r' with
  | ok _ => exact .ok () ⟨⟨t', hafter, rfl⟩, hhome⟩
  | error e => exact .error e ⟨⟨t', hafter, rfl⟩, hhome⟩

/-- **Basic steps are alike** from worlds that are the same but for the logs. -/
theorem Basic.alike (hs : s.settings.Usual) (hn : s.settings.homeDir.hasNul = false)
    (hmade : ∀ p ∈ made, p = s.settings.homeDir ∨ p = s.settings.commonsDir) {α : Type}
    {a b : Act World α} (h : Basic s (s.moved env clock) made settable a b) :
    Act.Alike (Settled s.settings) a b := by
  rintro w _ ⟨⟨u, hu, rfl⟩, hhome⟩
  have hcommons : ¬ s.settings.homeDir.names ++ ["logs"] <+: s.settings.commonsDir.names :=
    not_logs_front (by simp)
  have htutorial : ¬ s.settings.homeDir.names ++ ["logs"] <+: s.settings.tutorialFile.names :=
    not_logs_front (by simp)
  have hplain : s.settings.tutorialFile.IsPlain := hs.join_plain (by decide)
  have hsettled : Settled s.settings w { w with tree := u } := ⟨⟨u, hu, rfl⟩, hhome⟩
  cases h with
  | print stream t =>
      cases stream <;> exact .ok () ⟨⟨u, hu, rfl⟩, hhome⟩
  | present =>
      refine look_settled hsettled ?_
      rw [hu.present_eq hs.commonsDir_plain hcommons]
  | @create p hp =>
      have hp' : p.IsPlain ∧ ¬ s.settings.homeDir.names ++ ["logs"] <+: p.names := by
        rcases hmade p hp with rfl | rfl
        · exact ⟨hs.plain, not_append_front (by simp)⟩
        · exact ⟨hs.commonsDir_plain, hcommons⟩
      obtain ⟨hanswer, hafter⟩ := hu.makeFolders hp'.1 hp'.2
      refine change_settled (Directory.make_snd_congr hanswer) ?_ ?_
      · rw [Directory.make_fst, Directory.make_fst]
        exact hafter
      · rw [Directory.make_fst]
        exact hhome.addsFolders (makeFolders_addsFolders w.tree p)
  | findTutorial => exact look_settled hsettled (Tutorial.find_eq_of_agree hu hplain htutorial)
  | @setTutorial state _ =>
      have hrewrites := Tutorial.set_rewrites s.settings.tutorialFile state w.tree
      obtain ⟨hanswer, hafter⟩ := Tutorial.set_agree hu hplain htutorial state
      exact change_settled hanswer hafter (hhome.of_folders fun _ => hrewrites.look_of_folder)
  | send r => exact .ok _ ⟨⟨u, hu, rfl⟩, hhome⟩
  | launch command => exact .ok _ ⟨⟨u, hu, rfl⟩, hhome⟩
  | record he =>
      have hhome' : u.Passable [] s.settings.homeDir.names :=
        hu.passable (not_append_front (by simp)) hhome
      obtain ⟨t, hrecord, ht⟩ := record_of_passable hs hn he.sound hhome
      obtain ⟨t', hrecord', ht'⟩ := record_of_passable (s := s.moved env clock)
        (w := { w with tree := u }) hs hn he.sound hhome'
      rw [hrecord, hrecord']
      refine .ok () ⟨⟨t', fun m hm => ?_, rfl⟩, ?_⟩
      · rw [ht' m hm, hu m hm]
        exact (ht m hm).symm
      · have hagree : AgreeOutside (s.settings.homeDir.names ++ ["logs"]) w.tree t := ht
        exact hagree.passable (not_append_front (by simp)) hhome

/-- What a command does once the home directory is there is put together in the same way. -/
theorem proceed_paired (hi : env.interpreter = s.environment.interpreter) {path : String}
    {command command' : Act World Int}
    (hc : Pair s (s.moved env clock) made settable command command') :
    Pair s (s.moved env clock) made settable (proceed s path command)
      (proceed (s.moved env clock) path command') := by
  rw [proceed]
  refine .bind (.tryCatch (.bind admission_paired answer_paired) reportDirectory_paired)
    fun ended => ?_
  cases ended with
  | some exitCode => exact .pure _
  | none => exact .bind hc fun exitCode => leave_paired hi exitCode

/-- **A command** comes to the same in both worlds. -/
theorem runCommand_alike (hs : s.settings.Usual)
    (hi : env.interpreter = s.environment.interpreter)
    (hmade : ∀ p ∈ made, p = s.settings.homeDir ∨ p = s.settings.commonsDir) {path : String}
    {command command' : Act World Int}
    (hc : Pair s (s.moved env clock) made settable command command') :
    Act.Alike (World.SameBut (s.settings.homeDir.names ++ ["logs"])) (runCommand s path command)
      (runCommand (s.moved env clock) path command') := by
  rintro w _ ⟨u, hu, rfl⟩
  obtain ⟨hanswer, hafter⟩ := hu.makeFolders hs.plain (not_append_front (by simp))
  rcases ht : w.tree.makeFolders s.settings.homeDir with ⟨t, r⟩
  rcases hu' : u.makeFolders s.settings.homeDir with ⟨t', r'⟩
  rw [ht, hu'] at hanswer hafter
  obtain rfl : r' = r := hanswer
  rcases r' with (⟨e, q⟩ | _) | _
  · rw [runCommand_of_ended (enter_of_refused hs ht),
      runCommand_of_ended (enter_of_refused (s := s.moved env clock) hs hu')]
    exact .ok 1 ⟨t', hafter, rfl⟩
  · rw [runCommand_of_error (enter_of_hasNul ht),
      runCommand_of_error (enter_of_hasNul (s := s.moved env clock) hu')]
    exact .error _ ⟨t', hafter, rfl⟩
  · obtain ⟨hfits, hpass⟩ := fits_passable_of_makeFolders_eq_ok hs.plain ht
    rw [runCommand_of_made ht, runCommand_of_made (s := s.moved env clock) hu']
    have hpair : Pair s (s.moved env clock) made settable (proceed s path command)
        (proceed _ path _) := proceed_paired hi hc
    have halike := hpair.alike (R := Settled s.settings) fun hb => hb.alike hs hfits.1 hmade
    exact (halike _ _ ⟨⟨t', hafter, rfl⟩, hpass⟩).mono fun _ _ h => h.same

/-- Printing and asking the network do not look at the tree. -/
theorem print_alike (here : Location) (stream : Stream) (t : Text) :
    Act.Alike (World.SameBut here) (World.print stream t) (World.print stream t) := by
  rintro w _ ⟨u, hu, rfl⟩
  cases stream <;> exact .ok () ⟨u, hu, rfl⟩

/-- The published version does not depend on what differs in the surroundings. -/
theorem current_alike (here : Location) :
    Act.Alike (World.SameBut here) (Release.current s) (Release.current (s.moved env clock)) := by
  rw [Release.current, Release.lookUp]
  refine .bind ?_ fun answer => ?_
  · rintro w _ ⟨u, hu, rfl⟩
    exact .ok _ ⟨u, hu, rfl⟩
  · split
    · exact .pure _
    · exact .throw _

/-- **Arguments that ask for no task** are answered alike. -/
theorem conclude_alike (henv : s.environment.AgreesBut Telemetry.switchName env)
    (here : Location) (reading : CommandLine.Reading) :
    Act.Alike (World.SameBut here) (conclude s reading)
      (conclude (s.moved env clock) reading) := by
  cases reading with
  | accepted found => exact .pure _
  | help commands =>
      change Act.Alike _ _ (World.print .stdout (helpOf env commands) >>= _)
      rw [helpOf_eq henv]
      exact .bind (print_alike _ _ _) fun _ => .pure _
  | version =>
      change Act.Alike _ _ (Release.report (Release.current (s.moved env clock))
        s.settings.version s.settings.buildDate env.interpreter >>= _)
      rw [henv.interpreter]
      refine .bind (.bind ?_ fun latest => .pure _) fun text =>
        .bind (print_alike _ _ _) fun _ => .pure _
      rw [news?_eq, news?_eq]
      refine .tryCatch (.bind (current_alike _) fun version => .pure _) fun e => ?_
      simp only [noNews]
      split
      · exact .pure _
      · exact .throw _
  | rejected commands complaint =>
      change Act.Alike _ _ (World.print .stderr (usageOf env commands ++ _ ++ _ ++ _ ++ _ ++ _)
        >>= _)
      rw [usageOf_eq henv]
      exact .bind (print_alike _ _ _) fun _ => .pure _

/-- **An invocation** comes to the same in both worlds. -/
theorem run_alike (hs : s.settings.Usual)
    (henv : s.environment.AgreesBut Telemetry.switchName env) (args : List String) :
    Act.Alike (World.SameBut (s.settings.homeDir.names ++ ["logs"])) (run s args)
      (run (s.moved env clock) args) := by
  have command {path : String} {a b : Act World Int}
      (h : Pair s (s.moved env clock) [s.settings.homeDir, s.settings.commonsDir]
        (fun _ => True) a b) :
      Act.Alike (World.SameBut (s.settings.homeDir.names ++ ["logs"])) (runCommand s path a)
        (runCommand (s.moved env clock) path b) :=
    runCommand_alike hs henv.interpreter (by simp) h
  rw [run_eq, run_eq]
  split
  · exact command (complete_paired _)
  · cases taskOf? args with
    | none => exact conclude_alike henv _ _
    | some task => exact command (body_paired henv task (fun _ => by simp) fun _ _ => trivial)

end Program

end CommandGate
