import CommandGate.Proofs.Telemetry.Recording
import CommandGate.Proofs.Tutorial.Storage

/-!
# Where the Program Keeps Things

With settings as they are loaded (`Settings.Usual`), everything is kept below the home
directory: the log in its folder `logs`, the tutorial state in the file `tutorial.json`, and
the directory that marks an initialized installation in `repos/commons`. Changing one of them
leaves the others as they are.

## Main results

* `Settings.Usual.look_makeFolders_home`, `Settings.Usual.look_setTutorial`,
  `Settings.Usual.look_appendLine`: what each change leaves below the home directory.
-/

namespace CommandGate

open FileTree

/-- What lies below a way is not on it. -/
theorem not_append_front {names below : List String} (hb : below ≠ []) :
    ¬ names ++ below <+: names := by
  intro hp
  have hle := hp.length_le
  have hpos := List.length_pos_iff.mpr hb
  rw [List.length_append] at hle
  omega

/-- What lies in another folder of the home directory, or above it, is not in the folder of
the logs. -/
theorem not_logs_front {home : Path} {below : List String} (hb : below.head? ≠ some "logs") :
    ¬ home.names ++ ["logs"] <+: home.names ++ below := by
  rw [List.prefix_append_right_inj]
  rintro ⟨more, rfl⟩
  exact hb rfl

/-- The log is kept in the log directory. -/
theorem Settings.logFile_parent (settings : Settings) :
    settings.logFile.parent = settings.logDir := by
  simp [Settings.logFile, Path.parent, Path.join]

/-- The log is not kept where the tutorial state is. -/
theorem Settings.logFile_place_ne (settings : Settings) :
    settings.logFile.place ≠ settings.tutorialFile.place := by
  intro h
  rw [Settings.logFile, Settings.tutorialFile, Path.place_join_file _ (by decide),
    Path.place_join_file _ (by decide)] at h
  have hname := congrArg List.getLast? h
  simp at hname

/-- Settings with the log in the folder `logs` of the home directory, whose path has no steps
back. -/
structure Settings.Usual (s : Settings) : Prop where
  plain : s.homeDir.IsPlain
  logDir : s.logDir = s.homeDir.join ["logs"]

namespace Settings.Usual

variable {settings : Settings} (h : settings.Usual)

include h

/-- The log lies in the folder for logs below the home directory. -/
theorem logFile :
    settings.logFile = (settings.homeDir.join ["logs"]).join ["telemetry.jsonl"] := by
  rw [Settings.logFile, h.logDir]

/-- Plain names below the home directory make a plain path. -/
theorem join_plain {names : List String} (hn : ".." ∉ names) :
    (settings.homeDir.join names).IsPlain := by
  intro hm
  rcases List.mem_append.mp hm with hm | hm
  · exact h.plain hm
  · exact hn hm

/-- The commons lie at a plain path. -/
theorem commonsDir_plain : settings.commonsDir.IsPlain :=
  h.join_plain (by decide)

/-- The place of the tutorial file. -/
theorem tutorialFile_place :
    settings.tutorialFile.place = settings.homeDir.names ++ ["tutorial.json"] :=
  (h.join_plain (by decide) : settings.tutorialFile.IsPlain).place_eq

/-- The place of the log. -/
theorem logFile_place :
    settings.logFile.place = settings.homeDir.names ++ ["logs", "telemetry.jsonl"] := by
  have hplain : (settings.homeDir.join ["logs", "telemetry.jsonl"]).IsPlain :=
    h.join_plain (by decide)
  have hlog : settings.logFile = settings.homeDir.join ["logs", "telemetry.jsonl"] := by
    rw [h.logFile]
    simp [Path.join]
  rw [hlog, hplain.place_eq]
  rfl

/-- Making the home directory adds nothing below it. -/
theorem look_makeFolders_home (t : FileTree) (below : List String) (hb : below ≠ []) :
    look (t.makeFolders settings.homeDir).1 (settings.homeDir.names ++ below) =
      t.look (settings.homeDir.names ++ below) := by
  refine (makeFolders_addsFolders t settings.homeDir).look_of_not ?_
  rw [onTheWay_iff h.plain]
  exact not_append_front hb

/-- Setting the tutorial state changes nothing else below the home directory. -/
theorem look_setTutorial (state : String) (t : FileTree) {below : List String}
    (hb : below ≠ []) (hne : below ≠ ["tutorial.json"]) :
    look (Tutorial.set settings.tutorialFile state t).1 (settings.homeDir.names ++ below) =
      t.look (settings.homeDir.names ++ below) := by
  refine (Tutorial.set_rewrites settings.tutorialFile state t).look_of_not ?_ ?_
  · have hparent : settings.tutorialFile.parent.names = settings.homeDir.names := by
      simp [Settings.tutorialFile, Path.parent, Path.join]
    rw [hparent, onTheWay_iff h.plain]
    exact not_append_front hb
  · rw [h.tutorialFile_place]
    exact fun he => hne (List.append_cancel_left he)

/-- Recording changes nothing below the home directory but the folder of the log. -/
theorem look_appendLine (line : Text) (t : FileTree) {first : String} {rest : List String}
    (hne : first ≠ "logs") :
    look (Telemetry.appendLine settings.logFile line t).1
        (settings.homeDir.names ++ first :: rest) =
      t.look (settings.homeDir.names ++ first :: rest) := by
  have hplain : ".." ∉ settings.homeDir.names ++ ["logs"] :=
    (h.join_plain (by decide) : (settings.homeDir.join ["logs"]).IsPlain)
  refine (Telemetry.appendLine_rewrites settings.logFile line t).look_of_not ?_ ?_
  · have hparent : settings.logFile.parent.names = settings.homeDir.names ++ ["logs"] := by
      rw [settings.logFile_parent, h.logDir, Path.join]
    rw [hparent, onTheWay_iff hplain, List.prefix_append_right_inj]
    rintro ⟨more, hmore⟩
    simp only [List.cons_append, List.cons.injEq] at hmore
    exact hne hmore.1
  · rw [h.logFile_place]
    intro he
    have := List.append_cancel_left he
    simp only [List.cons.injEq] at this
    exact hne this.1

end Settings.Usual

end CommandGate
