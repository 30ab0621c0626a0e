import CommandGate.Proofs.Program.Lifecycle
import CommandGate.Proofs.Program.Reminder
import CommandGate.Proofs.Telemetry.RoundTrip

/-!
# What Is Told of the Published Version

Three parts of the program decide whether there is a newer version: the text for the version
option, the notice after the bare command, and the record of the look for it. They decide
alike, for every answer of the network that is a response or a failed request: there is a
newer version exactly if the answer offers one (`Program.Offers`).

The notice comes after the record. A log directory with a NUL in its path, while telemetry is
on, keeps the event from being recorded, and then the notice is not shown.

## Main results

* `Program.version_paths_agree`: what is told of the published version, in each of the ways.
* `Program.notice_lost_of_nul`: a notice that is not shown.
-/

namespace CommandGate

open FileTree Telemetry

namespace Program

/-! ### The texts -/

/-- The version text, with a line for the news that there are. -/
def versionText (settings : Settings) (interpreter : Interpreter) : Option String → String
  | none =>
    settings.version ++ "\n  Build date: " ++ settings.buildDate ++
      "\n  Built with: python" ++ interpreter.version ++ "\n"
  | some latest =>
    settings.version ++ "\n  \x1b[33mLatest available version: " ++ latest ++
      "\x1b[0m\n  Build date: " ++ settings.buildDate ++
      "\n  Built with: python" ++ interpreter.version ++ "\n"

/-- The notice of a newer version: the version text in yellow, and a line break. -/
def noticeText (settings : Settings) (interpreter : Interpreter) : Option String → String
  | none => ""
  | some latest => "\x1b[33m" ++ versionText settings interpreter (some latest) ++ "\x1b[0m\n"

/-- Yellow text is the text between two marks. -/
theorem yellow_eq (text : String) : Colour.yellow text = "\x1b[33m" ++ text ++ "\x1b[0m" :=
  rfl

/-- The version text of the program. -/
theorem notice_eq (settings : Settings) (interpreter : Interpreter) (latest : Option String) :
    Release.notice settings.version settings.buildDate latest interpreter =
      versionText settings interpreter latest := by
  have hdate : "\x1b[0m\n  Build date: " = "\x1b[0m" ++ ("\n" ++ "  Build date: ") := by decide
  have hbuilt : "\n  Built with: python" = "\n  Built with: " ++ "python" := by decide
  cases latest with
  | none =>
      have hplain : "\n  Build date: " = "\n" ++ "  Build date: " := by decide
      simp only [Release.notice, Release.layOut, Release.builtWith, Option.map, versionText,
        hplain, hbuilt, String.append_assoc]
      rfl
  | some latest =>
      have hnews : "\n  \x1b[33mLatest available version: " =
          "\n" ++ ("  " ++ ("\x1b[33m" ++ "Latest available version: ")) := by decide
      have hline : Release.latestLine latest = "Latest available version: " ++ latest := rfl
      simp only [Release.notice, Release.layOut, Release.builtWith, Option.map, versionText,
        yellow_eq, hline, hnews, hdate, hbuilt, String.append_assoc]
      rfl

/-- What is printed after a look for a version is the notice of a newer one. -/
theorem newsText_eq (settings : Settings) (interpreter : Interpreter) (latest : Option String) :
    newsText settings interpreter latest =
      Text.ofString (noticeText settings interpreter latest) := by
  cases latest with
  | none => rfl
  | some latest =>
      have hend : "\x1b[0m\n" = "\x1b[0m" ++ "\n" := by decide
      rw [newsText, noticeText, notice_eq, yellow_eq, hend]
      simp only [Text.ofString_append, List.append_assoc]

/-! ### What is told -/

/-- What a look for the published version comes to, for the answer that it gets. -/
def lookedUp {σ : Type} (a : Answer) (w : σ) : EStateM.Result Fault σ String :=
  match Release.versionOf a with
  | .ok version => .ok version w
  | .error e => .error e w

/-- **What is told of the published version**, for the news that there are. -/
structure Tells (s : Surroundings) (latest : Option String) : Prop where
  /-- The news and the version text, however the published version is looked up. -/
  resolved : ∀ {σ : Type} (published : Act σ String) (w w' : σ),
    published w = lookedUp s.network w' →
      Release.news? published s.settings.version w = .ok latest w' ∧
      Release.report published s.settings.version s.settings.buildDate s.environment.interpreter w =
        .ok (versionText s.settings s.environment.interpreter latest) w'
  /-- The answer to a command line that asks for the version. -/
  flag : ∀ args w, CommandLine.read grammar args = .version →
    run s args w = .ok 0 { asked s w with
      stdout := w.stdout ++ Text.ofString ("rit version " ++
        versionText s.settings s.environment.interpreter latest) }
  /-- The notice after the bare command, before a banner or nothing. -/
  bare : ∀ args w t, taskOf? args = some .overview →
    w.tree.makeFolders s.settings.homeDir = (t, .ok ()) → s.Recordable →
      ∃ rest : Text, (rest = [] ∨ ∃ tutorial : Tutorial, rest = tutorial.banner) ∧
        ((run s args).after w).stdout = w.stdout ++ Text.ofString (helpOf s.environment []) ++
          Text.ofString (noticeText s.settings s.environment.interpreter latest) ++ rest
  /-- The record of the look, which is the first that the bare command adds to the log. -/
  recorded : ∀ args w t, taskOf? args = some .overview →
    w.tree.makeFolders s.settings.homeDir = (t, .ok ()) → enabled s.environment = true →
    CanWrite s.settings.logFile t →
      ∃ (document : Text) (bytes more : Bytes) (time : Json),
        ((run s args).after w).tree.bytesAt s.settings.logFile.place =
          w.tree.bytesAt s.settings.logFile.place ++ bytes ++ more ∧
        Utf8.encode (document ++ "\n") = .ok bytes ∧
        Json.parse document = .ok (.object
          [(Text.ofString "ts", time),
            (Text.ofString "event", .string "version.check"),
            (Text.ofString "payload", .object
              [(Text.ofString "current", .string s.settings.version),
                (Text.ofString "latest", latest.elim .null fun v => .string (Text.ofString v))]),
            (Text.ofString "level", .string "info"),
            (Text.ofString "status",
              .string (Text.ofString (if latest.isSome then "outdated" else "current")))])
  /-- Where the path of the log cannot be used, the bare command fails before its notice. -/
  lost : ∀ args w t, taskOf? args = some .overview →
    w.tree.makeFolders s.settings.homeDir = (t, .ok ()) → ¬ s.Recordable →
      run s args w = .error (.file .embeddedNul) { asked s w with
        tree := t
        stdout := w.stdout ++ Text.ofString (helpOf s.environment []) }

section Ways

variable {s : Surroundings} {latest : Option String} {args : List String} {w : World}
variable {t : FileTree}

/-- News, however the published version is looked up. -/
theorem news?_of_lookedUp {σ : Type} {published : Act σ String} {u u' : σ}
    (h : published u = lookedUp s.network u')
    (hnews : newsIn s.settings.version s.network = .ok latest) :
    Release.news? published s.settings.version u = .ok latest u' := by
  rw [news?_eq, Act.tryCatch_apply, Act.bind_apply, h, lookedUp]
  rw [newsIn] at hnews
  cases hversion : Release.versionOf s.network with
  | ok version =>
      rw [hversion] at hnews
      obtain rfl := Except.ok.inj hnews
      rfl
  | error e =>
      rw [hversion] at hnews
      cases e with
      | release fault =>
          obtain rfl := Except.ok.inj hnews
          rfl
      | _ => cases hnews

/-- The version text, however the published version is looked up. -/
theorem report_of_lookedUp {σ : Type} {published : Act σ String} {u u' : σ}
    (h : published u = lookedUp s.network u')
    (hnews : newsIn s.settings.version s.network = .ok latest) :
    Release.report published s.settings.version s.settings.buildDate s.environment.interpreter u =
      .ok (versionText s.settings s.environment.interpreter latest) u' := by
  rw [Release.report, Act.bind_apply, news?_of_lookedUp h hnews, ← notice_eq]
  rfl

/-- A command line that asks for the version is answered so. -/
theorem run_of_version (h : CommandLine.read grammar args = .version) :
    run s args = conclude s .version := by
  have hfirst : args.head? ≠ some Gate.completionMarker := by
    intro hm
    obtain ⟨words, rfl⟩ := List.head?_eq_some_iff.mp hm
    obtain ⟨commands, complaint, hread⟩ := read_completion words
    rw [hread] at h
    cases h
  rw [Program.run_eq, if_neg hfirst, taskOf?, h]

/-- The world once the bare command has shown the help text. -/
def helped (s : Surroundings) (t : FileTree) (w : World) : World :=
  { w with tree := t, stdout := w.stdout ++ Text.ofString (helpOf s.environment []) }

/-- The bare command shows the help text, and leaves. -/
theorem run_of_overview (ht : taskOf? args = some .overview)
    (hhome : w.tree.makeFolders s.settings.homeDir = (t, .ok ())) :
    run s args w = leave s Gate.programName 0 (helped s t w) := by
  have hopen : (Gate.isListed Gate.openPaths Gate.programName ||
      Gate.isCompletion Gate.programName) = true := by decide
  have hpath : Gate.commandPath Task.overview.names = Gate.programName := by decide
  rw [run_of_task ht, hpath, runCommand_of_passed (enter_of_open hhome hopen), Act.bind_apply]
  rfl

/-- The record of a look for the published version. -/
def versionRecord (s : Surroundings) (latest : Option String) : Record where
  time := s.clock
  event := "version.check"
  payload := [("current", .string s.settings.version),
    ("latest", latest.elim .null fun v => .string (Text.ofString v))]
  level := .info
  status := some (Text.ofString (if latest.isSome then "outdated" else "current"))

/-- News are never empty. -/
theorem any_of_news (hnews : newsIn s.settings.version s.network = .ok latest) :
    latest.any (· ≠ "") = latest.isSome := by
  cases latest with
  | none => rfl
  | some version =>
      obtain ⟨⟨status, body, -, -, -, -, hne⟩, -⟩ := newsIn_eq_some_iff.mp hnews
      simpa using hne

/-- The event of a look for a version is one that can be recorded, with the version found. -/
theorem of_versionEvent (hnews : newsIn s.settings.version s.network = .ok latest) :
    Record.of s.clock (versionEvent s latest) = .ok (versionRecord s latest) := by
  have hstatus : Record.statusOf (versionEvent s latest).status =
      .ok (some (Text.ofString (if latest.isSome then "outdated" else "current"))) := by
    rw [versionEvent, any_of_news hnews]
    cases latest <;> rfl
  cases latest <;> exact Record.of_eq (l := .info) (by decide) hstatus

/-- Its particulars are read back as they are. -/
theorem exact_versionRecord (s : Surroundings) (latest : Option String) :
    (Json.object (versionRecord s latest).payload).Exact := by
  have hnames : [Text.ofString "current", Text.ofString "latest"].Nodup := by decide
  have hcurrent : (Json.string s.settings.version).Exact := .string (Text.isScalar_ofString _)
  have hlatest : (latest.elim .null fun v => Json.string (Text.ofString v)).Exact := by
    cases latest with
    | none => exact .null
    | some version => exact .string (Text.isScalar_ofString _)
  refine .object hnames ?_ ?_
  · simp [versionRecord]
  · simp [versionRecord, hcurrent, hlatest]

/-- **The record of the look**, where the log can be written. -/
theorem record_versionEvent (hnews : newsIn s.settings.version s.network = .ok latest)
    (hon : enabled s.environment = true) (hlog : CanWrite s.settings.logFile w.tree) :
    ∃ (bytes : Bytes) (written : FileTree),
      record s (versionEvent s latest) w = .ok () { w with tree := written } ∧
      written.bytesAt s.settings.logFile.place =
        w.tree.bytesAt s.settings.logFile.place ++ bytes ∧
      Utf8.encode ((versionRecord s latest).document ++ "\n") = .ok bytes ∧
      Json.parse (versionRecord s latest).document = .ok (.object
        ((Text.ofString "ts", .number (Json.reread s.clock)) ::
          (versionRecord s latest).particulars)) := by
  have hexact := exact_versionRecord s latest
  have hof := of_versionEvent hnews
  have hpayload : (versionEvent s latest).payload =
      .object (versionRecord s latest).payload := by
    cases latest <;> rfl
  have hproper : (versionRecord s latest).Proper :=
    Record.proper_of hof (hpayload ▸ hexact.isReadable)
  have hline : (versionRecord s latest).line.IsScalar :=
    Record.isScalar_line (Text.isScalar_ofString _) hexact.isScalar fun text htext => by
      obtain rfl := Option.some.inj htext
      exact Text.isScalar_ofString _
  exact record_of_canWrite hon hof hproper hexact hline hlog

/-- A log that can be written has a path that can be used. -/
theorem recordable_of_canWrite (hlog : CanWrite s.settings.logFile t) : s.Recordable := by
  intro _
  have hfits := fits_of_makeFolders_eq_ok hlog.1
  rw [s.settings.logFile_parent] at hfits
  exact hfits.1

/-- **Where the path of the log cannot be used**, the look for a version fails. -/
theorem leave_of_not_recordable (hr : ¬ s.Recordable) (code : Int)
    (hnews : newsIn s.settings.version s.network = .ok latest) :
    leave s Gate.programName code w = .error (.file .embeddedNul) (asked s w) := by
  rw [Surroundings.Recordable, Classical.not_imp, Bool.not_eq_false] at hr
  have hrecord := record_of_hasNul hr.1 hr.2 (Records.versionChecked (s := s) latest).sound
    (asked s w)
  have hlisted : Gate.isListed Gate.versionPaths Gate.programName = true := by decide
  rw [leave_eq_showBanner, Act.tryCatch_apply, Act.bind_apply, verifyNewVersion_eq,
    if_pos hlisted, Act.bind_apply, news?_current, hnews]
  dsimp only
  rw [Act.bind_apply, versionEvent, hrecord]
  rfl

/-- **The bare command, where the event of the look is recorded**: after the help text it shows
the notice and a banner or nothing, and what is in the log stays at its beginning. -/
theorem told_of_recorded (ht : taskOf? args = some .overview)
    (hhome : w.tree.makeFolders s.settings.homeDir = (t, .ok ())) (hr : s.Recordable)
    (hnews : newsIn s.settings.version s.network = .ok latest) {u : FileTree}
    (hrecord : record s (versionEvent s latest) (asked s (helped s t w)) =
      .ok () { asked s (helped s t w) with tree := u }) :
    (∃ rest : Text, (rest = [] ∨ ∃ tutorial : Tutorial, rest = tutorial.banner) ∧
      ((run s args).after w).stdout = w.stdout ++ Text.ofString (helpOf s.environment []) ++
        Text.ofString (noticeText s.settings s.environment.interpreter latest) ++ rest) ∧
    u.bytesAt s.settings.logFile.place <+:
      ((run s args).after w).tree.bytesAt s.settings.logFile.place := by
  let told : World := { asked s (helped s t w) with
    tree := u
    stdout := w.stdout ++ Text.ofString (helpOf s.environment []) ++
      newsText s.settings s.environment.interpreter latest }
  have hrun : (run s args).after w = (remind s Gate.programName 0).after told := by
    rw [Act.after, run_of_overview ht hhome, leave_of_checks (.answered rfl hnews hrecord)]
    rfl
  rw [hrun, ← newsText_eq]
  exact remind_after hr

end Ways

/-- **The ways in which the published version is told of agree.** Where the network gives a
response or a failed request, there are news exactly if its answer offers a version in place
of the running one, and all that is told of the published version is told for these news. -/
theorem version_paths_agree (s : Surroundings)
    (hnetwork : ∀ kind message, s.network ≠ .foreign kind message) :
    ∃ latest, (∀ version, latest = some version ↔
        Offers s.settings.version s.network version) ∧ Tells s latest := by
  obtain ⟨latest, hnews⟩ | ⟨kind, message, hforeign, -⟩ :=
    newsIn_cases s.settings.version s.network
  swap
  · exact absurd hforeign (hnetwork kind message)
  refine ⟨latest, fun version => ?_, ?_⟩
  · rw [← newsIn_eq_some_iff, hnews, Except.ok.injEq]
  · exact {
      resolved := fun published w w' h =>
        ⟨news?_of_lookedUp h hnews, report_of_lookedUp h hnews⟩
      flag := by
        intro args w hread
        have hreport := report_of_lookedUp (current_apply s w) hnews
        have hline :
            Text.ofString ("rit version " ++
              versionText s.settings s.environment.interpreter latest) =
              Text.ofString "rit version " ++
                Text.ofString (versionText s.settings s.environment.interpreter latest) :=
          Text.ofString_append _ _
        rw [run_of_version hread, conclude, Act.bind_apply, hreport, hline]
        rfl
      bare := by
        intro args w t ht hhome hr
        obtain ⟨u, hrecord⟩ := record_of_recordable hr (.versionChecked latest)
          (asked s (helped s t w))
        exact (told_of_recorded ht hhome hr hnews hrecord).1
      recorded := by
        intro args w t ht hhome hon hlog
        obtain ⟨bytes, written, hrecord, hwritten, hbytes, hparse⟩ :=
          record_versionEvent (w := asked s (helped s t w)) hnews hon hlog
        have hr : s.Recordable := recordable_of_canWrite hlog
        obtain ⟨-, more, hmore⟩ := told_of_recorded ht hhome hr hnews hrecord
        have hmade : t.bytesAt s.settings.logFile.place =
            w.tree.bytesAt s.settings.logFile.place :=
          (addsFolders_of_makeFolders hhome).bytesAt_eq _
        refine ⟨(versionRecord s latest).document, bytes, more, _, ?_, hbytes, hparse⟩
        rw [← hmore, hwritten, ← hmade]
        rfl
      lost := by
        intro args w t ht hhome hr
        rw [run_of_overview ht hhome, leave_of_not_recordable hr 0 hnews]
        rfl }

open Session in
/-- A home directory of the simplest kind, on an occasion on which a newer version is there. -/
def outdatedAt (logDir : Path) : Surroundings :=
  { atHome with
    settings := { atHome.settings with logDir := logDir }
    network := .response 200 " v9\n" }

/-- What is told of a newer version in an empty tree. -/
theorem version_paths_agree_home :
    let s := outdatedAt ⟨.relative, ["home", "logs"]⟩
    (∀ kind message, s.network ≠ .foreign kind message) ∧ Tells s (some "v9") ∧
      CommandLine.read grammar ["--version"] = .version ∧
      (∃ w, run s ["--version"] { tree := [] } = .ok 0 w ∧
        w.stdout = Text.ofString ("rit version " ++
          versionText s.settings s.environment.interpreter (some "v9"))) ∧
      taskOf? [] = some .overview ∧
      ∃ t, makeFolders [] s.settings.homeDir = (t, .ok ()) ∧ s.Recordable ∧
        enabled s.environment = true ∧ CanWrite s.settings.logFile t := by
  have hnetwork : ∀ kind message,
      (outdatedAt ⟨.relative, ["home", "logs"]⟩).network ≠ .foreign kind message := by
    simp [outdatedAt]
  have hread : CommandLine.read grammar ["--version"] = .version := rfl
  obtain ⟨latest, hlatest, htells⟩ :=
    version_paths_agree (outdatedAt ⟨.relative, ["home", "logs"]⟩) hnetwork
  obtain rfl : latest = some "v9" :=
    (hlatest "v9").mpr ⟨⟨200, _, rfl, by decide, by decide, by decide, by decide⟩, by decide⟩
  exact ⟨hnetwork, htells, hread, ⟨_, htells.flag _ _ hread, List.nil_append _⟩, rfl, _, rfl,
    fun _ => by decide, by decide, rfl, _, rfl⟩

/-- A notice that is not shown: the answer offers a newer version, and the log directory has a
NUL in its path. -/
theorem notice_lost_of_nul :
    let s := outdatedAt ⟨.relative, ["a\x00b"]⟩
    Offers s.settings.version s.network "v9" ∧
      (∃ t, makeFolders [] s.settings.homeDir = (t, .ok ())) ∧
      (∃ w, run s [] { tree := [] } = .error (.file .embeddedNul) w) ∧
      ∀ rest, ((run s []).after { tree := [] }).stdout ≠
        Text.ofString (helpOf s.environment []) ++
          Text.ofString (noticeText s.settings s.environment.interpreter (some "v9")) ++ rest := by
  let s := outdatedAt ⟨.relative, ["a\x00b"]⟩
  have hoffers : Offers s.settings.version s.network "v9" :=
    ⟨⟨200, _, rfl, by decide, by decide, by decide, by decide⟩, by decide⟩
  have hr : ¬ s.Recordable := fun h => absurd (h (by decide)) (by decide)
  obtain ⟨t, hhome⟩ : ∃ t, makeFolders [] s.settings.homeDir = (t, .ok ()) := ⟨_, rfl⟩
  have hrun : run s [] { tree := [] } =
      .error (.file .embeddedNul) (asked s (helped s t { tree := [] })) := by
    rw [run_of_overview rfl hhome, leave_of_not_recordable hr 0 (newsIn_eq_some_iff.mpr hoffers)]
  refine ⟨hoffers, ⟨t, hhome⟩, ⟨_, hrun⟩, fun rest h => ?_⟩
  have hstdout : ((run s []).after { tree := [] }).stdout =
      Text.ofString (helpOf s.environment []) := by
    rw [Act.after, hrun]
    exact List.nil_append _
  have hempty := List.self_eq_append_right.mp ((hstdout.symm.trans h).trans
    (List.append_assoc _ _ _))
  rw [List.append_eq_nil_iff] at hempty
  exact absurd hempty.1 (by decide)

end Program

end CommandGate
