import CommandGate.Program.Run
import CommandGate.Proofs.Telemetry.Recording

/-!
# The Events of the Program

`Program.Records` lists the events that the program records, in one place for all of its
steps. Their names are never blank, their particulars are objects, and the messages in them
hold no surrogates, so each of them is sound.

## Main results

* `Program.Records.sound`: every event that the program records is sound.
-/

namespace CommandGate

/-! ### Messages without surrogates -/

namespace Text

/-- A code point that is no surrogate is quoted without surrogates. -/
theorem isScalar_quotedPoint (mark : Char) {c : CodePoint} (h : c.isSurrogate = false) :
    (quotedPoint mark c).IsScalar := by
  rw [quotedPoint]
  split_ifs <;> first | exact isScalar_ofString _ | exact isScalar_map_scalar _ | simp [h]

/-- Text without surrogates is quoted without them. -/
theorem IsScalar.quoted {t : Text} (h : t.IsScalar) : t.quoted.IsScalar := by
  have inner : Text.IsScalar (t.flatMap (quotedPoint t.quoteMark)) :=
    .flatMap fun c hc => isScalar_quotedPoint _ (h c hc)
  simp [Text.quoted, inner]

end Text

/-- What the system says of a refusal has no surrogates. -/
theorem isScalar_refusalText (number : Int) (reason name : String) :
    (refusalText number reason name).IsScalar := by
  simp [refusalText, (Text.isScalar_ofString name).quoted]

/-- The messages of directories have no surrogates. -/
theorem DirectoryFault.isScalar_message (f : DirectoryFault) : f.message.IsScalar := by
  cases f <;> simp [DirectoryFault.message]

/-- The messages of the tutorial have no surrogates. -/
theorem TutorialFault.isScalar_message (f : TutorialFault) : f.message.IsScalar := by
  cases f with
  | unreadable path cause =>
      cases cause <;> simp [TutorialFault.message, UnreadableCause.message, FileFault.message,
        isScalar_refusalText]
  | notObject path => simp [TutorialFault.message]
  | reported message => simp [TutorialFault.message]

namespace Program

open Telemetry (Event Record)

/-- The events that the program records in some surroundings. -/
inductive Records (s : Surroundings) : Event → Prop where
  | directoryFailed (path : String) (fault : DirectoryFault) :
    Records s (Lifecycle.commandEvent "lifecycle.directory_failed" path
      [("home", .string s.settings.homeDir.toString), ("error", .string fault.message)])
  | blocked (path : String) : Records s (Lifecycle.commandEvent "lifecycle.blocked" path [])
  | versionChecked (latest : Option String) :
    Records s {
      name := .string "version.check"
      payload := .object [("current", .string s.settings.version),
        ("latest", (latest.map fun v => Json.string v).getD .null)]
      status := .string (if latest.any (· ≠ "") then "outdated" else "current") }
  | tutorialFailed (path : String) (fault : TutorialFault) :
    Records s (Lifecycle.commandEvent "tutorial.failed" path [("error", .string fault.message)])
  | initFailed (fault : DirectoryFault) :
    Records s (event "init" [("status", .string "failed"), ("error", .string fault.message)] .error)
  | initDone (already : Bool) :
    Records s (event "init"
      [("status", .string "ok"), ("already_initialized", .bool already)] .info)
  | upgradeShown (mode : UpgradeMode) :
    Records s (event "upgrade" [("mode", mode.toJson)] .info)
  | upgradeEnded (mode : UpgradeMode) (code : Int) : s.launch = .ended code →
    Records s (event "upgrade" [("mode", mode.toJson), ("exit_code", .integer code)] .info)
  | upgradeNotStarted (mode : UpgradeMode) (errno : Int) (reason name : String) :
    Records s (event "upgrade"
      [("mode", mode.toJson), ("error", .string (refusalText errno reason name))] .error)
  | tutorialSet (state : String) :
    Records s (event "tutorial.set" [("state", .string state)] .info)

variable {s : Surroundings} {e : Event}

/-- The mode of an upgrade has no surrogates, also where it is no word. -/
theorem isScalar_mode (mode : UpgradeMode) : mode.toJson.IsScalar := by
  cases mode <;> simp [UpgradeMode.toJson, UpgradeMode.name?, Json.IsScalar, Json.Holds,
    Json.ItemsHold]

/-- **The events of the program are sound.** -/
theorem Records.sound (h : Records s e) : e.Sound := by
  -- an event without a status, whose texts are shown to have no surrogates
  have plain {name : String} {members : List (Text × Json)} {l : Telemetry.Level}
      (hn : (Text.ofString name).isBlank = false)
      (hm : Json.MembersHold Text.IsScalar (fun _ => True) members) :
      Event.Sound { name := .string name, payload := .object members, level := .string l.name } :=
    have hst : Record.statusOf .null = .ok none := rfl
    Event.sound hn (by simp) hm hst (by simp)
  cases h with
  | directoryFailed path fault =>
      refine plain (l := .info) (by decide) ?_
      simp [Json.MembersHold, Json.MemberHolds, Json.Holds, fault.isScalar_message]
  | blocked path =>
      refine plain (l := .info) (by decide) ?_
      simp [Json.MembersHold, Json.MemberHolds, Json.Holds]
  | versionChecked latest =>
      have hst : Record.statusOf (.string (if latest.any (· ≠ "") then "outdated" else "current")) =
          .ok (some (if latest.any (· ≠ "") then "outdated" else "current")) := by
        split <;> rfl
      refine Event.sound (l := .info) (by decide) (by simp) ?_ hst fun t ht => ?_
      · cases latest <;> simp [Json.MembersHold, Json.MemberHolds, Json.Holds]
      · obtain rfl := Option.some.inj ht
        split <;> simp
  | tutorialFailed path fault =>
      refine plain (l := .info) (by decide) ?_
      simp [Json.MembersHold, Json.MemberHolds, Json.Holds, fault.isScalar_message]
  | initFailed fault =>
      refine plain (by decide) ?_
      simp [Json.MembersHold, Json.MemberHolds, Json.Holds, fault.isScalar_message]
  | initDone already =>
      exact plain (by decide) (by simp [Json.MembersHold, Json.MemberHolds, Json.Holds])
  | upgradeShown mode =>
      refine plain (by decide) ?_
      simpa [Json.MembersHold, Json.MemberHolds] using isScalar_mode mode
  | upgradeEnded mode code hcode =>
      refine plain (by decide) ?_
      simpa [Json.MembersHold, Json.MemberHolds, Json.Holds] using isScalar_mode mode
  | upgradeNotStarted mode errno reason name =>
      refine plain (by decide) ?_
      simpa [Json.MembersHold, Json.MemberHolds, Json.Holds, isScalar_refusalText]
        using isScalar_mode mode
  | tutorialSet state =>
      exact plain (by decide) (by simp [Json.MembersHold, Json.MemberHolds, Json.Holds])

end Program

end CommandGate
