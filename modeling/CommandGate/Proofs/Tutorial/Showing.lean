import CommandGate.Proofs.Json.Display
import CommandGate.Proofs.Lifecycle.Stage
import CommandGate.Proofs.Session.Invocations
import CommandGate.Proofs.Tutorial.Finding

/-!
# When the Banner Is Shown

A tutorial file that holds an object leaves the tutorial on (`Tutorial.LeavesOn`) if none of its
members has the name of the state, or the last that has it is the string `on`. Then, and only
then, the state that is found is enabled, and the banner is shown after a command in an
installation that is not initialized. No other value is shown as the word `on`, so no other value
is taken for it.

What comes after a command begins with the look for a version. Whether the installation is
initialized is asked after that look, and in the world that it leaves.

## Main results

* `Tutorial.display_eq_on_iff`: only the string `on` is shown as `on`.
* `Tutorial.shows_exactly_on`: what an object means where it stands in the tutorial file.
-/

namespace CommandGate

/-! ### After a command -/

namespace Program

/-- An installation is **found uninitialized** after a command: the look for a version has ended,
and the commons directory is absent then. -/
structure FoundUninitialized (s : Surroundings) (stream : Stream) (path : String) (w w' : World) :
    Prop where
  checked : Lifecycle.verifyNewVersion (collaborators s stream) s.settings path w = .ok () w'
  absent : w'.tree.present s.settings.commonsDir = .ok false

variable {s : Surroundings} {stream : Stream} {path : String} {w w' : World}

/-- An installation that is found uninitialized shows the banner of the state that is found. -/
theorem FoundUninitialized.postRun (h : FoundUninitialized s stream path w w')
    {tutorial : Tutorial}
    (hfind : Tutorial.find s.settings.tutorialFile w'.tree = .ok tutorial) :
    Lifecycle.postRun (collaborators s stream) s.settings path w =
      .ok () ((World.print stream tutorial.banner).after w') := by
  have hpost : Lifecycle.postRun (collaborators s stream) s.settings path = (do
      Lifecycle.verifyNewVersion (collaborators s stream) s.settings path
      let found ← Directory.present s.settings.commonsDir
      if found then pure ()
      else do
        let tutorial ← tryCatch (World.look (Tutorial.find s.settings.tutorialFile))
          (noteTutorial s path)
        World.print stream tutorial.banner) := postRun_eq stream
  rw [hpost, Act.bind_apply, h.checked]
  dsimp only
  rw [Act.bind_apply, Directory.present_apply, h.absent]
  dsimp only
  rw [if_neg (by simp), Act.bind_apply, Act.tryCatch_apply, World.look_apply, hfind]
  cases stream <;> rfl

end Program

namespace Tutorial

open Json (Document ShortLength)
open Program (collaborators FoundUninitialized)

/-- The value of the last member with the name of the state. -/
def stateOf? (ms : List (Text × Json)) : Option Json :=
  Json.lastMember? memberName ms

/-- Members that **leave the tutorial on**: none has the name of the state, or the last one that
has it is the string `on`. -/
def LeavesOn (ms : List (Text × Json)) : Prop :=
  stateOf? ms = none ∨ stateOf? ms = some (.string on)

/-- What an object with the members **means** where its bytes stand in a file. -/
structure Means (bytes : Bytes) (ms : List (Text × Json)) : Prop where
  /-- The file holds a state. It is enabled exactly if the members leave the tutorial on, and it
  is the string that the last member with its name holds. -/
  found : ∀ path t, t.stat path = .ok (.file bytes) → ∃ found, find path t = .ok found ∧
    (found.enabled = true ↔ LeavesOn ms) ∧
      ∀ text, stateOf? ms = some (.string text) → found.current = text
  /-- What comes after a command shows the banner exactly if the members leave the tutorial on,
  and nothing exactly otherwise. -/
  shown : ∀ s stream path w w', FoundUninitialized s stream path w w' →
    w'.tree.stat s.settings.tutorialFile = .ok (.file bytes) →
      ∃ text, Lifecycle.postRun (collaborators s stream) s.settings path w =
          .ok () ((World.print stream text).after w') ∧
        (text = banner ⟨on⟩ ↔ LeavesOn ms) ∧ (text = [] ↔ ¬ LeavesOn ms)

/-! ### The state of an object -/

/-- **Only the string `on` is shown as `on`.** -/
theorem display_eq_on_iff (v : Json) : Json.display v = Text.ofString on ↔ v = .string on := by
  have hbegins : ¬ Json.BeginsShown 'o' := by
    rw [Json.BeginsShown]
    decide
  exact Json.display_eq_cons_iff hbegins

/-- The state that an object with the members holds. -/
def stateOf (ms : List (Text × Json)) : Tutorial :=
  ⟨((stateOf? ms).map Json.display).getD on⟩

/-- The state of an object is on exactly if its members leave it on. -/
theorem enabled_stateOf (ms : List (Text × Json)) : (stateOf ms).enabled = true ↔ LeavesOn ms := by
  rw [enabled, decide_eq_true_iff, stateOf, LeavesOn]
  cases stateOf? ms with
  | none => simp
  | some v =>
      rw [Option.map_some, Option.getD_some, display_eq_on_iff]
      simp

variable {path : Path} {t : FileTree} {bytes : Bytes} {text : Text} {ms : List (Text × Json)}

/-- The state in a text that is an object. -/
theorem ofDocument_of_object (h : Document ShortLength (.object ms) text) :
    ofDocument path (unifyLines text) = .ok (stateOf ms) := by
  have hparse : Json.parse (unifyLines text) = .ok (.object (Json.collect [] ms)) := by
    rw [Json.parse_eq_ok_iff, Json.document_unifyLines, Json.document_object_iff]
    exact ⟨ms, rfl, h⟩
  have hmember : Json.member? memberName (Json.collect [] ms) = stateOf? ms := by
    rw [Json.member?_collect, Json.member?, Option.or_none, stateOf?]
  rw [ofDocument, hparse]
  dsimp only
  rw [hmember, stateOf]

/-- **The state that is found** in a file with an object. -/
theorem find_of_object (hbytes : Utf8.encode text = .ok bytes)
    (h : Document ShortLength (.object ms) text) (hfile : t.stat path = .ok (.file bytes)) :
    find path t = .ok (stateOf ms) := by
  rw [find_of_file hfile, ofBytes_of_encode hbytes, ofDocument_of_object h]

/-! ### The banner -/

/-- There is something to show while the tutorial is on. -/
theorem banner_on_ne_nil : banner ⟨on⟩ ≠ [] := by
  decide

/-- Every state that is on has the same banner. -/
theorem banner_of_enabled {tutorial : Tutorial} (h : tutorial.enabled = true) :
    tutorial.banner = banner ⟨on⟩ := by
  rw [banner, if_pos h, banner, if_pos (by decide)]

/-- A state that is not on has none. -/
theorem banner_of_not_enabled {tutorial : Tutorial} (h : ¬ tutorial.enabled = true) :
    tutorial.banner = [] := by
  rw [banner, if_neg h]

/-- **What an object means** in a tutorial file: only a last member that is the string `on`, or
none, has the banner shown, and no other value is shown as `on`. -/
theorem shows_exactly_on (hbytes : Utf8.encode text = .ok bytes)
    (h : Document ShortLength (.object ms) text) :
    Means bytes ms ∧ ∀ v, Json.display v = Text.ofString on ↔ v = .string on := by
  refine ⟨⟨?_, ?_⟩, display_eq_on_iff⟩
  · intro path t hfile
    refine ⟨stateOf ms, find_of_object hbytes h hfile, enabled_stateOf ms, ?_⟩
    intro text htext
    rw [stateOf, htext]
    rfl
  · intro s stream path w w' hu hfile
    have hpost := hu.postRun (find_of_object hbytes h hfile)
    refine ⟨_, hpost, ?_⟩
    rw [← enabled_stateOf]
    by_cases hon : (stateOf ms).enabled = true
    · rw [banner_of_enabled hon]
      exact ⟨iff_of_true rfl hon, iff_of_false banner_on_ne_nil (not_not_intro hon)⟩
    · rw [banner_of_not_enabled hon]
      exact ⟨iff_of_false banner_on_ne_nil.symm hon, iff_of_true rfl hon⟩

/-- An object in which the state is given twice. -/
def revisedText : String :=
  "\x7b\"tutorial\": \"off\", \"tutorial\": \"on\"\x7d"

/-- The bytes of that object. -/
def revisedBytes : Bytes :=
  revisedText.toList.flatMap Utf8.encodeChar

/-- The members of that object. -/
def revisedMembers : List (Text × Json) :=
  [(memberName, .string "off"), (memberName, .string on)]

/-- The revised text is a document of its members. -/
theorem document_revisedText : Document ShortLength (.object revisedMembers) revisedText := by
  have hnone : Json.AreSpaces [] := Json.areSpaces_nil
  have hspace : Json.AreSpaces [.scalar ' '] := by simp [Json.AreSpaces]
  have string (s : String) : Json.SpellsString s (Json.writeString .line s) :=
    Json.spellsString_writeString (Text.isScalar_ofString s)
  have hlast : Json.Spells ShortLength (.members [(memberName, .string on)]) _ :=
    .lastMember (.member (string memberName) hnone hspace (.string (string on))) hnone
  have hmembers : Json.Spells ShortLength (.members revisedMembers) _ :=
    .nextMember (.member (string memberName) hnone hspace (.string (string "off"))) hnone hspace
      hlast
  exact ⟨[], _, [], by decide +kernel, hnone, hnone, .fullObject hnone hmembers⟩

/-- That object in the file of an installation that is not initialized: the banner is shown after
a command. -/
theorem shows_exactly_on_revised :
    let s := Session.atHome
    let w : World := { tree := [("home", .folder [("tutorial.json", .file revisedBytes)])] }
    Utf8.encode revisedText = .ok revisedBytes ∧
      Document ShortLength (.object revisedMembers) revisedText ∧
      Means revisedBytes revisedMembers ∧ LeavesOn revisedMembers ∧
      FoundUninitialized s .stdout "rit tutorial" w w ∧
      w.tree.stat s.settings.tutorialFile = .ok (.file revisedBytes) ∧
      Lifecycle.postRun (collaborators s .stdout) s.settings "rit tutorial" w =
        .ok () ((World.print .stdout (banner ⟨on⟩)).after w) := by
  intro s w
  have hencode : Utf8.encode revisedText = .ok revisedBytes := Utf8.encode_map_scalar _
  have hmeans := (shows_exactly_on hencode document_revisedText).1
  have hon : LeavesOn revisedMembers := .inr rfl
  have hu : FoundUninitialized s .stdout "rit tutorial" w w := ⟨rfl, rfl⟩
  have hfile : w.tree.stat s.settings.tutorialFile = .ok (.file revisedBytes) := rfl
  obtain ⟨text, hpost, htext, -⟩ := hmeans.shown s .stdout "rit tutorial" w w hu hfile
  rw [htext.mpr hon] at hpost
  exact ⟨hencode, document_revisedText, hmeans, hon, hu, hfile, hpost⟩

end Tutorial

end CommandGate
