import CommandGate.Proofs.Program.Steps
import CommandGate.Proofs.Tutorial.Storage

/-!
# What an Invocation Keeps of the Tree

An invocation changes the tree by making the home directory and the one that marks an
initialized installation, by setting the tutorial state, and by recording its events. A
relation that each of these keeps, an invocation keeps.

## Main results

* `Program.run_keeps`: the frame of an invocation.
-/

namespace CommandGate

open FileTree

namespace Directory

/-- Making a directory changes the tree only, and fails with what its folders fail with. -/
theorem create_apply (p : Path) (w : World) :
    create p w =
      match w.tree.makeFolders p with
      | (t, .ok ()) => .ok () { w with tree := t }
      | (t, .error (.refused errno _)) =>
        .error (.directory (.notCreated p errno)) { w with tree := t }
      | (t, .error .embeddedNul) => .error (.file .embeddedNul) { w with tree := t } := by
  rw [create]
  rw [World.change_apply]
  rw [make]
  generalize w.tree.makeFolders p = folders
  obtain ⟨t, f | ⟨⟩⟩ := folders
  · cases f <;> rfl
  · rfl

/-- Asking for a directory changes nothing. -/
theorem present_apply (p : Path) (w : World) :
    present p w =
      match w.tree.present p with
      | .ok found => .ok found w
      | .error f => .error (.file f) w := by
  rw [present]
  rw [World.look_apply]
  cases w.tree.present p <;> rfl

/-- Making a directory leaves the folders that could be made. -/
theorem make_fst (p : Path) (t : FileTree) : (make p t).1 = (t.makeFolders p).1 := by
  rw [make]
  generalize t.makeFolders p = folders
  obtain ⟨made, f | ⟨⟩⟩ := folders
  · cases f <;> rfl
  · rfl

/-- What making a directory comes to depends on what making its folders comes to. -/
theorem make_snd_congr {p : Path} {t u : FileTree}
    (h : (u.makeFolders p).2 = (t.makeFolders p).2) : (make p u).2 = (make p t).2 := by
  simp only [make]
  generalize t.makeFolders p = folders, u.makeFolders p = folders' at h ⊢
  obtain ⟨made, r⟩ := folders
  obtain ⟨made', r'⟩ := folders'
  obtain rfl : r' = r := h
  rcases r' with (⟨e, q⟩ | _) | _ <;> rfl

end Directory

/-- A look at the tree leaves the world as it is. -/
theorem World.after_look {α : Type} (f : FileTree → Except Fault α) (w : World) :
    (look f).after w = w := by
  rw [Act.after]
  rw [look_apply]
  cases f w.tree <;> rfl

/-- A change of the tree changes nothing else. -/
theorem World.after_change (f : FileTree → FileTree × Except Fault Unit) (w : World) :
    (change f).after w = { w with tree := (f w.tree).1 } := by
  rw [Act.after]
  rw [change_apply]
  generalize f w.tree = answer
  obtain ⟨t, e | ⟨⟩⟩ := answer <;> rfl

/-- However it ends, making a directory leaves the tree with the folders that were made. -/
theorem Directory.after_create (p : Path) (w : World) :
    (create p).after w = { w with tree := (w.tree.makeFolders p).1 } := by
  rw [create, World.after_change, make_fst]

namespace Telemetry

/-- Recording an event leaves the world as it is, or appends the line of a record. It does
nothing where telemetry is switched off. -/
theorem after_record (s : Surroundings) (e : Event) (w : World) :
    (record s e).after w = w ∨
      ∃ r, enabled s.environment = true ∧ Record.of s.clock e = .ok r ∧
        (record s e).after w =
          { w with tree := (appendLine s.settings.logFile r.line w.tree).1 } := by
  rw [record]
  split
  · rename_i hon
    cases hr : Record.of s.clock e with
    | error f => exact .inl rfl
    | ok r => exact .inr ⟨r, hon, rfl, World.after_change _ _⟩
  · exact .inl rfl

end Telemetry

namespace Program

variable {s s' : Surroundings} {made : List Path} {settable : String → Prop}
variable {R : FileTree → FileTree → Prop}

/-- What the changes of the tree keep, every basic step keeps. -/
theorem Basic.keeps {α : Type} {a b : Act World α} (h : Basic s s' made settable a b)
    (refl : ∀ t, R t t) (hmake : ∀ p ∈ made, ∀ t, R t (t.makeFolders p).1)
    (hset : ∀ state, settable state →
      ∀ t, R t (Tutorial.set s.settings.tutorialFile state t).1)
    (hlog : Telemetry.enabled s.environment = true →
      ∀ e r, Records s e → Telemetry.Record.of s.clock e = .ok r →
        ∀ t, R t (Telemetry.appendLine s.settings.logFile r.line t).1) :
    Act.Keeps (fun w w' => R w.tree w'.tree) a := by
  intro w
  cases h with
  | print stream t => cases stream <;> exact refl _
  | present =>
      rw [Directory.present, World.after_look]
      exact refl _
  | create hp =>
      rw [Directory.after_create]
      exact hmake _ hp _
  | findTutorial =>
      rw [World.after_look]
      exact refl _
  | setTutorial hstate =>
      rw [World.after_change]
      exact hset _ hstate _
  | send r => exact refl _
  | launch command => exact refl _
  | record he =>
      rcases Telemetry.after_record s _ w with hw | ⟨r, hon, hr, hw⟩
      · rw [hw]
        exact refl _
      · rw [hw]
        exact hlog hon _ r he hr _

/-- What the changes of the tree keep, everything put together from basic steps keeps. -/
theorem Pair.keeps {α : Type} {a b : Act World α} (h : Pair s s' made settable a b)
    (refl : ∀ t, R t t) (trans : ∀ t u v, R t u → R u v → R t v)
    (hmake : ∀ p ∈ made, ∀ t, R t (t.makeFolders p).1)
    (hset : ∀ state, settable state →
      ∀ t, R t (Tutorial.set s.settings.tutorialFile state t).1)
    (hlog : Telemetry.enabled s.environment = true →
      ∀ e r, Records s e → Telemetry.Record.of s.clock e = .ok r →
        ∀ t, R t (Telemetry.appendLine s.settings.logFile r.line t).1) (w : World) :
    R w.tree (a.after w).tree :=
  Act.Paired.keeps h (R := fun w w' => R w.tree w'.tree) (fun w => refl w.tree)
    (fun u v w => trans u.tree v.tree w.tree) (fun hb => hb.keeps refl hmake hset hlog) w

/-- **The frame of an invocation.** A relation between trees that making the home directory
keeps, and recording where telemetry is enabled, an invocation keeps. If it asks for the
installation to be set up, or for a tutorial state to be set, making the directory for that
and setting that state have to keep it too. -/
theorem run_keeps (refl : ∀ t, R t t) (trans : ∀ t u v, R t u → R u v → R t v)
    (args : List String) (hhome : ∀ t, R t (t.makeFolders s.settings.homeDir).1)
    (hinit : taskOf? args = some .init → ∀ t, R t (t.makeFolders s.settings.commonsDir).1)
    (hset : ∀ state, taskOf? args = some (.setTutorial (some state)) →
      ∀ t, R t (Tutorial.set s.settings.tutorialFile state t).1)
    (hlog : Telemetry.enabled s.environment = true →
      ∀ e r, Records s e → Telemetry.Record.of s.clock e = .ok r →
        ∀ t, R t (Telemetry.appendLine s.settings.logFile r.line t).1)
    (w : World) : R w.tree ((run s args).after w).tree := by
  have henv : s.environment.AgreesBut Telemetry.switchName s.environment := .refl _
  -- the directories that this invocation may make
  let made := s.settings.homeDir ::
    if taskOf? args = some .init then [s.settings.commonsDir] else []
  have hmake : ∀ p ∈ made, ∀ t, R t (t.makeFolders p).1 := by
    intro p hp t
    simp only [made, List.mem_cons] at hp
    rcases hp with rfl | hp
    · exact hhome t
    · split_ifs at hp with hi
      · rw [List.mem_singleton.mp hp]
        exact hinit hi t
      · simp at hp
  let settable (state : String) : Prop := taskOf? args = some (.setTutorial (some state))
  have hpair : Pair s (s.moved s.environment s.clock) made settable (run s args) (run _ args) :=
    run_paired henv (by simp [made]) args (fun hi => by simp [made, hi]) fun _ h => h
  exact hpair.keeps refl trans hmake hset hlog w

end Program

end CommandGate
