import CommandGate.Proofs.Program.Endings
import CommandGate.Proofs.Program.Noninterference
import CommandGate.Proofs.Program.Touches

/-!
# Invocations Made Twice

A step repeats if it ends as before when it is taken again from the state that it left. Making
folders and setting the tutorial state repeat, because each finds its own work done. What comes
after them in a command changes nothing but the logs, and the gate, which lets a command pass
because of what stands, does so again. So an invocation repeats as a whole, up to the logs.

## Main results

* `FileTree.makeFolders_again_of_refused`, `Tutorial.set_again`: changes made twice.
* `Act.Repeats.bind`: a step that repeats, and one after it that keeps the state as good as it
  was.
* `Program.run_repeats`: an invocation made again, from any world with the tree that it left.
-/

namespace CommandGate

open FileTree

/-! ### Changes of the tree made twice -/

namespace FileTree

namespace AgreeOutside

variable {here : Location} {t u v : FileTree}

theorem refl (t : FileTree) : AgreeOutside here t t :=
  fun _ _ => rfl

theorem symm (h : AgreeOutside here t u) : AgreeOutside here u t :=
  fun m hm => (h m hm).symm

theorem trans (h : AgreeOutside here t u) (h' : AgreeOutside here u v) : AgreeOutside here t v :=
  fun m hm => (h' m hm).trans (h m hm)

end AgreeOutside

/-- **Folders that were refused** are refused again, and nothing more is made. -/
theorem makeFolders_again_of_refused {t made : FileTree} {p q : Path} {e : Errno}
    (hn : p.IsPlain) (h : t.makeFolders p = (made, .error (.refused e q))) :
    ∃ e', made.makeFolders p = (made, .error (.refused e' p)) := by
  have hnul : p.hasNul = false := by
    by_contra hnul
    rw [makeFolders_of_hasNul (by simpa using hnul)] at h
    cases h
  by_cases hs : maxPathBytes < p.toString.utf8ByteSize
  · exact ⟨_, makeFolders_of_long hnul hs⟩
  · rcases makeFolders_cases (t := t) hn ⟨hnul, Nat.not_lt.mp hs⟩ with ⟨hok, -⟩ | ⟨-, hbarred, -⟩
    · rw [h] at hok
      cases hok
    · rw [h] at hbarred
      exact makeFolders_of_barred hn hnul hbarred

end FileTree

namespace Tutorial

/-- **Setting a state twice** where the folder of its file is there: the second time comes to the
same as the first and changes nothing. -/
theorem set_again {path : Path} (hp : path.IsPlain) (state : String) {t : FileTree}
    (hfolder : t.makeFolders path.parent = (t, .ok ())) :
    (set path state (set path state t).1).2 = (set path state t).2 ∧
      ∀ m, look (set path state (set path state t).1).1 m = look (set path state t).1 m := by
  cases hset : (set path state t).2 with
  | error f =>
      -- what failed changed nothing
      have hsame : (set path state t).1 = t := by
        rw [set] at hset ⊢
        split_ifs at hset ⊢ with hs
        · rw [hfolder] at hset ⊢
          dsimp only at hset ⊢
          cases hw : t.write path (fileContent ⟨state⟩) with
          | error g => rfl
          | ok written => simp [hw] at hset
        · rfl
      rw [hsame]
      exact ⟨hset, fun m => by rw [hsame]⟩
  | ok =>
      have hstored := stored_of_set hset
      generalize (set path state t).1 = written at hstored ⊢
      refine ⟨hstored.set hp hstored.mem, fun m => ?_⟩
      rcases hw : written.write path (fileContent ⟨state⟩) with f | again
      · have hok := hstored.set hp hstored.mem
        simp [set, hstored.mem, hstored.makeFolders_parent hp, hw] at hok
      · have hwritten : (set path state written).1 = again := by
          simp [set, hstored.mem, hstored.makeFolders_parent hp, hw]
        rw [hwritten, (update_look hw).2]
        split_ifs with hm
        · rw [hm, hstored.look]
        · rfl

end Tutorial

/-! ### Steps taken twice -/

namespace Act

variable {σ α β : Type} {R S T : σ → σ → Prop}

/-- Ends that are alike through a third one are alike, with the relations composed. -/
theorem EndsAlike.comp {end₁ end₂ end₃ : EStateM.Result Fault σ α}
    (hT : ∀ u v w, R u v → S v w → T u w) (h : EndsAlike R end₁ end₂) (h' : EndsAlike S end₂ end₃) :
    EndsAlike T end₁ end₃ := by
  cases h with
  | ok x h =>
      cases h' with
      | ok _ h' => exact .ok x (hT _ _ _ h h')
  | error e h =>
      cases h' with
      | error _ h' => exact .error e (hT _ _ _ h h')

/-- A step **repeats** if it ends as before when it is taken again from the state that it left.
The states that a relation is about are those that are related to themselves. -/
def Repeats (R : σ → σ → Prop) (a : Act σ α) : Prop :=
  ∀ w, R w w → EndsAlike R (a w) (a (a.after w))

/-- A step is **quiet** if the state that it leaves is related to the one that it found. -/
def Quiet (R : σ → σ → Prop) (a : Act σ α) : Prop :=
  ∀ w, R w w → R w (a.after w)

/-- A quiet step repeats. -/
theorem Quiet.repeats {a : Act σ α} (h : Quiet R a) (ha : Alike R a a) : Repeats R a :=
  fun w hw => ha _ _ (h w hw)

/-- **A step that repeats, and a quiet one after it.** The first finds again what it found, because
the second left that as it was. -/
theorem Repeats.bind {a : Act σ α} {f : α → Act σ β} (symm : ∀ u v, R u v → R v u)
    (trans : ∀ u v w, R u v → R v w → R u w) (h : Repeats R a) (ha : Alike R a a)
    (hquiet : ∀ x, Quiet R (f x)) (hf : ∀ x, Alike R (f x) (f x)) : Repeats R (a >>= f) := by
  intro w hw
  have hagain := h w hw
  rw [after] at hagain
  rw [after_bind, bind_apply, bind_apply]
  cases haw : a w with
  | error e w₁ =>
      rw [haw] at hagain
      dsimp only at hagain ⊢
      generalize a w₁ = again at hagain ⊢
      cases hagain with
      | error _ hends => exact .error e hends
  | ok x w₁ =>
      rw [haw] at hagain
      dsimp only at hagain ⊢
      have hself : R w₁ w₁ := by
        generalize a w₁ = again at hagain
        cases hagain with
        | ok _ hends => exact trans _ _ _ hends (symm _ _ hends)
      have hends : EndsAlike R (.ok x w₁) (a ((f x).after w₁)) :=
        hagain.comp trans (ha _ _ (hquiet x w₁ hself))
      generalize a ((f x).after w₁) = again at hends ⊢
      cases hends with
      | ok _ hafter => exact hf x _ _ hafter

end Act

/-! ### Worlds that agree but for the logs -/

/-- Two worlds whose trees agree outside a location. -/
def World.AgreeBut (here : Location) (w w' : World) : Prop :=
  AgreeOutside here w.tree w'.tree

/-- Two ends that a tree alone decides. -/
theorem World.look_sameTree {α : Type} (f : FileTree → Except Fault α) {w w' : World}
    (h : w'.tree = w.tree) :
    Act.EndsAlike (fun w w' => w'.tree = w.tree) (look f w) (look f w') := by
  rw [look_apply, look_apply, h]
  cases f w.tree with
  | ok x => exact .ok x h
  | error e => exact .error e h

/-- A change of equal trees ends alike, whatever else is in the worlds. -/
theorem World.change_sameTree (f : FileTree → FileTree × Except Fault Unit) {w w' : World}
    (h : w'.tree = w.tree) :
    Act.EndsAlike (fun w w' => w'.tree = w.tree) (change f w) (change f w') := by
  rw [change_apply, change_apply, h]
  generalize f w.tree = answer
  obtain ⟨t, e | ⟨⟩⟩ := answer
  · exact .error e rfl
  · exact .ok () rfl

namespace Program

/-- Two worlds whose trees agree but for the logs, with the home directory there. -/
structure Agreed (settings : Settings) (w w' : World) : Prop where
  trees : w.AgreeBut (settings.homeDir.names ++ ["logs"]) w'
  home : w.tree.Passable [] settings.homeDir.names

namespace Agreed

variable {settings : Settings} {u v w : World}

theorem refl (h : w.tree.Passable [] settings.homeDir.names) : Agreed settings w w :=
  ⟨.refl _, h⟩

/-- Trees that agree but for the logs have the home directory in common. -/
theorem home_right (h : Agreed settings u v) : v.tree.Passable [] settings.homeDir.names :=
  AgreeOutside.passable h.trees (not_append_front (by simp)) h.home

theorem symm (h : Agreed settings u v) : Agreed settings v u :=
  ⟨AgreeOutside.symm h.trees, h.home_right⟩

theorem trans (h : Agreed settings u v) (h' : Agreed settings v w) : Agreed settings u w :=
  ⟨AgreeOutside.trans h.trees h'.trees, h.home⟩

end Agreed

variable {s s' : Surroundings} {env : Environment} {clock : Binary64} {made : List Path}
variable {settable : String → Prop} {args : List String} {path : String}
variable {command : Act World Int} {w w' : World}

/-- In the same surroundings a basic step corresponds to itself only. -/
theorem Basic.eq {α : Type} {a b : Act World α} (h : Basic s s made settable a b) : a = b := by
  cases h <;> rfl

/-- A basic step is decided by the tree. -/
theorem Basic.sameTree {α : Type} {a b : Act World α} (h : Basic s s' made settable a b) :
    Act.Alike (fun w w' => w'.tree = w.tree) a a := by
  intro w w' htree
  cases h with
  | print stream t => cases stream <;> exact .ok () htree
  | present => exact World.look_sameTree _ htree
  | create hp => exact World.change_sameTree _ htree
  | findTutorial => exact World.look_sameTree _ htree
  | setTutorial hstate => exact World.change_sameTree _ htree
  | send r => exact .ok _ htree
  | launch command => exact .ok _ htree
  | @record e he =>
      rw [Telemetry.record]
      split
      · cases Telemetry.Record.of s.clock e with
        | error fault => exact .error _ htree
        | ok r => exact World.change_sameTree _ htree
      · exact .ok () htree

section Usual

variable (hs : s.settings.Usual) (hn : s.settings.homeDir.hasNul = false)

include hs hn

/-- **Steps put together from basic ones are alike** from worlds whose trees agree but for the
logs. -/
theorem Pair.agreed (hmade : ∀ p ∈ made, p = s.settings.homeDir ∨ p = s.settings.commonsDir)
    {α : Type} {a b : Act World α} (h : Pair s (s.moved env clock) made settable a b) :
    Act.Alike (Agreed s.settings) a b := by
  refine h.alike fun hb w w' hw => ?_
  -- the outputs of the second world do not matter, and then only the trees differ
  let moved : World := { w' with tree := w.tree }
  have hsettled : Settled s.settings moved w' := ⟨⟨w'.tree, hw.trees, rfl⟩, hw.home⟩
  refine (hb.sameTree w moved rfl).comp (fun u v x huv hvx => ?_)
    (hb.alike hs hn hmade moved w' hsettled)
  obtain ⟨⟨tree, htree, rfl⟩, hhome⟩ := hvx
  rw [huv] at htree hhome
  exact ⟨htree, hhome⟩

/-- **Steps that make and set nothing are quiet.** -/
theorem Pair.quiet {α : Type} {a b : Act World α} (h : Pair s s' [] (fun _ => False) a b) :
    Act.Quiet (Agreed s.settings) a := by
  have hkeeps : Act.Keeps (fun w w' => Agreed s.settings w w → Agreed s.settings w w') a := by
    refine Act.Paired.keeps h (fun _ h => h) (fun u v w huv hvw hu => ?_) fun hb w hw => ?_
    · exact (huv hu).trans (hvw (.refl (huv hu).home_right))
    · cases hb with
      | print stream t => cases stream <;> exact ⟨hw.trees, hw.home⟩
      | present =>
          rw [Directory.present, World.after_look]
          exact hw
      | create hp => simp at hp
      | findTutorial =>
          rw [World.after_look]
          exact hw
      | setTutorial hstate => exact hstate.elim
      | send r => exact ⟨hw.trees, hw.home⟩
      | launch command => exact ⟨hw.trees, hw.home⟩
      | record he =>
          obtain ⟨t, hrecord, ht⟩ := record_of_passable hs hn he.sound hw.home
          rw [Act.after, hrecord]
          exact ⟨ht, hw.home⟩
  exact hkeeps

end Usual

/-! ### Setting up twice -/

/-- What setting up does once its directory is made or refused. -/
def finishSetUp (s : Surroundings) (already : Bool) : Option DirectoryFault → Act World Int
  | some fault => do
    reportFailure fault.message
    Telemetry.record s
      (event "init" [("status", .string "failed"), ("error", .string fault.message)] .error)
    pure 1
  | none => do
    Telemetry.record s
      (event "init" [("status", .string "ok"), ("already_initialized", .bool already)] .info)
    World.printLine .stdout (setUpLine s already)
    pure 0

/-- Setting up makes the commons, and concludes with whether they were there before. -/
theorem setUp_apply {already : Bool} (h : w.tree.present s.settings.commonsDir = .ok already) :
    setUp s w =
      match w.tree.makeFolders s.settings.commonsDir with
      | (t, .ok ()) => finishSetUp s already none { w with tree := t }
      | (t, .error (.refused errno _)) =>
        finishSetUp s already (some (.notCreated s.settings.commonsDir errno)) { w with tree := t }
      | (t, .error .embeddedNul) => .error (.file .embeddedNul) { w with tree := t } := by
  rw [setUp_eq, Act.bind_apply, Directory.present_apply, h]
  dsimp only
  rw [Act.bind_apply, Act.tryCatch_apply, Act.bind_apply, Directory.create_apply]
  rcases w.tree.makeFolders s.settings.commonsDir with ⟨t, (⟨e, q⟩ | _) | _⟩ <;> rfl

section Usual

variable (hs : s.settings.Usual) (hn : s.settings.homeDir.hasNul = false)

include hs hn

/-- Finishing changes nothing but the logs. -/
theorem finishSetUp_ends (already : Bool) (failure : Option DirectoryFault)
    (hhome : w.tree.Passable [] s.settings.homeDir.names) :
    ∃ w', finishSetUp s already failure w = .ok (if failure.isSome then 1 else 0) w' ∧
      Agreed s.settings w w' := by
  cases failure with
  | none =>
      obtain ⟨t, hrecord, ht⟩ := record_of_passable hs hn (Records.initDone (s := s) already).sound
        hhome
      rw [finishSetUp, Act.bind_apply, hrecord]
      exact ⟨_, rfl, ht, hhome⟩
  | some fault =>
      obtain ⟨t, hrecord, ht⟩ := record_of_passable hs hn (Records.initFailed (s := s) fault).sound
        (w := w.complaining fault.message) hhome
      have hreport : reportFailure fault.message w = .ok () (w.complaining fault.message) := rfl
      rw [finishSetUp, Act.bind_apply, hreport]
      dsimp only
      rw [Act.bind_apply, hrecord]
      exact ⟨_, rfl, ht, hhome⟩

/-- **Setting up** ends with 0 where its directory is made, and with 1 where that is refused;
after that it changes nothing but the logs. -/
theorem setUp_ends_of_makeFolders (hf : s.settings.commonsDir.Fits)
    (hhome : w.tree.Passable [] s.settings.homeDir.names) {t : FileTree}
    {r : Except FileFault Unit} (h : w.tree.makeFolders s.settings.commonsDir = (t, r)) :
    ∃ w', setUp s w = .ok (if r.isOk then 0 else 1) w' ∧
      Agreed s.settings { w with tree := t } w' := by
  have hpresent := present_of_nameable (t := w.tree) hs.commonsDir_plain
    (Settings.nameable_commonsDir hf hhome)
  have hadd := addsFolders_of_makeFolders h
  have hhome' : t.Passable [] s.settings.homeDir.names := hhome.addsFolders hadd
  rw [setUp_apply hpresent, h]
  rcases r with (⟨e, q⟩ | _) | _
  · exact finishSetUp_ends hs hn _ _ (w := { w with tree := t }) hhome'
  · exact absurd (by rw [h]) (makeFolders_ne_embeddedNul (t := w.tree) hf.1)
  · exact finishSetUp_ends hs hn _ _ (w := { w with tree := t }) hhome'

/-- **Setting up repeats.** -/
theorem setUp_repeats : Act.Repeats (Agreed s.settings) (setUp s) := by
  intro w hw
  by_cases hf : s.settings.commonsDir.Fits
  swap
  · have hlong (v : World) : setUp s v =
        .error (.file (.refused .nameTooLong s.settings.commonsDir)) v := by
      rw [setUp_eq, Act.bind_apply, Directory.present_apply, present_commonsDir_of_not_fits hn hf]
    rw [Act.after, hlong]
    dsimp only
    rw [hlong]
    exact .error _ hw
  have hplain := hs.commonsDir_plain
  rcases hmake : w.tree.makeFolders s.settings.commonsDir with ⟨t, r⟩
  obtain ⟨w₁, hfirst, hw₁⟩ := setUp_ends_of_makeFolders hs hn hf hw.home hmake
  -- what was made stands, and what was refused is refused
  obtain ⟨r', hagain, hr⟩ : ∃ r', t.makeFolders s.settings.commonsDir = (t, r') ∧
      r'.isOk = r.isOk := by
    rcases r with (⟨e, q⟩ | _) | _
    · obtain ⟨e', he'⟩ := makeFolders_again_of_refused hplain hmake
      exact ⟨_, he', rfl⟩
    · exact absurd (by rw [hmake]) (makeFolders_ne_embeddedNul (t := w.tree) hf.1)
    · exact ⟨_, (stands_of_makeFolders hmake).makeFolders, rfl⟩
  have hnotlogs : ¬ s.settings.homeDir.names ++ ["logs"] <+: s.settings.commonsDir.names :=
    not_logs_front (by simp)
  obtain ⟨hanswer, hafter⟩ := AgreeOutside.makeFolders hw₁.trees hplain hnotlogs
  rcases hmake' : w₁.tree.makeFolders s.settings.commonsDir with ⟨t', r''⟩
  simp only [hagain, hmake'] at hanswer hafter
  obtain ⟨w₂, hsecond, hw₂⟩ := setUp_ends_of_makeFolders hs hn hf hw₁.home_right hmake'
  rw [Act.after, hfirst]
  dsimp only
  rw [hsecond, hanswer, hr]
  refine .ok _ ?_
  have hmiddle : Agreed s.settings w₁ { w₁ with tree := t' } :=
    hw₁.symm.trans ⟨hafter, hw₁.home⟩
  exact hmiddle.trans hw₂

end Usual

/-- Worlds that are the same but for the logs agree but for them. -/
theorem Settled.agreed {settings : Settings} (h : Settled settings w w') :
    Agreed settings w w' := by
  obtain ⟨⟨u, hu, rfl⟩, hhome⟩ := h
  exact ⟨hu, hhome⟩

/-- What an invocation carries out is put together in one way. -/
theorem CarriesOut.paired (hc : CarriesOut s args path command) :
    Pair s (s.moved s.environment s.clock) [s.settings.commonsDir] (fun _ => True) command
      command := by
  cases hc with
  | completion words => exact complete_paired words
  | @task _ task ht =>
      exact body_paired (.refl _) task (fun _ => List.mem_singleton_self _)
        fun _ _ => trivial

section Fits

variable (hs : s.settings.Usual) (hf : s.settings.homeDir.Fits)

include hs hf

/-- **Setting a tutorial state repeats.** -/
theorem setTutorial_repeats (state : Option String) :
    Act.Repeats (Agreed s.settings) (setTutorial s state) := by
  cases state with
  | none => exact fun w hw => .error _ hw
  | some state =>
      let finish : Act World Int := do
        Telemetry.record s (event "tutorial.set" [("state", .string state)] .info)
        World.printLine .stdout s!"Tutorial {state}"
        pure 0
      have hfinish : Pair s (s.moved s.environment s.clock) [] (fun _ => False) finish finish :=
        .bind (.basic (.record (.tutorialSet state))) fun _ =>
          .bind (printLine_paired _ _) fun _ => .pure _
      have hset : Pair s (s.moved s.environment s.clock) [] (fun _ => True)
          (World.change (Tutorial.set s.settings.tutorialFile state)) _ :=
        .basic (.setTutorial trivial)
      refine Act.Repeats.bind (fun _ _ => Agreed.symm) (fun _ _ _ => Agreed.trans) (fun w hw => ?_)
        (Pair.agreed hs hf.1 (by simp) hset) (fun _ => Pair.quiet hs hf.1 hfinish)
        fun _ => Pair.agreed hs hf.1 (by simp) hfinish
      have hparent : s.settings.tutorialFile.parent = s.settings.homeDir := by
        simp [Settings.tutorialFile, Path.parent, Path.join]
      have hfolder : w.tree.makeFolders s.settings.tutorialFile.parent = (w.tree, .ok ()) := by
        rw [hparent]
        exact makeFolders_of_passable hs.plain hf hw.home
      have hrewrites := Tutorial.set_rewrites s.settings.tutorialFile state w.tree
      obtain ⟨hanswer, hlook⟩ := Tutorial.set_again (hs.join_plain (by decide)) state hfolder
      rw [World.after_change]
      exact (change_settled hanswer (fun m _ => hlook m)
        (hw.home.of_folders fun _ => hrewrites.look_of_folder)).mono fun _ _ => Settled.agreed

/-! ### Commands and invocations made twice -/

/-- What an invocation carries out is alike from worlds whose trees agree but for the logs. -/
theorem CarriesOut.alike (hc : CarriesOut s args path command) :
    Act.Alike (Agreed s.settings) command command :=
  Pair.agreed hs hf.1 (by simp) hc.paired

/-- **What an invocation carries out repeats.** -/
theorem CarriesOut.repeats (hc : CarriesOut s args path command) :
    Act.Repeats (Agreed s.settings) command := by
  have halike := hc.alike hs hf
  have quiet {command' : Act World Int}
      (h : Pair s (s.moved s.environment s.clock) [] (fun _ => False) command command') :
      Act.Repeats (Agreed s.settings) command := (Pair.quiet hs hf.1 h).repeats halike
  cases hc with
  | completion words => exact quiet (complete_paired words)
  | @task _ task ht =>
      cases task with
      | init => exact setUp_repeats hs hf.1
      | setTutorial state => exact setTutorial_repeats hs hf state
      | _ => exact quiet (body_paired (.refl _) _ nofun nofun)

end Fits

/-- A command that the gate lets pass is let pass again after its work. -/
theorem passes_after {t u : FileTree} (hs : s.settings.Usual)
    (hstands : ∀ m, t.look m ≠ none → u.look m ≠ none) (h : Passes s path t) :
    Passes s path u := by
  rcases h with hlisted | hcompletion | hi
  · exact .inl hlisted
  · exact .inr (.inl hcompletion)
  · obtain ⟨hname, hlook⟩ := hs.initialized_iff.mp hi
    exact .inr (.inr (hs.initialized_iff.mpr ⟨hname, hstands _ hlook⟩))

/-- A command that the gate does not let pass changes nothing but the logs. -/
theorem runCommand_agreed_of_not_passes {t : FileTree} (hs : s.settings.Usual)
    (hhome : w.tree.makeFolders s.settings.homeDir = (t, .ok ())) (hpass : ¬ Passes s path t) :
    Agreed s.settings { w with tree := t } ((runCommand s path command).after w) := by
  obtain ⟨hf, hpassable⟩ := fits_passable_of_makeFolders_eq_ok hs.plain hhome
  rw [Passes, not_or, not_or, Bool.not_eq_true, Bool.not_eq_true] at hpass
  obtain ⟨hlisted, hcompletion, hi⟩ := hpass
  have hclosed : (Gate.isListed Gate.openPaths path || Gate.isCompletion path) = false := by
    rw [hlisted, hcompletion, Bool.or_false]
  cases hpresent : t.present s.settings.commonsDir with
  | error f =>
      rw [Act.after, runCommand_of_error (enter_of_unknown hhome hclosed hpresent)]
      exact .refl hpassable
  | ok found =>
      cases found with
      | true => exact absurd hpresent hi
      | false =>
          obtain ⟨u, hrecord, hu⟩ := record_of_passable hs hf.1
            (Records.blocked (s := s) path).sound (w := { w with tree := t }) hpassable
          have henter := enter_of_absent hhome hclosed hpresent
          rw [hrecord] at henter
          rw [Act.after, runCommand_of_ended henter]
          exact ⟨hu, hpassable⟩

/-- **A command repeats.** -/
theorem CarriesOut.run_again (hc : CarriesOut s args path command) (hs : s.settings.Usual)
    (w : World) :
    Act.EndsAlike (World.AgreeBut (s.settings.homeDir.names ++ ["logs"]))
      (runCommand s path command w)
      (runCommand s path command ((runCommand s path command).after w)) := by
  rcases hhome : w.tree.makeFolders s.settings.homeDir with ⟨t, (⟨e, q⟩ | _) | _⟩
  · obtain ⟨e', hagain⟩ := makeFolders_again_of_refused hs.plain hhome
    rw [Act.after, runCommand_of_ended (enter_of_refused hs hhome)]
    dsimp only
    rw [runCommand_of_ended (enter_of_refused hs hagain)]
    exact .ok 1 (.refl t)
  · have hnul : s.settings.homeDir.hasNul = true := by
      by_contra hnul
      exact makeFolders_ne_embeddedNul (t := w.tree) (by simpa using hnul) (by rw [hhome])
    rw [Act.after, runCommand_of_error (enter_of_hasNul hhome)]
    dsimp only
    rw [runCommand_of_error (enter_of_hasNul (makeFolders_of_hasNul hnul))]
    exact .error _ (.refl t)
  obtain ⟨hf, hpassable⟩ := fits_passable_of_makeFolders_eq_ok hs.plain hhome
  have hmade {v : World} (hv : v.tree.Passable [] s.settings.homeDir.names) :
      v.tree.makeFolders s.settings.homeDir = (v.tree, .ok ()) :=
    makeFolders_of_passable hs.plain hf hv
  by_cases hpass : Passes s path t
  · -- the gate lets the command pass both times
    let whole : Act World Int := do leave s path (← command)
    have hwhole : Pair s (s.moved s.environment s.clock) [s.settings.commonsDir] (fun _ => True)
        whole whole := .bind hc.paired fun code => leave_paired rfl code
    have hleave (code : Int) : Pair s (s.moved s.environment s.clock) [] (fun _ => False)
        (leave s path code) (leave s path code) := leave_paired rfl code
    have hrepeats : Act.Repeats (Agreed s.settings) whole :=
      Act.Repeats.bind (fun _ _ => Agreed.symm) (fun _ _ _ => Agreed.trans) (hc.repeats hs hf)
        (hc.alike hs hf) (fun code => Pair.quiet hs hf.1 (hleave code))
        fun code => Pair.agreed hs hf.1 (by simp) (hleave code)
    have hrun {v : World} {u : FileTree}
        (hu : v.tree.makeFolders s.settings.homeDir = (u, .ok ())) (hp : Passes s path u) :
        runCommand s path command v = whole { v with tree := u } :=
      runCommand_of_passed (enter_of_passes hu hp)
    obtain ⟨hfolders, hstands⟩ := Pair.keeps_standing hwhole { w with tree := t }
    rw [Act.after, hrun hhome hpass, ← Act.after,
      hrun (hmade (hpassable.of_folders hfolders)) (passes_after hs hstands hpass)]
    exact (hrepeats _ (.refl hpassable)).mono fun _ _ h => h.trees
  · -- the gate does not let it pass, and nothing is changed that it looks at
    have hquiet : Agreed s.settings { w with tree := t } ((runCommand s path command).after w) :=
      runCommand_agreed_of_not_passes hs hhome hpass
    have hpair : Pair s (s.moved s.environment s.clock) [s.settings.commonsDir] (fun _ => True)
        (proceed s path command) (proceed s path command) := proceed_paired rfl hc.paired
    rw [runCommand_of_made hhome, runCommand_of_made (hmade hquiet.home_right)]
    exact (Pair.agreed hs hf.1 (by simp) hpair _ _ hquiet).mono fun _ _ h => h.trees

/-- What an invocation comes to is decided by the tree. -/
theorem run_sameTree (s : Surroundings) (args : List String) :
    Act.Alike (fun w w' => w'.tree = w.tree) (run s args) (run s args) := by
  have hpair : Pair s (s.moved s.environment s.clock)
      [s.settings.homeDir, s.settings.commonsDir] (fun _ => True) (run s args) (run s args) :=
    run_paired (.refl _) (by simp) args (fun _ => by simp) fun _ _ => trivial
  have hsame : s.moved s.environment s.clock = s := rfl
  rw [hsame] at hpair
  refine hpair.alike fun hb => ?_
  rw [← hb.eq]
  exact hb.sameTree

/-- **An invocation repeats**: made again in the same surroundings, it ends as before, and the
trees agree but for the logs. -/
theorem run_again (hs : s.settings.Usual) (args : List String) (w : World) :
    Act.EndsAlike (World.AgreeBut (s.settings.homeDir.names ++ ["logs"])) (run s args w)
      (run s args ((run s args).after w)) := by
  rcases carriesOut_or s args with ⟨path, command, hc⟩ | hconclude
  · rw [hc.run_eq]
    exact hc.run_again hs w
  · have htree : ((run s args).after w).tree = w.tree := by
      rw [hconclude]
      exact conclude_tree s _ w
    refine (run_sameTree s args _ _ htree).mono fun u v huv => ?_
    rw [World.AgreeBut, huv]
    exact .refl _

/-- **An invocation repeats** from any world whose tree agrees, but for the logs, with the one
that it left, and whatever the clock says and the switch of telemetry is set to by then. -/
theorem run_repeats (hs : s.settings.Usual)
    (henv : s.environment.AgreesBut Telemetry.switchName env) (args : List String)
    (h : World.AgreeBut (s.settings.homeDir.names ++ ["logs"]) ((run s args).after w) w') :
    Act.EndsAlike (World.AgreeBut (s.settings.homeDir.names ++ ["logs"])) (run s args w)
      (run (s.moved env clock) args w') := by
  -- the second world differs in its outputs first, and then in its logs
  let fresh : World := { w' with tree := ((run s args).after w).tree }
  have hfresh : Act.EndsAlike (World.AgreeBut (s.settings.homeDir.names ++ ["logs"]))
      (run s args w) (run s args fresh) := by
    refine (run_again hs args w).comp (fun u v x huv hvx => ?_)
      (run_sameTree s args ((run s args).after w) fresh rfl)
    rw [World.AgreeBut, hvx]
    exact huv
  refine hfresh.comp (fun u v x huv hvx => ?_)
    (run_alike hs henv args fresh w' ⟨w'.tree, h, rfl⟩)
  obtain ⟨tree, htree, rfl⟩ := hvx
  exact AgreeOutside.trans huv htree

end Program

end CommandGate
