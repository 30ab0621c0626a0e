import CommandGate.Proofs.Program.Aftermath
import CommandGate.Proofs.Program.Calls

/-!
# The Output of a Completion

A shell takes the output of a completion for candidates. Whatever words are completed and
whatever is in the tree, a completion makes no calls, and it writes the candidates to the output,
each on a line, or nothing where the home directory cannot be made; all else goes to the error
stream. It ends with 1 where the home directory cannot be made, or where the installation is not
initialized and the tutorial state cannot be found out, and otherwise with 0, exactly unless a
path of the settings that cannot be used disturbs it (`Program.Disturbs`).

## Main results

* `Program.run_completion_of_made`: a completion, where the home directory can be made.
* `Program.completion_output`: the output of a completion, and how it ends.
* `Program.completion_fails_of_nul`: a completion that is disturbed.
-/

namespace CommandGate

open FileTree Tutorial

namespace Program

variable {s : Surroundings} {words : List String} {path : String} {code : Int} {w : World}
variable {t : FileTree}

/-- The command path of completions. -/
def completionPath : String :=
  Gate.commandPath [Gate.completionMarker]

/-- The candidates for the last of some words, each on a line. -/
def candidateLines (words : List String) : Text :=
  (CommandLine.candidates grammar words).flatMap fun c => Text.ofString (c ++ "\n")

/-- How a completion **should end**: with 1 where the home directory cannot be made, or where
the commons directory is absent and a tutorial fault is found; with the fault where another one
is found there; and otherwise with 0. -/
def CompletionEnds (s : Surroundings) (w : World) (r : Result Int) : Prop :=
  match w.tree.makeFolders s.settings.homeDir with
  | (_, .error _) => ∃ w', r = .ok 1 w'
  | (t, .ok ()) =>
    match t.present s.settings.commonsDir with
    | .ok false =>
      match find s.settings.tutorialFile t with
      | .ok _ => ∃ w', r = .ok 0 w'
      | .error (.tutorial _) => ∃ w', r = .ok 1 w'
      | .error f => ∃ w', r = .error f w'
    | _ => ∃ w', r = .ok 0 w'

/-- What **disturbs** a completion: a home directory with a NUL in its path; a commons directory
whose path is too long although the home directory can be made; and, where events cannot be
recorded, a home directory that cannot be made or a tutorial state that cannot be found out. -/
inductive Disturbs (s : Surroundings) (w : World) : Prop
  | nul (hnul : s.settings.homeDir.hasNul = true)
  | long {t : FileTree} (hhome : w.tree.makeFolders s.settings.homeDir = (t, .ok ()))
      (hlong : ¬ s.settings.commonsDir.Fits)
  | home {t : FileTree} {f : FileFault}
      (hhome : w.tree.makeFolders s.settings.homeDir = (t, .error f)) (hr : ¬ s.Recordable)
  | tutorial {t : FileTree} {fault : TutorialFault}
      (hhome : w.tree.makeFolders s.settings.homeDir = (t, .ok ()))
      (hp : t.present s.settings.commonsDir = .ok false)
      (hfind : find s.settings.tutorialFile t = .error (.tutorial fault)) (hr : ¬ s.Recordable)

/-! ### What a completion does -/

/-- The reminder after a completion writes to the error stream only. -/
theorem remind_stdout (h : streamAfter path = .stderr) :
    ((remind s path code).after w).stdout = w.stdout := by
  rw [Act.after, remind_eq_match]
  cases w.tree.present s.settings.commonsDir with
  | error f => rfl
  | ok found =>
      cases found with
      | true => rfl
      | false =>
          cases find s.settings.tutorialFile w.tree with
          | ok tutorial =>
              rw [h]
              rfl
          | error f =>
              cases f with
              | tutorial fault =>
                  obtain ⟨u, hrecord | ⟨f, hrecord⟩⟩ := record_cases (s := s) (w := w)
                    (Lifecycle.commandEvent "tutorial.failed" path
                      [("error", .string fault.message)])
                  · simp only [hrecord]
                    rfl
                  · simp only [hrecord]
                    cases f <;> rfl
              | _ => rfl

/-- **A completion, where the home directory can be made**: the candidates are shown, and the
reminder is left. -/
theorem run_completion_of_made (hhome : w.tree.makeFolders s.settings.homeDir = (t, .ok ())) :
    run s (Gate.completionMarker :: words) w =
      remind s completionPath 0
        { w with tree := t, stdout := w.stdout ++ candidateLines words } := by
  have hpass : Passes s completionPath t := .inr (.inl (by decide))
  have hne : completionPath ≠ Gate.programName := by decide
  exact (CarriesOut.completion words).run_of_body hhome hpass rfl (.passedOver hne)

/-- The output of a completion. -/
theorem run_completion_stdout :
    ((run s (Gate.completionMarker :: words)).after w).stdout =
      match (w.tree.makeFolders s.settings.homeDir).2 with
      | .error _ => w.stdout
      | .ok () => w.stdout ++ candidateLines words := by
  rcases hhome : w.tree.makeFolders s.settings.homeDir with ⟨t, f | ⟨⟩⟩
  · rw [(CarriesOut.completion words).run_eq, Act.after]
    obtain ⟨u, ⟨message, hrun⟩ | ⟨f, hrun⟩⟩ := runCommand_of_not_made hhome
    · rw [hrun]
      rfl
    · rw [hrun]
  · rw [Act.after, run_completion_of_made hhome]
    exact remind_stdout (by decide)

/-! ### How a completion ends -/

/-- A completion that is refused the home directory ends with 1, if that can be recorded. -/
theorem completionEnds_of_refused {f : FileFault} (hnul : s.settings.homeDir.hasNul = false)
    (hhome : w.tree.makeFolders s.settings.homeDir = (t, .error f)) :
    CompletionEnds s w (run s (Gate.completionMarker :: words) w) ↔ s.Recordable := by
  have hc := CarriesOut.completion (s := s) words
  rw [CompletionEnds, hhome]
  cases f with
  | embeddedNul =>
      exact absurd (by rw [hhome]) (makeFolders_ne_embeddedNul (t := w.tree) hnul)
  | refused errno q =>
      refine ⟨fun ⟨w', hrun⟩ => ?_, fun hr => hc.run_of_refused hr hhome⟩
      by_contra hr
      rw [Surroundings.Recordable, Classical.not_imp, Bool.not_eq_false] at hr
      rw [hc.run_eq, runCommand_of_error (enter_of_refused_of_hasNul hr.1 hr.2 hhome)] at hrun
      cases hrun

/-- One whose commons directory can be looked for ends as it should exactly unless a tutorial
fault cannot be recorded. -/
theorem completionEnds_of_made (hhome : w.tree.makeFolders s.settings.homeDir = (t, .ok ()))
    (hf : s.settings.commonsDir.Fits) :
    CompletionEnds s w (run s (Gate.completionMarker :: words) w) ↔
      ¬ (t.present s.settings.commonsDir = .ok false ∧
        (∃ fault, find s.settings.tutorialFile t = .error (.tutorial fault)) ∧
        ¬ s.Recordable) := by
  obtain ⟨found, hpresent⟩ := exists_present (stands_of_makeFolders hhome) hf
  rw [CompletionEnds, hhome, run_completion_of_made hhome]
  cases found with
  | true =>
      rw [remind_eq_match]
      simp [hpresent]
  | false =>
      cases hfind : find s.settings.tutorialFile t with
      | ok tutorial =>
          rw [remind_eq_match]
          simp [hpresent, hfind]
      | error f =>
          cases f with
          | tutorial fault =>
              by_cases hr : s.Recordable
              · rw [remind_apply hr]
                simp [hpresent, hfind, hr]
              · let shown : World :=
                  { w with tree := t, stdout := w.stdout ++ candidateLines words }
                have hfails : remind s completionPath 0 shown = .error (.file .embeddedNul) shown :=
                  remind_of_not_recordable (w := shown) hr hpresent hfind
                rw [hfails]
                simp [hpresent, hfind, hr]
          | _ =>
              rw [remind_eq_match]
              simp [hpresent, hfind]

/-- One whose commons directory cannot be looked for does not. -/
theorem not_completionEnds_of_long (hhome : w.tree.makeFolders s.settings.homeDir = (t, .ok ()))
    (hlong : ¬ s.settings.commonsDir.Fits) :
    ¬ CompletionEnds s w (run s (Gate.completionMarker :: words) w) := by
  have hpresent := present_of_long_of_made hhome hlong t
  rw [CompletionEnds, hhome, run_completion_of_made hhome, remind_eq_match]
  simp [hpresent]

/-- One with a NUL in the path of its home directory does not either. -/
theorem not_completionEnds_of_nul (hnul : s.settings.homeDir.hasNul = true) :
    ¬ CompletionEnds s w (run s (Gate.completionMarker :: words) w) := by
  have hhome := makeFolders_of_hasNul (t := w.tree) hnul
  rw [CompletionEnds, hhome, (CarriesOut.completion words).run_eq,
    runCommand_of_error (enter_of_hasNul hhome)]
  rintro ⟨w', hrun⟩
  cases hrun

/-- **A completion ends as it should exactly unless it is disturbed.** -/
theorem completionEnds_iff :
    CompletionEnds s w (run s (Gate.completionMarker :: words) w) ↔ ¬ Disturbs s w := by
  constructor
  · intro hends hdisturbs
    cases hdisturbs with
    | nul hnul => exact not_completionEnds_of_nul hnul hends
    | long hhome hlong => exact not_completionEnds_of_long hhome hlong hends
    | home hhome hr =>
        by_cases hnul : s.settings.homeDir.hasNul = true
        · exact not_completionEnds_of_nul hnul hends
        · exact hr ((completionEnds_of_refused (by simpa using hnul) hhome).mp hends)
    | @tutorial t fault hhome hp hfind hr =>
        have hf : s.settings.commonsDir.Fits := fits_of_find hfind
        exact (completionEnds_of_made hhome hf).mp hends ⟨hp, ⟨fault, hfind⟩, hr⟩
  · intro hdisturbs
    rcases hhome : w.tree.makeFolders s.settings.homeDir with ⟨t, f | ⟨⟩⟩
    · have hnul : s.settings.homeDir.hasNul = false := by
        by_contra hnul
        exact hdisturbs (.nul (by simpa using hnul))
      refine (completionEnds_of_refused hnul hhome).mpr ?_
      by_contra hr
      exact hdisturbs (.home hhome hr)
    · have hf : s.settings.commonsDir.Fits := by
        by_contra hlong
        exact hdisturbs (.long hhome hlong)
      refine (completionEnds_of_made hhome hf).mpr ?_
      rintro ⟨hp, ⟨fault, hfind⟩, hr⟩
      exact hdisturbs (.tutorial hhome hp hfind hr)

/-- **The output of a completion.** For all settings, in every tree, in every environment and
whatever the network answers and launched programs come to, completing any words makes no
request and launches nothing. The output is exactly the candidates for the last word, each on a
line, or nothing where the home directory cannot be made. The completion ends as it should
exactly unless it is disturbed. -/
theorem completion_output (s : Surroundings) (words : List String) (w : World) :
    let after := (run s (Gate.completionMarker :: words)).after w
    after.requests = w.requests ∧ after.launches = w.launches ∧
    (after.stdout =
      match (w.tree.makeFolders s.settings.homeDir).2 with
      | .error _ => w.stdout
      | .ok () => w.stdout ++
          (CommandLine.candidates grammar words).flatMap fun c => Text.ofString (c ++ "\n")) ∧
    (CompletionEnds s w (run s (Gate.completionMarker :: words) w) ↔ ¬ Disturbs s w) := by
  obtain ⟨commands, complaint, hread⟩ := read_completion words
  have hcalls : World.SameCalls w ((run s (Gate.completionMarker :: words)).after w) :=
    run_sameCalls (by simp [hread]) fun task t ht _ => by simp [taskOf?_completion] at ht
  refine ⟨?_, ?_, run_completion_stdout, completionEnds_iff⟩
  · rw [hcalls.requests, List.append_nil]
  · rw [hcalls.launches, List.append_nil]

open Session in
/-- **A completion that is disturbed**: the path of the home directory holds a NUL. The directory
cannot be made, and the completion ends with a fault instead of 1. -/
theorem completion_fails_of_nul :
    let s := quietAt ⟨.relative, ["a\x00b"]⟩
    let w : World := { tree := [] }
    makeFolders [] s.settings.homeDir = ([], .error .embeddedNul) ∧
      run s ["__complete", "x"] w = .error (.file .embeddedNul) w ∧
      ¬ CompletionEnds s w (run s ["__complete", "x"] w) := by
  have hnul : (quietAt ⟨.relative, ["a\x00b"]⟩).settings.homeDir.hasNul = true := by decide
  exact ⟨makeFolders_of_hasNul hnul, rfl, not_completionEnds_of_nul hnul⟩

end Program

end CommandGate
