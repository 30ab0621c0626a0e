import CommandGate.CommandLine.Layout
import Mathlib.Tactic.Common

/-!
# How Usages Begin

However a usage is broken into lines, it begins with its lead and the name of the program: the
lines are filled from the front, and the first of them takes at least one part.

## Main results

* `CommandLine.usage_eq`: what a usage begins with.
-/

namespace CommandGate

namespace CommandLine

/-- Strings in order begin with the first of them. -/
theorem intercalate_cons_eq (separator first : String) (others : List String) :
    ∃ rest, separator.intercalate (first :: others) = first ++ rest := by
  cases others with
  | nil => exact ⟨"", by simp⟩
  | cons next others =>
      refine ⟨separator ++ separator.intercalate (next :: others), ?_⟩
      rw [String.intercalate_cons_cons, String.append_assoc]

/-- A line under way stays at the front. -/
theorem fill_cons (limit start used : Int) (part : String) (line parts : List String) :
    ∃ more lines, fill limit start used (part :: line) parts = (part :: more) :: lines := by
  induction parts generalizing used line with
  | nil => exact ⟨line, [], rfl⟩
  | cons next rest ih =>
      rw [fill]
      split_ifs
      · exact ⟨line, _, rfl⟩
      · exact ih _ (line ++ [next])

/-- **What a usage begins with**: its lead, and the name of the program. -/
theorem usage_eq (width : Int) (program : String) (c : Command) :
    ∃ rest, usage width program c = usageLead ++ program ++ rest := by
  -- in each layout the first line begins with the name of the program
  have begins {first : String} {others : List String} (h : ∃ rest, first = program ++ rest) :
      ∃ rest, usageLead ++ "\n".intercalate (first :: others) = usageLead ++ program ++ rest := by
    obtain ⟨rest, rfl⟩ := h
    obtain ⟨more, hmore⟩ := intercalate_cons_eq "\n" (program ++ rest) others
    exact ⟨rest ++ more, by rw [hmore]; simp only [String.append_assoc]⟩
  rw [usage]
  dsimp only
  generalize (if c.children.isEmpty then [] else [c.placeholder, "..."]) = below
  generalize c.options.map (·.usagePart) = options
  split_ifs
  · exact begins (intercalate_cons_eq " " program _)
  · rw [fill, if_neg (by simp), List.nil_append]
    obtain ⟨more, lines, hfill⟩ := fill_cons width (usageLead.length + program.length + 1 - 1)
      (usageLead.length - 1 + 1 + program.length) program [] options
    rw [hfill]
    exact begins (intercalate_cons_eq " " program more)
  · exact begins ⟨"", by simp⟩
  · exact begins ⟨"", by simp⟩

end CommandLine

end CommandGate
