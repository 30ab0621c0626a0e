import CommandGate.Text.Classes
import Mathlib.Data.List.Basic
import Mathlib.Data.List.TakeWhile

/-!
# Sequences without the Ends of a Kind

Elements of a kind are taken off both ends of a sequence. What is left (`Core`) is a part of
the sequence without a gap, with only elements of the kind before it and behind it, and it
neither begins nor ends with one; there is only one such part. So what is left is all that is
left when the ends are taken off once more.

## Main results

* `strip_eq_iff`: what is left of a sequence.
* `stripBlanks_eq_iff`: what is left of a string without the blanks at its ends.
-/

namespace CommandGate

variable {α : Type} {p : α → Bool} {xs ys : List α}

/-! ### Elements at the front -/

/-- Where elements of a kind stand before one of another kind, they are the front. -/
theorem takeWhile_append_of_head? (hx : ∀ x ∈ xs, p x = true) (hy : ∀ y ∈ ys.head?, p y = false) :
    (xs ++ ys).takeWhile p = xs := by
  have hstop : ys.takeWhile p = [] := by
    cases ys with
    | nil => rfl
    | cons y ys => simp [hy y rfl]
  rw [List.takeWhile_append_of_pos hx, hstop, List.append_nil]

/-- Taken off the front, they leave the rest. -/
theorem dropWhile_append_of_head? (hx : ∀ x ∈ xs, p x = true) (hy : ∀ y ∈ ys.head?, p y = false) :
    (xs ++ ys).dropWhile p = ys := by
  rw [List.dropWhile_append_of_pos hx]
  cases ys with
  | nil => rfl
  | cons y ys => simp [hy y rfl]

/-- What is left does not begin with an element of the kind. -/
theorem head?_dropWhile (p : α → Bool) (xs : List α) :
    ∀ y ∈ (xs.dropWhile p).head?, p y = false := by
  intro y hy
  have hstop := List.head?_dropWhile_not p xs
  rw [hy] at hstop
  simpa using hstop

/-! ### Elements at both ends -/

/-- **What is left** of a sequence without the elements of a kind at its ends: the rest before it
and behind it is of the kind, and it neither begins nor ends with an element of the kind. -/
structure Core (p : α → Bool) (xs ys : List α) : Prop where
  part : ∃ front back, xs = front ++ (ys ++ back) ∧ (∀ x ∈ front, p x = true) ∧
    ∀ x ∈ back, p x = true
  first : ∀ y ∈ ys.head?, p y = false
  last : ∀ y ∈ ys.getLast?, p y = false

/-- What is left of a sequence is its core. -/
theorem core_strip (p : α → Bool) (xs : List α) : Core p xs (strip p xs) := by
  let rest := xs.dropWhile p
  let back := (rest.reverse.takeWhile p).reverse
  have hrest : rest = strip p xs ++ back := by
    have hsplit := List.takeWhile_append_dropWhile (p := p) (l := rest.reverse)
    have hreverse := congrArg List.reverse hsplit
    rw [List.reverse_append, List.reverse_reverse] at hreverse
    exact hreverse.symm
  refine ⟨⟨xs.takeWhile p, back, ?_, fun x hx => ?_, fun x hx => ?_⟩,
    fun y hy => ?_, fun y hy => ?_⟩
  · rw [← hrest]
    exact List.takeWhile_append_dropWhile.symm
  · exact List.mem_takeWhile_imp hx
  · exact List.mem_takeWhile_imp (List.mem_reverse.mp hx)
  · refine head?_dropWhile p xs y ?_
    change y ∈ rest.head?
    rw [hrest, List.head?_append, hy]
    rfl
  · refine head?_dropWhile p rest.reverse y ?_
    rwa [strip, List.getLast?_reverse] at hy

/-- There is only one such part. -/
theorem Core.strip_eq (h : Core p xs ys) : strip p xs = ys := by
  obtain ⟨⟨front, back, rfl, hfront, hback⟩, hfirst, hlast⟩ := h
  rcases eq_or_ne ys [] with rfl | hne
  · have hall : ∀ x ∈ front ++ back, p x = true := List.forall_mem_append.mpr ⟨hfront, hback⟩
    rw [strip, List.nil_append, List.dropWhile_eq_nil_iff.mpr hall]
    rfl
  · have hhead : ∀ y ∈ (ys ++ back).head?, p y = false := by
      rwa [List.head?_append_of_ne_nil _ hne]
    rw [strip, dropWhile_append_of_head? hfront hhead, List.reverse_append,
      dropWhile_append_of_head?, List.reverse_reverse]
    · exact fun x hx => hback x (List.mem_reverse.mp hx)
    · rwa [List.head?_reverse]

/-- **What is left of a sequence.** -/
theorem strip_eq_iff : strip p xs = ys ↔ Core p xs ys :=
  ⟨fun h => h ▸ core_strip p xs, Core.strip_eq⟩

/-- What is left is left once more. -/
theorem Core.self (h : Core p xs ys) : Core p ys ys :=
  ⟨⟨[], [], by simp, by simp, by simp⟩, h.first, h.last⟩

/-- Nothing is left exactly of a sequence of the kind. -/
theorem core_nil_iff : Core p xs [] ↔ ∀ x ∈ xs, p x = true := by
  constructor
  · rintro ⟨⟨front, back, rfl, hfront, hback⟩, -, -⟩
    exact List.forall_mem_append.mpr ⟨hfront, hback⟩
  · exact fun h => ⟨⟨xs, [], by simp, h, by simp⟩, by simp, by simp⟩

/-! ### Strings -/

/-- **What is left of a string** without the blanks at its ends. -/
theorem stripBlanks_eq_iff {s v : String} :
    stripBlanks s = v ↔ Core isBlank s.toList v.toList := by
  rw [stripBlanks, ← strip_eq_iff, ← String.toList_inj, String.toList_ofList]

end CommandGate
