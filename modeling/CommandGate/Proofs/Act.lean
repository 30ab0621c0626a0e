import CommandGate.World

/-!
# Steps Put Together from Basic Ones

A step of the program is put together from basic steps by doing one after another and by
catching faults. `Act.Paired` follows two steps that are put together in the same way from
basic steps that correspond to each other. What basic steps do to the state then carries
over to the whole, for one step at a time (`Act.Keeps`) and for two side by side
(`Act.Alike`).

## Main results

* `Act.Paired.keeps`: what all basic steps leave related to the state before, the whole does.
* `Act.Paired.alike`: if corresponding basic steps end alike from related states, the two
  steps do.
-/

namespace CommandGate

namespace Act

variable {σ α β : Type}

/-! ### Running a step -/

/-- One step after another: the second is taken from where the first ends with a value. -/
theorem bind_apply (a : Act σ α) (f : α → Act σ β) (w : σ) :
    (a >>= f) w =
      match a w with
      | .ok x w' => f x w'
      | .error e w' => .error e w' := by
  simp only [Bind.bind, EStateM.bind]
  cases a w <;> rfl

/-- A fault is answered from the state that it leaves. -/
theorem tryCatch_apply (a : Act σ α) (f : Fault → Act σ α) (w : σ) :
    (tryCatch a f : Act σ α) w =
      match a w with
      | .ok x w' => .ok x w'
      | .error e w' => f e w' := by
  change EStateM.tryCatch a f w = _
  unfold EStateM.tryCatch
  cases a w <;> rfl

/-- The state that a step leaves, whether it ends with a value or with a fault. -/
def after (a : Act σ α) (w : σ) : σ :=
  match a w with
  | .ok _ w' => w'
  | .error _ w' => w'

/-- The state that one step after another leaves. -/
theorem after_bind (a : Act σ α) (f : α → Act σ β) (w : σ) :
    (a >>= f).after w =
      match a w with
      | .ok x w' => (f x).after w'
      | .error _ w' => w' := by
  rw [after, bind_apply]
  cases a w <;> rfl

/-- What a step leaves does not depend on what is made of its value at the end. -/
theorem after_bind_pure (a : Act σ α) (f : α → β) (w : σ) :
    (a >>= fun x => pure (f x)).after w = a.after w := by
  rw [after_bind, after]
  cases a w <;> rfl

/-! ### Steps that succeed -/

/-- A step **succeeds** if it ends with a value in every state. -/
def Succeeds (a : Act σ α) : Prop :=
  ∀ w, ∃ x w', a w = .ok x w'

/-- Giving a value never fails. -/
theorem Succeeds.pure (x : α) : Succeeds (pure x : Act σ α) :=
  fun w => ⟨x, w, rfl⟩

/-- Nor does one step after another if neither of them fails. -/
theorem Succeeds.bind {a : Act σ α} {f : α → Act σ β} (ha : Succeeds a)
    (hf : ∀ x, Succeeds (f x)) : Succeeds (a >>= f) := by
  intro w
  obtain ⟨x, w', hx⟩ := ha w
  rw [bind_apply, hx]
  exact hf x w'

/-! ### What a step keeps -/

/-- A step **keeps** a relation if the state that it leaves is related to the state that it
found, whatever the step comes to. -/
def Keeps (R : σ → σ → Prop) (a : Act σ α) : Prop :=
  ∀ w, R w (a.after w)

section Keeps

variable {R : σ → σ → Prop}

/-- Giving a value leaves the state as it is. -/
theorem Keeps.pure (refl : ∀ w, R w w) (x : α) : Keeps R (pure x : Act σ α) :=
  fun w => refl w

/-- So does a fault. -/
theorem Keeps.throw (refl : ∀ w, R w w) (e : Fault) : Keeps R (throw e : Act σ α) :=
  fun w => refl w

/-- What each of two steps keeps, one after the other keeps. -/
theorem Keeps.bind (trans : ∀ u v w, R u v → R v w → R u w) {a : Act σ α} {f : α → Act σ β}
    (ha : Keeps R a) (hf : ∀ x, Keeps R (f x)) : Keeps R (a >>= f) := by
  intro w
  have h := ha w
  rw [after] at h ⊢
  rw [bind_apply]
  cases hw : a w with
  | ok x w' =>
      rw [hw] at h
      exact trans _ _ _ h (hf x w')
  | error e w' =>
      rw [hw] at h
      exact h

/-- So does a step whose faults are answered. -/
theorem Keeps.tryCatch (trans : ∀ u v w, R u v → R v w → R u w) {a : Act σ α}
    {f : Fault → Act σ α} (ha : Keeps R a) (hf : ∀ e, Keeps R (f e)) :
    Keeps R (tryCatch a f) := by
  intro w
  have h := ha w
  rw [after] at h ⊢
  rw [tryCatch_apply]
  cases hw : a w with
  | ok x w' =>
      rw [hw] at h
      exact h
  | error e w' =>
      rw [hw] at h
      exact trans _ _ _ h (hf e w')

end Keeps

/-! ### Two steps side by side -/

/-- Two ends are **alike**: both are the same value, or both are the same fault, and the
states that are left are related. -/
inductive EndsAlike (R : σ → σ → Prop) :
    EStateM.Result Fault σ α → EStateM.Result Fault σ α → Prop where
  | ok (x : α) {w w' : σ} : R w w' → EndsAlike R (.ok x w) (.ok x w')
  | error (e : Fault) {w w' : σ} : R w w' → EndsAlike R (.error e w) (.error e w')

/-- Ends that are alike in one sense are alike in any wider one. -/
theorem EndsAlike.mono {R R' : σ → σ → Prop} (hR : ∀ w w', R w w' → R' w w')
    {end₁ end₂ : EStateM.Result Fault σ α} (h : EndsAlike R end₁ end₂) :
    EndsAlike R' end₁ end₂ := by
  cases h with
  | ok x h => exact .ok x (hR _ _ h)
  | error e h => exact .error e (hR _ _ h)

/-- Two steps are **alike** if from related states they end alike. -/
def Alike (R : σ → σ → Prop) (a b : Act σ α) : Prop :=
  ∀ w w', R w w' → EndsAlike R (a w) (b w')

section Alike

variable {R : σ → σ → Prop}

/-- Giving the same value is alike. -/
theorem Alike.pure (x : α) : Alike R (pure x : Act σ α) (pure x) :=
  fun _ _ h => .ok x h

/-- So is failing with the same fault. -/
theorem Alike.throw (e : Fault) : Alike R (throw e : Act σ α) (throw e) :=
  fun _ _ h => .error e h

/-- One step after another is alike where both steps are. -/
theorem Alike.bind {a b : Act σ α} {f g : α → Act σ β} (ha : Alike R a b)
    (hf : ∀ x, Alike R (f x) (g x)) : Alike R (a >>= f) (b >>= g) := by
  intro w w' h
  have ends := ha w w' h
  rw [bind_apply, bind_apply]
  generalize a w = end₁, b w' = end₂ at ends ⊢
  cases ends with
  | ok x hx => exact hf x _ _ hx
  | error e he => exact .error e he

/-- Steps whose faults are answered are alike where the steps and the answers are. -/
theorem Alike.tryCatch {a b : Act σ α} {f g : Fault → Act σ α} (ha : Alike R a b)
    (hf : ∀ e, Alike R (f e) (g e)) : Alike R (tryCatch a f) (tryCatch b g) := by
  intro w w' h
  have ends := ha w w' h
  rw [tryCatch_apply, tryCatch_apply]
  generalize a w = end₁, b w' = end₂ at ends ⊢
  cases ends with
  | ok x hx => exact .ok x hx
  | error e he => exact hf e _ _ he

end Alike

/-! ### Steps put together in the same way -/

/-- Two steps are **paired** over a correspondence of basic steps if they are put together in
the same way from basic steps that correspond. -/
inductive Paired (Basic : ∀ {α : Type}, Act σ α → Act σ α → Prop) :
    ∀ {α : Type}, Act σ α → Act σ α → Prop where
  | basic {α : Type} {a b : Act σ α} : Basic a b → Paired Basic a b
  | pure {α : Type} (x : α) : Paired Basic (pure x : Act σ α) (pure x)
  | throw {α : Type} (e : Fault) : Paired Basic (throw e : Act σ α) (throw e)
  | bind {α β : Type} {a b : Act σ α} {f g : α → Act σ β} :
    Paired Basic a b → (∀ x, Paired Basic (f x) (g x)) → Paired Basic (a >>= f) (b >>= g)
  | tryCatch {α : Type} {a b : Act σ α} {f g : Fault → Act σ α} :
    Paired Basic a b → (∀ e, Paired Basic (f e) (g e)) →
      Paired Basic (tryCatch a f) (tryCatch b g)

namespace Paired

variable {Basic : ∀ {α : Type}, Act σ α → Act σ α → Prop} {R : σ → σ → Prop}

/-- **What the basic steps keep, the whole keeps**, if the relation goes from step to step. -/
theorem keeps {a b : Act σ α} (h : Paired Basic a b) (refl : ∀ w, R w w)
    (trans : ∀ u v w, R u v → R v w → R u w)
    (hb : ∀ {α : Type} {a b : Act σ α}, Basic a b → Keeps R a) : Keeps R a := by
  induction h with
  | basic h => exact hb h
  | pure x => exact .pure refl x
  | throw e => exact .throw refl e
  | bind _ _ iha ihf => exact .bind trans iha ihf
  | tryCatch _ _ iha ihf => exact .tryCatch trans iha ihf

/-- **If corresponding basic steps are alike, the two steps are.** -/
theorem alike {a b : Act σ α} (h : Paired Basic a b)
    (hb : ∀ {α : Type} {a b : Act σ α}, Basic a b → Alike R a b) : Alike R a b := by
  induction h with
  | basic h => exact hb h
  | pure x => exact .pure x
  | throw e => exact .throw e
  | bind _ _ iha ihf => exact .bind iha ihf
  | tryCatch _ _ iha ihf => exact .tryCatch iha ihf

end Paired

end Act

/-! ### Steps of the world -/

namespace World

/-- Printing never fails. -/
theorem print_succeeds (stream : Stream) (t : Text) : Act.Succeeds (print stream t) :=
  fun _ => ⟨(), _, rfl⟩

/-- Looking something up leaves the world as it is. -/
theorem look_apply {α : Type} (f : FileTree → Except Fault α) (w : World) :
    look f w =
      match f w.tree with
      | .ok a => .ok a w
      | .error e => .error e w := by
  rw [look]
  rw [Act.bind_apply]
  change (match f w.tree with | .ok a => pure a | .error e => throw e : Act World α) w = _
  cases f w.tree <;> rfl

/-- A change of the tree, with what a fault leaves of it. -/
theorem change_apply (f : FileTree → FileTree × Except Fault Unit) (w : World) :
    change f w =
      match f w.tree with
      | (t, .ok ()) => .ok () { w with tree := t }
      | (t, .error e) => .error e { w with tree := t } := by
  have hget : (get : Act World World) w = .ok w w := rfl
  rw [change]
  rw [Act.bind_apply, hget]
  dsimp only
  generalize f w.tree = answer
  obtain ⟨t, e | ⟨⟩⟩ := answer <;> rfl

/-- A change that succeeds. -/
theorem change_of_ok {f : FileTree → FileTree × Except Fault Unit} {w : World}
    (h : (f w.tree).2 = .ok ()) : change f w = .ok () { w with tree := (f w.tree).1 } := by
  rw [change_apply]
  generalize f w.tree = answer at h ⊢
  obtain ⟨t, r⟩ := answer
  obtain rfl : r = .ok () := h
  rfl

/-- A change that fails leaves what it came to before it failed. -/
theorem change_of_error {f : FileTree → FileTree × Except Fault Unit} {w : World} {e : Fault}
    (h : (f w.tree).2 = .error e) : change f w = .error e { w with tree := (f w.tree).1 } := by
  rw [change_apply]
  generalize f w.tree = answer at h ⊢
  obtain ⟨t, r⟩ := answer
  obtain rfl : r = .error e := h
  rfl

end World

end CommandGate
