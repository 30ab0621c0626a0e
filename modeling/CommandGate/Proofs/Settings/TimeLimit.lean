import CommandGate.Proofs.Number.Spelling
import CommandGate.Proofs.Program.Effects

/-!
# The Time Limit of Requests

The time limit is the number that a variable spells if that is a positive one, and one second
otherwise. So it is always positive. The check lets plus infinity through: the time limit is
infinite exactly if what the variable spells is endless, be it the word for infinity or a number
too large for a finite value.

## Main results

* `Settings.timeoutOf_cases`: where the time limit comes from.
* `Settings.timeoutOf_eq_infinity_iff`: when the time limit is infinite.
* `Settings.load_bounds_iff`: when requests have a real bound.
* `Settings.unbounded_of_inf`: requests without one.
-/

namespace CommandGate

/-- An environment **waives** the time limit if its variable spells an endless quantity. -/
def Environment.Waives (env : Environment) : Prop :=
  ∃ s q, env.get? "RITCHIE_VERSION_TIMEOUT" = some s ∧ Quantity.SpelledBy q s ∧ q.IsEndless

/-- A positive value is finite unless it is plus infinity. -/
theorem Binary64.isFinite_iff_of_isPositive {x : Binary64} (h : x.isPositive = true) :
    x.isFinite = true ↔ x ≠ .infinity false := by
  cases x with
  | nan => cases h
  | infinity negative =>
      obtain rfl : negative = false := by simpa [isPositive] using h
      simp [isFinite]
  | finite negative m scale => simp [isFinite]

namespace Settings

/-- The default for the time limit passes its own check. -/
theorem isPositive_defaultTimeout : defaultTimeout.isPositive = true := by decide +kernel

/-- The default for the time limit is a limit. -/
theorem isFinite_defaultTimeout : defaultTimeout.isFinite = true := by decide +kernel

/-- **Where the time limit comes from**: it is the value nearest to what the variable spells if
that is positive, and the default otherwise. -/
theorem timeoutOf_cases (env : Environment) :
    (∃ s q, env.get? "RITCHIE_VERSION_TIMEOUT" = some s ∧ Quantity.SpelledBy q s ∧
        q.nearest.isPositive = true ∧ timeoutOf env = q.nearest) ∨
      (∀ s q, env.get? "RITCHIE_VERSION_TIMEOUT" = some s → Quantity.SpelledBy q s →
        q.nearest.isPositive = false) ∧ timeoutOf env = defaultTimeout := by
  rw [timeoutOf]
  cases hread : (env.get? "RITCHIE_VERSION_TIMEOUT").bind Binary64.read? with
  | none =>
      refine .inr ⟨fun s q hs hq => ?_, rfl⟩
      rw [hs, Option.bind_some, Binary64.read?_eq_some_iff.mpr ⟨q, hq, rfl⟩] at hread
      cases hread
  | some x =>
      obtain ⟨s, hs, hx⟩ := Option.bind_eq_some_iff.mp hread
      dsimp only
      split_ifs with hpositive
      · obtain ⟨q, hq, rfl⟩ := Binary64.read?_eq_some_iff.mp hx
        exact .inl ⟨s, q, hs, hq, hpositive, rfl⟩
      · refine .inr ⟨fun s' q hs' hq => ?_, rfl⟩
        obtain rfl := Option.some.inj (hs.symm.trans hs')
        rw [Binary64.read?_eq_some_iff.mpr ⟨q, hq, rfl⟩] at hx
        obtain rfl := Option.some.inj hx
        simpa using hpositive

/-- The time limit is positive. -/
theorem isPositive_timeoutOf (env : Environment) : (timeoutOf env).isPositive = true := by
  rcases timeoutOf_cases env with ⟨s, q, -, -, hpositive, he⟩ | ⟨-, he⟩
  · rwa [he]
  · rw [he]
    exact isPositive_defaultTimeout

/-- **When the time limit is infinite.** -/
theorem timeoutOf_eq_infinity_iff {env : Environment} :
    timeoutOf env = .infinity false ↔ env.Waives := by
  rcases timeoutOf_cases env with ⟨s, q, hs, hq, -, he⟩ | ⟨hnone, he⟩
  · rw [he]
    constructor
    · intro hinfinity
      exact ⟨s, q, hs, hq, Quantity.nearest_eq_infinity_iff.mp hinfinity⟩
    · rintro ⟨s', q', hs', hq', hendless⟩
      obtain rfl := Option.some.inj (hs.symm.trans hs')
      -- a string may spell a quantity in one way only, as far as the nearest value goes
      have hread := Binary64.read?_eq_some_iff.mpr ⟨q, hq, rfl⟩
      rw [Binary64.read?_eq_some_iff.mpr ⟨q', hq', rfl⟩] at hread
      rw [← Option.some.inj hread]
      exact Quantity.nearest_eq_infinity_iff.mpr hendless
  · refine iff_of_false (fun hinfinity => ?_) ?_
    · have hfinite := isFinite_defaultTimeout
      rw [← he, hinfinity] at hfinite
      cases hfinite
    · rintro ⟨s, q, hs, hq, hendless⟩
      have hpositive := hnone s q hs hq
      rw [Quantity.nearest_eq_infinity_iff.mpr hendless] at hpositive
      cases hpositive

/-- Settings that are loaded have the time limit of the environment, whatever else is in it. -/
theorem timeout_of_load {env : Environment} {settings : Settings}
    (h : load env = .ok settings) : settings.timeout = timeoutOf env := by
  rw [load] at h
  cases hhome : homeDirOf env with
  | error f =>
      rw [hhome] at h
      cases h
  | ok home =>
      rw [hhome] at h
      obtain rfl := Except.ok.inj h
      rfl

/-- The requests of an invocation have the time limit of its settings. -/
theorem timeout_of_run (s : Surroundings) (args : List String) (w : World) :
    ∃ requests, ((Program.run s args).after w).requests = w.requests ++ requests ∧
      ∀ r ∈ requests, r.timeout = s.settings.timeout := by
  obtain ⟨requests, launches, hcalls, hmakes⟩ := Program.exists_calls s args w
  refine ⟨requests, hmakes.requests, fun r hr => ?_⟩
  obtain ⟨-, rfl⟩ := (hcalls.mem_requests r).mp hr
  rfl

/-- **When requests have a real bound.** The time limit of the settings of any environment is
positive; it is finite exactly if the environment does not waive it. Every request of an
invocation with these settings has this time limit. -/
theorem load_bounds_iff {env : Environment} {settings : Settings}
    (h : load env = .ok settings) :
    settings.timeout.isPositive = true ∧
      (settings.timeout.isFinite = true ↔ ¬ env.Waives) ∧
      ∀ (s : Surroundings) (args : List String) (w : World), s.settings = settings →
        ∃ requests, ((Program.run s args).after w).requests = w.requests ++ requests ∧
          ∀ r ∈ requests, r.timeout = settings.timeout := by
  have hpositive := isPositive_timeoutOf env
  rw [timeout_of_load h]
  refine ⟨hpositive, ?_, ?_⟩
  · rw [Binary64.isFinite_iff_of_isPositive hpositive, Ne, timeoutOf_eq_infinity_iff]
  · rintro s args w rfl
    rw [← timeout_of_load h]
    exact timeout_of_run s args w

/-- An environment with a home directory and a time limit. -/
def limitedBy (limit : String) : Environment where
  bindings := [("RITCHIE_HOME", "home"), ("RITCHIE_VERSION_TIMEOUT", limit)]
  accounts := []

/-- A time limit with digits of another script, an underscore, and blanks around it. -/
theorem load_bounds_spelled :
    ∃ settings, load (limitedBy " 1_٠.5\u00A0") = .ok settings ∧
      settings.timeout = timeoutOf (limitedBy "10.5") ∧
      settings.timeout.isPositive = true ∧ settings.timeout.isFinite = true := by
  obtain ⟨settings, hload⟩ : ∃ settings, load (limitedBy " 1_٠.5\u00A0") = .ok settings :=
    ⟨_, rfl⟩
  obtain ⟨hpositive, hfinite, -⟩ := load_bounds_iff hload
  refine ⟨settings, hload, ?_, hpositive, hfinite.mpr ?_⟩
  · rw [timeout_of_load hload]
    decide +kernel
  · rw [← timeoutOf_eq_infinity_iff]
    decide +kernel

/-! ### Requests without a bound -/

open Session in
/-- **Requests without a bound**: the variable has the word for infinity. -/
theorem unbounded_of_inf :
    ∃ settings, load (limitedBy "inf") = .ok settings ∧ settings.timeout.isFinite = false ∧
      ∃ r, ((Program.run { atHome with settings } ["--version"]).after { tree := [] }).requests =
        [r] ∧ r.timeout.isFinite = false := by
  refine ⟨_, rfl, rfl, _, rfl, rfl⟩

end Settings

end CommandGate
