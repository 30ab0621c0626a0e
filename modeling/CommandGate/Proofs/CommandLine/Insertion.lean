import CommandGate.Proofs.CommandLine.Candidates

/-!
# Putting Arguments into a Command Line

A command line can be cut wherever no value is due: what stands before the cut leads to a
command, and that command accepts what stands behind it. So what is put in at the cut only has
to be a phrase for an option of that command. Where a value is due nothing but a bare word can
follow.

## Main results

* `CommandLine.Accepts.cut`: a command line is cut, or a value is due and follows.
* `CommandLine.Reaches.not_awaitsValue`: where it is cut, no value is due.
* `CommandLine.Reaches.accepts`: what is accepted behind a cut can be replaced.
-/

namespace CommandGate

namespace CommandLine

/-- **Arguments after which a value is due**: the last of them stands for an option that takes
a value, and has none attached. -/
def AwaitsValue (options : List OptionSpec) (front : List String) : Prop :=
  ∃ spec ∈ options, (∃ words, spec.effect = .choice words) ∧
    ∃ arg, front.getLast? = some arg ∧ Abbreviates arg.toList spec.long

/-- A command whose options, and those of all commands below it, are among the given ones. -/
def Command.Within (options : List OptionSpec) (c : Command) : Prop :=
  ∀ path d, c.at? path = some d → d.options ⊆ options

variable {c d : Command} {options : List OptionSpec} {blanks : Bool} {spec : OptionSpec}
variable {arg word : String} {args front rest path more : List String} {item : Item}
variable {items others : List Item}

/-! ### Commands within options -/

/-- The options of a command that is within are among those given. -/
theorem Command.Within.subset (h : c.Within options) : c.options ⊆ options :=
  h [] c rfl

/-- What is below a command that is within is within as well. -/
theorem Command.Within.child {next : Command} (h : c.Within options)
    (hc : c.child? word = some next) : next.Within options := by
  intro path d hd
  exact h (word :: path) d (by rw [Command.at?, hc, Option.bind_some, hd])

/-! ### Where a value is due -/

/-- Only the last argument can await a value. -/
theorem awaitsValue_append (hm : more ≠ []) :
    AwaitsValue options (front ++ more) ↔ AwaitsValue options more := by
  rw [AwaitsValue, AwaitsValue, List.getLast?_append_of_ne_nil _ hm]

/-- Without arguments, nothing awaits a value. -/
theorem not_awaitsValue_nil : ¬ AwaitsValue options [] := by
  rintro ⟨spec, -, -, arg, harg, -⟩
  simp at harg

/-- No value is due after a bare word. -/
theorem Bare.not_awaitsValue (h : Bare word) (ht : Tidy options) (front : List String) :
    ¬ AwaitsValue options (front ++ [word]) := by
  rintro ⟨spec, hs, -, arg, harg, habbreviates⟩
  obtain rfl : word = arg := by simpa using harg
  obtain ⟨-, third, rest, hword⟩ := ht.abbreviation hs habbreviates
  exact h.1 (by rw [hword]; rfl)

/-- No value is due after an argument with an attached value. -/
theorem not_awaitsValue_of_attached {value : String} {before : List Char} (ht : Tidy options)
    (harg : arg.toList = before ++ '=' :: value.toList) : ¬ AwaitsValue options [arg] := by
  rintro ⟨spec, hs, -, other, hother, habbreviates⟩
  obtain rfl : arg = other := by simpa using hother
  exact (ht.abbreviation hs habbreviates).1 (by simp [harg])

/-- No value is due after a phrase. -/
theorem Spells.not_awaitsValue (h : Spells blanks options args item) (ht : Tidy options) :
    ¬ AwaitsValue options args := by
  cases h with
  | @switch spec arg hs he ha =>
      rintro ⟨other, ho, ⟨words, hw⟩, arg', harg, habbreviates⟩
      obtain rfl : arg = arg' := by simpa using harg
      obtain rfl := ht.eq_of_prefix hs ho ha.1 habbreviates.1 ha.2
      simp [he] at hw
  | @next spec words arg value hs he hv ha =>
      exact (ht.bare spec hs words he value hv).not_awaitsValue ht [arg]
  | joined hs he hv hf ha => exact not_awaitsValue_of_attached ht ha
  | blank hb hs he hf ha => exact not_awaitsValue_of_attached ht ha

/-- A row of phrases is complete: its last argument awaits no value. -/
theorem Phrases.not_awaitsValue (h : Phrases blanks options args items) (ht : Tidy options) :
    ¬ AwaitsValue options args := by
  induction h with
  | nil => exact not_awaitsValue_nil
  | @cons front rest item items hf _ ih =>
      cases rest with
      | nil =>
          rw [List.append_nil]
          exact hf.not_awaitsValue ht
      | cons arg rest =>
          rw [awaitsValue_append (by simp)]
          exact ih

/-- **Where a command reads on, no value is due.** -/
theorem Reaches.not_awaitsValue (h : Reaches blanks c front path items d) (ho : c.Orderly)
    (hw : c.Within options) (ht : Tidy options) : ¬ AwaitsValue options front := by
  induction h with
  | here hp => exact (hp.mono fun o ho _ => hw.subset ho).not_awaitsValue ht
  | @enter c child d front rest path word items others hp hc hr ih =>
      cases rest with
      | nil => exact (ho.bare hc).not_awaitsValue ht front
      | cons arg rest =>
          rw [List.append_cons, awaitsValue_append (by simp)]
          exact ih (ho.child hc) (hw.child hc)

/-! ### Cutting -/

/-- Two rows of phrases are one. -/
theorem Phrases.append {other : List String} (h : Phrases blanks options front items)
    (hr : Phrases blanks options other others) :
    Phrases blanks options (front ++ other) (items ++ others) := by
  induction h with
  | nil => exact hr
  | cons hf _ ih =>
      rw [List.append_assoc]
      exact .cons hf ih

/-- A phrase is cut before its value only. -/
theorem Spells.cut (h : Spells blanks options (front ++ rest) item) (ht : Tidy options)
    (hf : front ≠ []) (hr : rest ≠ []) :
    AwaitsValue options front ∧ ∃ value more, rest = value :: more ∧ Bare value := by
  obtain ⟨arg, front, rfl⟩ := List.exists_cons_of_ne_nil hf
  obtain ⟨value, more, rfl⟩ := List.exists_cons_of_ne_nil hr
  generalize hargs : arg :: front ++ value :: more = args at h
  cases h with
  | @next spec words _ _ hs he hv ha =>
      obtain ⟨rfl, hrest⟩ := List.cons.inj hargs
      obtain ⟨rfl, hvalue⟩ := List.append_eq_singleton_iff.mp hrest |>.resolve_right (by simp)
      obtain ⟨rfl, rfl⟩ := List.cons.inj hvalue
      exact ⟨⟨spec, hs, ⟨words, he⟩, arg, rfl, ha⟩, value, [], rfl,
        ht.bare spec hs words he value hv⟩
  | _ => simp at hargs

/-- Phrases are cut between two of them, or before a value. -/
theorem Phrases.cut (h : Phrases blanks options args items) (ht : Tidy options)
    (hargs : args = front ++ rest) :
    (∃ before after, items = before ++ after ∧ Phrases blanks options front before ∧
      Phrases blanks options rest after) ∨
    AwaitsValue options front ∧ ∃ value more, rest = value :: more ∧ Bare value := by
  induction h generalizing front with
  | nil =>
      obtain ⟨rfl, rfl⟩ := List.append_eq_nil_iff.mp hargs.symm
      exact .inl ⟨[], [], rfl, .nil, .nil⟩
  | @cons first others item items hf hr ih =>
      rcases List.append_eq_append_iff.mp hargs with ⟨more, rfl, hmore⟩ | ⟨more, rfl, rfl⟩
      · rcases ih hmore with ⟨before, after, rfl, hb, ha⟩ | ⟨hv, hvalue⟩
        · exact .inl ⟨item :: before, after, rfl, .cons hf hb, ha⟩
        · have hne : more ≠ [] := by
            rintro rfl
            exact not_awaitsValue_nil hv
          exact .inr ⟨(awaitsValue_append hne).mpr hv, hvalue⟩
      · by_cases hfront : front = []
        · subst hfront
          exact .inl ⟨[], item :: items, rfl, .nil, .cons hf hr⟩
        · by_cases hm : more = []
          · subst hm
            rw [List.append_nil] at hf
            exact .inl ⟨[item], items, rfl, by simpa using Phrases.cons hf .nil, hr⟩
          · obtain ⟨hv, value, others', rfl, hbare⟩ := hf.cut ht hfront hm
            exact .inr ⟨hv, value, _, rfl, hbare⟩

/-- What awaits a value among some options does so among more of them. -/
theorem AwaitsValue.mono {others : List OptionSpec} (h : AwaitsValue options front)
    (hsub : options ⊆ others) : AwaitsValue others front := by
  obtain ⟨spec, hs, hrest⟩ := h
  exact ⟨spec, hsub hs, hrest⟩

/-- **A command line can be cut wherever no value is due**: what stands before the cut leads to
a command, which accepts what stands behind it. -/
theorem Accepts.cut (h : Accepts blanks c args path items) (ho : c.Orderly)
    (hw : c.Within options) (hargs : args = front ++ rest) :
    (∃ d path₁ path₂ before after, path = path₁ ++ path₂ ∧ items = before ++ after ∧
      Reaches blanks c front path₁ before d ∧ Accepts blanks d rest path₂ after) ∨
    AwaitsValue options front ∧ ∃ value more, rest = value :: more ∧ Bare value := by
  induction h generalizing front with
  | @alone c args items hr hp =>
      rcases hp.cut ho.tidy hargs with ⟨before, after, rfl, hb, ha⟩ | ⟨hv, hvalue⟩
      · exact .inl ⟨c, [], [], before, after, rfl, rfl, .here hb, .alone hr ha⟩
      · exact .inr ⟨hv.mono hw.subset, hvalue⟩
  | @enter c child first others path word items others' hp hc hr ih =>
      rcases List.append_eq_append_iff.mp hargs with ⟨more, rfl, hmore⟩ | ⟨more, rfl, rfl⟩
      · cases more with
        | nil =>
            obtain rfl : rest = word :: others := by simpa using hmore.symm
            exact .inl ⟨c, [], word :: path, items, others', rfl, rfl,
              .here (by simpa using hp), .enter .nil hc hr⟩
        | cons name more =>
            obtain ⟨rfl, hothers⟩ : word = name ∧ others = more ++ rest := by
              simpa using hmore
            rcases ih (ho.child hc) (hw.child hc) hothers with
              ⟨d, path₁, path₂, before, after, rfl, rfl, hd, ha⟩ | ⟨hv, hvalue⟩
            · exact .inl ⟨d, word :: path₁, path₂, items ++ before, after, rfl, by simp,
                .enter hp hc hd, ha⟩
            · have hne : more ≠ [] := by
                rintro rfl
                exact not_awaitsValue_nil hv
              rw [List.append_cons]
              exact .inr ⟨(awaitsValue_append hne).mpr hv, hvalue⟩
      · rcases hp.cut ho.tidy rfl with
          ⟨before, after, rfl, hb, ha⟩ | ⟨hv, value, others'', rfl, hbare⟩
        · exact .inl ⟨c, [], word :: path, before, after ++ others', rfl, by simp, .here hb,
            .enter ha hc hr⟩
        · exact .inr ⟨hv.mono hw.subset, value, _, rfl, hbare⟩

/-! ### Putting in a phrase -/

/-- What a command that is reached accepts is accepted behind what leads to it. -/
theorem Reaches.accepts (h : Reaches blanks c front path items d)
    {names : List String} (ha : Accepts blanks d rest names others) :
    Accepts blanks c (front ++ rest) (path ++ names) (items ++ others) := by
  induction h with
  | @here c args items hp =>
      cases ha with
      | alone hr hq => exact .alone hr (hp.append hq)
      | enter hq hc hr =>
          rw [← List.append_assoc, ← List.append_assoc]
          exact .enter (hp.append hq) hc hr
  | enter hp hc _ ih =>
      rw [List.append_assoc, List.append_assoc]
      exact .enter hp hc (ih ha)

/-- What a cut of a command line reaches is at its path. -/
theorem Reaches.at? (h : Reaches blanks c front path items d) : c.at? path = some d := by
  induction h with
  | here _ => rfl
  | enter _ hc _ ih => rw [Command.at?, hc, Option.bind_some, ih]

end CommandLine

end CommandGate
