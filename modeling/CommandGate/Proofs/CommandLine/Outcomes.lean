import CommandGate.Proofs.CommandLine.Insertion

/-!
# What Reading a Command Line Comes To

Reading goes from argument to argument and from command to command, and what it comes to can be
traced back to the command line: help and the version are given only because an argument asks
for them (`Asks`), and help and a complaint belong to a command that is there. What one
argument does is said once (`Turn`); what the whole reading comes to (`Traced`) follows by
going from turn to turn.

## Main results

* `CommandLine.walk_turn`: what the reading does with one argument.
* `CommandLine.read_traced`: what the reading of a command line comes to.
-/

namespace CommandGate

namespace CommandLine

/-- An argument **asks** for help or for the version: it begins with the letter for help, or
abbreviates the name of an option that asks for one of them. -/
inductive Asks (options : List OptionSpec) (arg : String) : Prop
  | letter {spec : OptionSpec} {letter : Char} (hs : spec ∈ options)
      (he : spec.effect = .help letter) (ha : ['-', letter] <+: arg.toList) : Asks options arg
  | help {spec : OptionSpec} {letter : Char} (hs : spec ∈ options)
      (he : spec.effect = .help letter) (ha : Abbreviates arg.toList spec.long) :
      Asks options arg
  | version {spec : OptionSpec} (hs : spec ∈ options) (he : spec.effect = .version)
      (ha : Abbreviates arg.toList spec.long) : Asks options arg

/-- **What the reading does with an argument**: it finishes, rejects the argument, answers it, goes
on behind it, or lets a command below begin, which may reject what follows. -/
inductive Turn (c : Command) (found : Findings) (arg : String) (rest : List String) :
    Reading → Prop
  | finish {found' : Findings} (hp : found'.path = found.path) :
      Turn c found arg rest (finish c found')
  | reject (complaint : Complaint) : Turn c found arg rest (.rejected found.path complaint)
  | help (ha : Asks c.options arg) : Turn c found arg rest (.help found.path)
  | version (ha : Asks c.options arg) : Turn c found arg rest .version
  | goOn {found' : Findings} {others : List String} (hp : found'.path = found.path)
      (ho : others <:+ rest) : Turn c found arg rest (walk c found' others)
  | refuse {child : Command} (hc : c.child? arg = some child) (complaint : Complaint) :
      Turn c found arg rest (.rejected (found.enter arg).path complaint)
  | enter {child : Command} (hc : c.child? arg = some child) :
      Turn c found arg rest (walk child (found.enter arg) rest)

/-- What a reading comes to, **traced** back to the arguments, for a command at a path. -/
inductive Traced (options : List OptionSpec) (c : Command) (path args : List String) :
    Reading → Prop
  | accepted (found : Findings) : Traced options c path args (.accepted found)
  | help {more : List String} {d : Command} (hd : c.at? more = some d)
      (ha : ∃ arg ∈ args, Asks options arg) : Traced options c path args (.help (path ++ more))
  | version (ha : ∃ arg ∈ args, Asks options arg) : Traced options c path args .version
  | rejected {more : List String} {d : Command} (hd : c.at? more = some d)
      (complaint : Complaint) : Traced options c path args (.rejected (path ++ more) complaint)
  | leftOver (complaint : Complaint) : Traced options c path args (.rejected [] complaint)

variable {c child : Command} {options others : List OptionSpec} {spec : OptionSpec}
variable {arg word : String} {args more rest path : List String} {found : Findings}
variable {attached : Option String} {r : Reading}

/-- What asks for help among some options does so among more of them. -/
theorem Asks.mono (h : Asks options arg) (hsub : options ⊆ others) : Asks others arg := by
  cases h with
  | letter hs he ha => exact .letter (hsub hs) he ha
  | help hs he ha => exact .help (hsub hs) he ha
  | version hs he ha => exact .version (hsub hs) he ha

/-! ### Arguments that ask -/

/-- Only an option that asks for help has a short name. -/
theorem short?_eq_some_iff {name : String} :
    spec.short? = some name ↔
      ∃ letter, spec.effect = .help letter ∧ name = String.ofList ['-', letter] := by
  rw [OptionSpec.short?]
  cases spec.effect <;> simp [eq_comm]

/-- A short name that is found is that of an option. -/
theorem named?_eq_letter {name : String} {value : Option String}
    (h : named? options name attached = some (.letter spec value)) :
    spec ∈ options ∧ spec.short? = some name := by
  rw [named?] at h
  cases hf : options.find? (·.long = name) with
  | some other => simp [hf] at h
  | none =>
      simp only [hf, Option.map_eq_some_iff, Token.letter.injEq] at h
      obtain ⟨other, hother, rfl, -⟩ := h
      exact ⟨List.mem_of_find?_eq_some hother, by simpa using List.find?_some hother⟩

/-- What stands for a short name begins with it, and so asks for help. -/
theorem asks_of_letter (hc : classify options arg = .letter spec attached) :
    Asks options arg := by
  obtain ⟨front, value, hsplit⟩ : ∃ front value, splitValue arg.toList = (front, value) :=
    ⟨_, _, rfl⟩
  have begins {o : OptionSpec} {name : String} (ho : o ∈ options) (hname : o.short? = some name)
      (hp : name.toList <+: arg.toList) : Asks options arg := by
    obtain ⟨letter, he, rfl⟩ := short?_eq_some_iff.mp hname
    rw [String.toList_ofList] at hp
    exact .letter ho he hp
  have hcases := classify_cases (by rw [hc]; simp) hsplit
  rw [hc] at hcases
  rcases hcases with hn | hn | ⟨-, ⟨_, _, hf⟩ | ⟨-, _, hf⟩⟩ | ⟨o, ho, hshort, -⟩ | hf
  · obtain ⟨hs, hname⟩ := named?_eq_letter hn
    exact begins hs hname List.prefix_rfl
  · obtain ⟨hs, hname⟩ := named?_eq_letter hn
    refine begins hs hname ?_
    rw [String.toList_ofList, append_of_splitValue hsplit]
    exact List.prefix_append _ _
  · simp at hf
  · simp at hf
  · refine begins ho hshort ?_
    rw [String.toList_ofList]
    exact List.take_prefix _ _
  · simp at hf

/-! ### One argument -/

/-- What the reading does with an argument that stands for an option. -/
theorem obey_turn (hasks : ∀ letter, spec.effect = .help letter → attached = none →
      Asks c.options arg)
    (hversion : spec.effect = .version → attached = none → Asks c.options arg)
    (found : Findings) (rest : List String) :
    Turn c found arg rest (obey c found spec attached rest) := by
  cases attached with
  | none =>
      cases he : spec.effect with
      | help letter =>
          simp only [obey, he]
          exact .help (hasks letter he rfl)
      | version =>
          simp only [obey, he]
          exact .version (hversion he rfl)
      | switch =>
          simp only [obey, he]
          exact .goOn rfl List.suffix_rfl
      | choice words =>
          cases rest with
          | nil =>
              simp only [obey, he]
              exact .reject _
          | cons value rest =>
              simp only [obey, he]
              split_ifs
              · exact .reject _
              · exact .goOn rfl (List.suffix_cons value rest)
              · exact .reject _
  | some value =>
      cases he : spec.effect with
      | choice words =>
          simp only [obey, he]
          split_ifs
          · exact .goOn rfl List.suffix_rfl
          · exact .goOn rfl List.suffix_rfl
          · exact .reject _
      | _ =>
          simp only [obey, he]
          exact .reject _

/-- **What the reading does with one argument.** -/
theorem walk_turn (hsep : Separated c.options) (found : Findings) (arg : String)
    (rest : List String) : Turn c found arg rest (walk c found (arg :: rest)) := by
  by_cases hne : arg = endOfOptions
  · rw [walk]
    dsimp only
    rw [if_pos hne]
    split_ifs
    · exact .finish rfl
    · exact .finish rfl
    · exact .reject _
  · cases hc : classify c.options arg with
    | option spec attached =>
        rw [walk_option hne hc]
        refine obey_turn (fun letter he hnone => ?_) (fun he hnone => ?_) found rest
        · obtain ⟨hs, ha⟩ := abbreviates_of_classify_none hsep hne (hnone ▸ hc)
          exact .help hs he ha
        · obtain ⟨hs, ha⟩ := abbreviates_of_classify_none hsep hne (hnone ▸ hc)
          exact .version hs he ha
    | word =>
        rw [walk]
        dsimp only
        rw [if_neg hne, hc]
        dsimp only
        split_ifs
        · exact .goOn rfl List.suffix_rfl
        · cases hchild : c.child? arg with
          | none => exact .reject _
          | some child =>
              dsimp only
              cases firstAmbiguous child.options rest with
              | some complaint => exact .refuse hchild complaint
              | none => exact .enter hchild
    | foreign =>
        rw [walk]
        dsimp only
        rw [if_neg hne, hc]
        exact .goOn rfl List.suffix_rfl
    | letter spec attached =>
        have hasks := asks_of_letter hc
        rw [walk]
        dsimp only
        rw [if_neg hne, hc]
        cases attached with
        | none => exact .help hasks
        | some value =>
            dsimp only
            split
            · split_ifs
              · exact .help hasks
              · exact .reject _
            · exact .reject _
    | ambiguous names =>
        rw [walk]
        dsimp only
        rw [if_neg hne, hc]
        exact .reject _

/-! ### The whole line -/

/-- A reading that is traced for fewer arguments is traced for more. -/
theorem Traced.mono (h : Traced options c path rest r) (hsub : rest ⊆ args) :
    Traced options c path args r := by
  have asked : (∃ arg ∈ rest, Asks options arg) → ∃ arg ∈ args, Asks options arg :=
    fun ⟨arg, hm, ha⟩ => ⟨arg, hsub hm, ha⟩
  cases h with
  | accepted found => exact .accepted found
  | help hd ha => exact .help hd (asked ha)
  | version ha => exact .version (asked ha)
  | rejected hd complaint => exact .rejected hd complaint
  | leftOver complaint => exact .leftOver complaint

/-- A reading that is traced for a command below is traced for the command above it. -/
theorem Traced.above (h : Traced options child (path ++ [word]) args r)
    (hc : c.child? word = some child) : Traced options c path args r := by
  have below {more : List String} {d : Command} (hd : child.at? more = some d) :
      c.at? (word :: more) = some d := by
    rw [Command.at?, hc, Option.bind_some, hd]
  cases h with
  | accepted found => exact .accepted found
  | help hd ha =>
      rw [List.append_assoc]
      exact .help (below hd) ha
  | version ha => exact .version ha
  | rejected hd complaint =>
      rw [List.append_assoc]
      exact .rejected (below hd) complaint
  | leftOver complaint => exact .leftOver complaint

/-- A command at a path may reject what it reads. -/
theorem traced_rejected (options : List OptionSpec) (c : Command) (path args : List String)
    (complaint : Complaint) : Traced options c path args (.rejected path complaint) := by
  have h : Traced options c path args (.rejected (path ++ []) complaint) := .rejected rfl complaint
  rwa [List.append_nil] at h

/-- What a command comes to when it has read everything. -/
theorem finish_traced (options : List OptionSpec) (c : Command) (args : List String)
    (found : Findings) : Traced options c found.path args (finish c found) := by
  rw [finish]
  split_ifs
  · exact traced_rejected ..
  · exact .leftOver _
  · exact .accepted _

/-- **What the reading comes to is traced back** to the arguments that are read. -/
theorem walk_traced (ho : c.Orderly) (hw : c.Within options) :
    Traced options c found.path args (walk c found args) := by
  -- a value is read with its option, so the induction is on the number of arguments
  induction hn : args.length using Nat.strongRecOn generalizing c found args with
  | _ n ih =>
    cases args with
    | nil =>
        rw [walk]
        exact finish_traced ..
    | cons arg rest =>
        have hasks (ha : Asks c.options arg) : ∃ a ∈ arg :: rest, Asks options a :=
          ⟨arg, List.mem_cons_self, ha.mono hw.subset⟩
        have hturn := walk_turn ho.tidy.toSeparated found arg rest
        generalize walk c found (arg :: rest) = reading at hturn ⊢
        cases hturn with
        | finish hp =>
            rw [← hp]
            exact finish_traced ..
        | reject complaint => exact traced_rejected ..
        | help ha =>
            have h : Traced options c found.path (arg :: rest) (.help (found.path ++ [])) :=
              .help rfl (hasks ha)
            rwa [List.append_nil] at h
        | version ha => exact .version (hasks ha)
        | goOn hp hsuffix =>
            have hshorter := hsuffix.length_le
            rw [List.length_cons] at hn
            rw [← hp]
            exact (ih _ (by omega) ho hw rfl).mono
              fun a ha => List.mem_cons_of_mem arg (hsuffix.subset ha)
        | refuse hc complaint => exact (traced_rejected ..).above hc
        | @enter child hc =>
            rw [List.length_cons] at hn
            have hbelow : Traced options child (found.enter arg).path rest
                (walk child (found.enter arg) rest) :=
              ih rest.length (by omega) (ho.child hc) (hw.child hc) rfl
            exact (hbelow.mono fun a ha => List.mem_cons_of_mem arg ha).above hc

/-- **What the reading of a command line comes to**: it is accepted, or an argument asks for what
is given, or a command that is there rejects it. -/
theorem read_traced (ho : c.Orderly) (hw : c.Within options) (args : List String) :
    Traced options c [] args (read c args) := by
  rw [read]
  cases firstAmbiguous c.options args with
  | some complaint => exact .leftOver complaint
  | none =>
      have h : Traced options c ({} : Findings).path args (walk c {} args) := walk_traced ho hw
      exact h

end CommandLine

end CommandGate
