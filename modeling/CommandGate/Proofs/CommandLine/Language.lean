import CommandGate.CommandLine.Reading
import CommandGate.Proofs.CommandLine.Tokens

/-!
# The Command Lines That Are Accepted

What a grammar accepts, without reading anything: a command accepts phrases that each spell
one option, and then the name of a command below it and what that command accepts. Reading a
command line comes to the same, except that it also accepts a phrase that attaches two
dashes to an option with a value and so leaves the value blank; `blanks` says whether these
phrases are among those considered.

## Main results

* `CommandLine.read_eq_accepted_iff`: what is read is what is accepted, blanks included.
* `CommandLine.accepts_false_iff`: what is accepted without blanks.
-/

namespace CommandGate

namespace CommandLine

/-- What one option on a command line says. -/
inductive Item where
  | switched (name : String)
  | valued (name : String) (value : Option String)
  deriving DecidableEq

/-- The value that an item gives to an option. -/
def Item.value? (name : String) : Item → Option (Option String)
  | .switched _ => none
  | .valued other value => if other = name then some value else none

/-- The last value that items give to an option. -/
def lastValue? (name : String) : List Item → Option (Option String)
  | [] => none
  | item :: items => (lastValue? name items).or (item.value? name)

/-- Whether an option takes effect, and does not end the reading. -/
def OptionSpec.TakesEffect (o : OptionSpec) : Prop :=
  o.effect = .switch ∨ ∃ words, o.effect = .choice words

/-- A word that is taken for no option and holds no attached value. -/
def Bare (word : String) : Prop :=
  word.toList.head? ≠ some '-' ∧ '=' ∉ word.toList

instance (word : String) : Decidable (Bare word) :=
  inferInstanceAs (Decidable (_ ∧ _))

/-- An argument whose attached value is two dashes. -/
def AttachesDashes (arg : String) : Prop :=
  (splitValue arg.toList).2 = some endOfOptions

/-- **The phrases that spell an option**: the arguments for one item. A switch stands alone;
a value is the next argument, or is attached. -/
inductive Spells (blanks : Bool) (options : List OptionSpec) : List String → Item → Prop
  | switch {spec : OptionSpec} {arg : String} (hs : spec ∈ options)
      (he : spec.effect = .switch) (ha : Abbreviates arg.toList spec.long) :
      Spells blanks options [arg] (.switched spec.long)
  | next {spec : OptionSpec} {words : List String} {arg value : String} (hs : spec ∈ options)
      (he : spec.effect = .choice words) (hv : value ∈ words)
      (ha : Abbreviates arg.toList spec.long) :
      Spells blanks options [arg, value] (.valued spec.long (some value))
  | joined {spec : OptionSpec} {words : List String} {front : List Char} {arg value : String}
      (hs : spec ∈ options) (he : spec.effect = .choice words) (hv : value ∈ words)
      (hf : Abbreviates front spec.long) (ha : arg.toList = front ++ '=' :: value.toList) :
      Spells blanks options [arg] (.valued spec.long (some value))
  | blank {spec : OptionSpec} {words : List String} {front : List Char} {arg : String}
      (hb : blanks = true) (hs : spec ∈ options) (he : spec.effect = .choice words)
      (hf : Abbreviates front spec.long)
      (ha : arg.toList = front ++ '=' :: endOfOptions.toList) :
      Spells blanks options [arg] (.valued spec.long none)

/-- Arguments that are phrases for items, one after another. -/
inductive Phrases (blanks : Bool) (options : List OptionSpec) :
    List String → List Item → Prop
  | nil : Phrases blanks options [] []
  | cons {front rest : List String} {item : Item} {items : List Item}
      (hf : Spells blanks options front item) (hr : Phrases blanks options rest items) :
      Phrases blanks options (front ++ rest) (item :: items)

/-- **What a command accepts**: phrases for its options, and after them a command below it
unless it does without one. The names of the commands below and the items are given, in
order. -/
inductive Accepts (blanks : Bool) : Command → List String → List String → List Item → Prop
  | alone {c : Command} {args : List String} {items : List Item} (hr : c.required = false)
      (hp : Phrases blanks c.options args items) : Accepts blanks c args [] items
  | enter {c child : Command} {front rest path : List String} {word : String}
      {items others : List Item} (hp : Phrases blanks c.options front items)
      (hc : c.child? word = some child) (hr : Accepts blanks child rest path others) :
      Accepts blanks c (front ++ word :: rest) (word :: path) (items ++ others)

/-- **What leads to a command**: phrases for the options of the commands on the way, and their
names, up to where the command reads on. -/
inductive Reaches (blanks : Bool) :
    Command → List String → List String → List Item → Command → Prop
  | here {c : Command} {args : List String} {items : List Item}
      (hp : Phrases blanks c.options args items) : Reaches blanks c args [] items c
  | enter {c child d : Command} {front rest path : List String} {word : String}
      {items others : List Item} (hp : Phrases blanks c.options front items)
      (hc : c.child? word = some child) (hr : Reaches blanks child rest path others d) :
      Reaches blanks c (front ++ word :: rest) (word :: path) (items ++ others) d

/-- Options that are told apart, and whose values are bare words. One that takes effect is
not alone, or two dashes with a value would do for it. -/
structure Tidy (options : List OptionSpec) : Prop extends Separated options where
  several : ∀ o ∈ options, o.TakesEffect → 2 ≤ options.length
  bare : ∀ o ∈ options, ∀ words, o.effect = .choice words → ∀ w ∈ words, Bare w

/-- A command with tidy options and bare names below it, as are the commands below it. -/
inductive Command.Orderly : Command → Prop
  | intro {c : Command} (options : Tidy c.options)
      (bare : ∀ word child, c.child? word = some child → Bare word)
      (below : ∀ word child, c.child? word = some child → Orderly child) : Orderly c

variable {c : Command} {options : List OptionSpec} {blanks : Bool} {spec : OptionSpec}
variable {arg word : String} {args front rest path : List String} {item : Item}
variable {items others : List Item} {found found' : Findings}

/-! ### Orderly commands -/

/-- The options of an orderly command are tidy. -/
theorem Command.Orderly.tidy : c.Orderly → Tidy c.options
  | ⟨ht, _, _⟩ => ht

/-- The names below an orderly command are bare. -/
theorem Command.Orderly.bare {next : Command} (h : c.Orderly)
    (hc : c.child? word = some next) : Bare word := by
  obtain ⟨-, hbare, -⟩ := h
  exact hbare word next hc

/-- The commands below an orderly one are orderly. -/
theorem Command.Orderly.child {next : Command} (h : c.Orderly)
    (hc : c.child? word = some next) : next.Orderly := by
  obtain ⟨-, -, hbelow⟩ := h
  exact hbelow word next hc

/-! ### Noting items -/

namespace Findings

/-- Notes an item. -/
def add (f : Findings) : Item → Findings
  | .switched name => f.switchOn name
  | .valued name value => f.give name value

/-- Notes items in order. -/
def note (f : Findings) (items : List Item) : Findings :=
  items.foldl add f

/-- Notes that the commands of a path were entered. -/
def follow (f : Findings) (path : List String) : Findings :=
  { f with path := f.path ++ path }

variable (f : Findings)

/-- Noting an item leaves nothing over. -/
@[simp] theorem leftOver_add : (f.add item).leftOver = f.leftOver := by
  cases item <;> rfl

/-- Items are noted in the order they are given in. -/
@[simp] theorem note_cons : f.note (item :: items) = (f.add item).note items := rfl

/-- Items can be noted in two rows. -/
theorem note_append : f.note (items ++ others) = (f.note items).note others :=
  List.foldl_append

/-- Noting items leaves nothing over. -/
@[simp] theorem leftOver_note : (f.note items).leftOver = f.leftOver := by
  induction items generalizing f with
  | nil => rfl
  | cons item items ih => simp [ih]

/-- With no items to follow, the findings stay as they are. -/
@[simp] theorem follow_nil : f.follow [] = f := by
  simp [follow]

/-- Entering a command is following its name. -/
theorem follow_enter : (f.enter word).follow path = f.follow (word :: path) := by
  simp [follow, enter]

/-- It is all the same whether an item is noted before or after commands are entered. -/
theorem add_follow : (f.follow path).add item = (f.add item).follow path := by
  cases item <;> rfl

/-- So it is for a row of items. -/
theorem note_follow (path : List String) :
    (f.follow path).note items = (f.note items).follow path := by
  induction items generalizing f with
  | nil => rfl
  | cons item items ih => rw [note_cons, note_cons, add_follow, ih]

/-- And so it is for a single command. -/
theorem note_enter : (f.enter word).note items = (f.note items).enter word :=
  note_follow f [word]

/-- Noting items enters no command. -/
@[simp] theorem path_note : (f.note items).path = f.path := by
  induction items generalizing f with
  | nil => rfl
  | cons item items ih =>
      rw [note_cons, ih]
      cases item <;> rfl

/-- What is switched on by items was on before or is among them. -/
theorem hasSwitch_note (name : String) :
    (f.note items).hasSwitch name = (f.hasSwitch name || decide (.switched name ∈ items)) := by
  induction items generalizing f with
  | nil => simp [note]
  | cons item items ih =>
      rw [note_cons, ih]
      cases item with
      | switched other =>
          simp [add, hasSwitch, switchOn, Bool.or_assoc]
      | valued other value => simp [add, hasSwitch, give]

/-- Of the values that items give to an option, the last one counts. -/
theorem value?_note (name : String) :
    (f.note items).value? name = (lastValue? name items).or (f.value? name) := by
  induction items generalizing f with
  | nil => rfl
  | cons item items ih =>
      rw [note_cons, ih, lastValue?, Option.or_assoc]
      congr 1
      cases item with
      | switched other => rfl
      | valued other value =>
          simp only [value?, add, give, Item.value?, List.reverse_append, List.reverse_singleton,
            List.singleton_append, List.lookup_cons]
          by_cases hn : other = name
          · simp [hn]
          · simp [hn, beq_false_of_ne (Ne.symm hn)]

end Findings

/-! ### Single arguments -/

/-- A command that is found below another is among those listed there. -/
theorem mem_of_child? {child : Command} (h : c.child? word = some child) :
    ∃ summary, (word, summary, child) ∈ c.children := by
  obtain ⟨⟨summary, found⟩, hl, rfl⟩ := Option.map_eq_some_iff.mp h
  obtain ⟨before, after, hchildren, -⟩ := List.lookup_eq_some_iff.mp hl
  exact ⟨summary, by simp [hchildren]⟩

/-- A bare argument is a word to every command. -/
theorem Bare.classify (h : Bare arg) : CommandLine.classify options arg = .word := by
  cases hc : CommandLine.classify options arg with
  | word => rfl
  | _ =>
      obtain ⟨second, rest, harg⟩ := dash_of_classify_ne_word (by rw [hc]; simp)
      exact absurd (by rw [harg]; rfl) h.1

/-- It is not the argument that ends the options. -/
theorem Bare.ne_endOfOptions (h : Bare arg) : arg ≠ endOfOptions := by
  rintro rfl
  exact h.1 rfl

/-- It has nothing attached. -/
theorem Bare.splitValue (h : Bare arg) :
    CommandLine.splitValue arg.toList = (arg.toList, none) := by
  simpa [attachment] using splitValue_append h.2 none

/-- An argument that stands for an option is not the one that ends the options. -/
theorem ne_endOfOptions_of_abbreviates {front : List Char} (attached : Option String)
    (hf : Abbreviates front spec.long) (harg : arg.toList = front ++ attachment attached) :
    arg ≠ endOfOptions := by
  rintro rfl
  have hlen := congrArg List.length harg
  have hthree := hf.2
  simp [endOfOptions] at hlen
  omega

/-- An argument that is not two dashes before its first `=`. -/
def Tame (arg : String) : Prop :=
  (CommandLine.splitValue arg.toList).1 ≠ ['-', '-']

/-- It is tame. -/
theorem Bare.tame (h : Bare arg) : Tame arg := by
  rw [Tame]
  rw [h.splitValue]
  intro (he : arg.toList = ['-', '-'])
  exact h.1 (by rw [he]; rfl)

/-- So is what abbreviates a long name, with or without a value. -/
theorem tame_of_abbreviates {front : List Char} {attached : Option String}
    (hf : Abbreviates front spec.long) (hn : '=' ∉ front)
    (harg : arg.toList = front ++ attachment attached) : Tame arg := by
  rw [Tame]
  rw [harg, splitValue_append hn]
  rintro rfl
  exact absurd hf.2 (by decide)

/-- Among tame arguments none is ambiguous. -/
theorem firstAmbiguous_of_tame (h : Separated options) (ht : ∀ arg ∈ args, Tame arg) :
    firstAmbiguous options args = none := by
  induction args with
  | nil => rfl
  | cons arg rest ih =>
      have hrest := ih fun a ha => ht a (List.mem_cons_of_mem _ ha)
      rw [firstAmbiguous]
      split
      · rfl
      · split
        · rename_i names hc
          exact absurd (classify_of_ambiguous h hc) (ht arg (by simp))
        · exact hrest

/-! ### Phrases -/

/-- The first argument of a phrase stands for an option; if there is another, it is bare. -/
theorem Spells.cases_args (h : Spells blanks options args item) (ht : Tidy options) :
    ∃ arg rest spec front attached, args = arg :: rest ∧ spec ∈ options ∧
      Abbreviates front spec.long ∧ arg.toList = front ++ attachment attached ∧
      ∀ value ∈ rest, Bare value := by
  cases h with
  | @switch spec arg hs he ha =>
      exact ⟨arg, [], spec, arg.toList, none, rfl, hs, ha, by simp [attachment], by simp⟩
  | @next spec words arg value hs he hv ha =>
      refine ⟨arg, [value], spec, arg.toList, none, rfl, hs, ha, by simp [attachment], ?_⟩
      intro other hother
      obtain rfl : other = value := by simpa using hother
      exact ht.bare spec hs words he other hv
  | @joined spec words front arg value hs he hv hf ha =>
      exact ⟨arg, [], spec, front, some value, rfl, hs, hf, ha, by simp⟩
  | @blank spec words front arg hb hs he hf ha =>
      exact ⟨arg, [], spec, front, some endOfOptions, rfl, hs, hf, ha, by simp⟩

/-- The arguments of a phrase are tame. -/
theorem Spells.tame (h : Spells blanks options args item) (ht : Tidy options) :
    ∀ arg ∈ args, Tame arg := by
  obtain ⟨arg, rest, spec, front, attached, rfl, hs, hf, harg, hrest⟩ := h.cases_args ht
  intro other hother
  rcases List.mem_cons.mp hother with rfl | hother
  · exact tame_of_abbreviates hf (ht.abbreviation hs hf).1 harg
  · exact (hrest other hother).tame

/-- So are those of a row of phrases. -/
theorem Phrases.tame (h : Phrases blanks options args items) (ht : Tidy options) :
    ∀ arg ∈ args, Tame arg := by
  induction h with
  | nil => simp
  | cons hf _ ih =>
      intro arg harg
      exact (List.mem_append.mp harg).elim (hf.tame ht arg) (ih arg)

/-- A phrase may come first. -/
theorem Accepts.cons (h : Accepts blanks c rest path items)
    (hf : Spells blanks c.options front item) :
    Accepts blanks c (front ++ rest) path (item :: items) := by
  cases h with
  | alone hr hp => exact .alone hr (.cons hf hp)
  | enter hp hc hr =>
      rw [← List.append_assoc]
      exact .enter (.cons hf hp) hc hr

/-- What is accepted leads to a command that needs no command below it. -/
theorem Accepts.reaches (h : Accepts blanks c args path items) :
    ∃ d, Reaches blanks c args path items d ∧ d.required = false := by
  induction h with
  | alone hr hp => exact ⟨_, .here hp, hr⟩
  | enter hp hc _ ih =>
      obtain ⟨d, hd, hr⟩ := ih
      exact ⟨d, .enter hp hc hd, hr⟩

/-- So are those before a cut. -/
theorem Reaches.tame {d : Command} (h : Reaches blanks c args path items d) (ho : c.Orderly) :
    ∀ arg ∈ args, Tame arg := by
  induction h with
  | here hp => exact hp.tame ho.tidy
  | enter hp hc _ ih =>
      intro arg harg
      rcases List.mem_append.mp harg with harg | harg
      · exact hp.tame ho.tidy arg harg
      · rcases List.mem_cons.mp harg with rfl | harg
        · exact (ho.bare hc).tame
        · exact ih (ho.child hc) arg harg

/-- So are those of a command line that is accepted. -/
theorem Accepts.tame (h : Accepts blanks c args path items) (ho : c.Orderly) :
    ∀ arg ∈ args, Tame arg := by
  obtain ⟨d, hd, -⟩ := h.reaches
  exact hd.tame ho

/-! ### Reading what is accepted -/

/-- What a command makes of an option, with what is attached to it and what follows it. -/
def obey (c : Command) (found : Findings) (spec : OptionSpec) :
    Option String → List String → Reading
  | none, args =>
    match spec.effect, args with
    | .help _, _ => .help found.path
    | .version, _ => .version
    | .switch, args => walk c (found.switchOn spec.long) args
    | .choice _, [] => .rejected found.path (.valueMissing spec)
    | .choice words, value :: rest =>
      if value = endOfOptions ∨ !isWord c.options value then
        .rejected found.path (.valueMissing spec)
      else if value ∈ words then walk c (found.give spec.long (some value)) rest
      else .rejected found.path (.notAmong spec.label value words)
  | some value, args =>
    match spec.effect with
    | .choice words =>
      if value = endOfOptions then walk c (found.give spec.long none) args
      else if value ∈ words then walk c (found.give spec.long (some value)) args
      else .rejected found.path (.notAmong spec.label value words)
    | _ => .rejected found.path (.valueNotTaken spec value)

/-- An argument that stands for an option is read as that option says. -/
theorem walk_option {attached : Option String} (hne : arg ≠ endOfOptions)
    (hc : classify c.options arg = .option spec attached) :
    walk c found (arg :: args) = obey c found spec attached args := by
  rw [walk]
  dsimp only
  rw [if_neg hne, hc]
  simp only [obey]
  cases attached <;> cases he : spec.effect <;> cases args <;> simp only [he]

/-- **A phrase is noted**, and the reading goes on behind it. -/
theorem walk_spells (h : Spells true c.options front item) (ht : Tidy c.options) :
    walk c found (front ++ rest) = walk c (found.add item) rest := by
  cases h with
  | @switch spec arg hs he ha =>
      have harg : arg.toList = arg.toList ++ attachment none := by simp [attachment]
      have hclass := classify_of_abbreviates none ht.toSeparated hs ha harg
      rw [List.singleton_append,
        walk_option (ne_endOfOptions_of_abbreviates none ha harg) hclass]
      simp only [obey, he, Findings.add]
  | @next spec words arg value hs he hv ha =>
      have harg : arg.toList = arg.toList ++ attachment none := by simp [attachment]
      have hclass := classify_of_abbreviates none ht.toSeparated hs ha harg
      have hbare := ht.bare spec hs words he value hv
      rw [List.cons_append, List.singleton_append,
        walk_option (ne_endOfOptions_of_abbreviates none ha harg) hclass]
      have hword : isWord c.options value = true := by
        rw [isWord]
        rw [hbare.classify]
      simp [obey, he, hbare.ne_endOfOptions, hword, hv, Findings.add]
  | @joined spec words front arg value hs he hv hf ha =>
      have hclass := classify_of_abbreviates (some value) ht.toSeparated hs hf ha
      have hbare := ht.bare spec hs words he value hv
      rw [List.singleton_append,
        walk_option (ne_endOfOptions_of_abbreviates (some value) hf ha) hclass]
      simp [obey, he, hbare.ne_endOfOptions, hv, Findings.add]
  | @blank spec words front arg hb hs he hf ha =>
      have hclass := classify_of_abbreviates (some endOfOptions) ht.toSeparated hs hf ha
      rw [List.singleton_append,
        walk_option (ne_endOfOptions_of_abbreviates (some _) hf ha) hclass]
      simp [obey, he, Findings.add]

/-- Phrases are noted one after another. -/
theorem walk_phrases (h : Phrases true c.options front items) (ht : Tidy c.options) :
    walk c found (front ++ rest) = walk c (found.note items) rest := by
  induction h generalizing found with
  | nil => rfl
  | cons hf _ ih => rw [List.append_assoc, walk_spells hf ht, ih, Findings.note_cons]

/-- The name of a command below is where that command begins to read. -/
theorem walk_child {child : Command} (ho : c.Orderly) (hc : c.child? word = some child)
    (ht : ∀ arg ∈ rest, Tame arg) :
    walk c found (word :: rest) = walk child (found.enter word) rest := by
  have hword := ho.bare hc
  have hchildren : c.children.isEmpty = false := by
    cases hl : c.children with
    | nil => simp [Command.child?, hl] at hc
    | cons _ _ => rfl
  rw [walk]
  dsimp only
  rw [if_neg hword.ne_endOfOptions, hword.classify, hchildren, hc]
  dsimp only
  rw [if_neg (by simp), firstAmbiguous_of_tame (ho.child hc).tidy.toSeparated ht]

/-- **What leads to a command is noted**, and that command reads on. -/
theorem walk_reaches {d : Command} (h : Reaches true c front path items d) (ho : c.Orderly)
    (ht : ∀ arg ∈ rest, Tame arg) :
    walk c found (front ++ rest) = walk d ((found.note items).follow path) rest := by
  induction h generalizing found with
  | here hp => rw [walk_phrases hp ho.tidy, Findings.follow_nil]
  | enter hp hc hr ih =>
      have hmore := List.forall_mem_append.mpr ⟨hr.tame (ho.child hc), ht⟩
      rw [List.append_assoc, List.cons_append, walk_phrases hp ho.tidy, walk_child ho hc hmore,
        ih (ho.child hc), Findings.note_append, Findings.note_enter, Findings.follow_enter]

/-- **What a command accepts is read**, if nothing was left over before. -/
theorem walk_of_accepts (h : Accepts true c args path items) (ho : c.Orderly)
    (hf : found.leftOver = []) :
    walk c found args = .accepted ((found.note items).follow path) := by
  obtain ⟨d, hd, hr⟩ := h.reaches
  have hwalk : walk c found (args ++ []) = _ := walk_reaches hd ho (by simp)
  rw [List.append_nil] at hwalk
  rw [hwalk, walk, finish, hr]
  simp [hf, Findings.follow]

/-! ### What is read is accepted -/

/-- A command that has read everything is content if it requires nothing more and nothing is left
over. -/
theorem finish_eq_accepted_iff :
    finish c found = .accepted found' ↔
      c.required = false ∧ found.leftOver = [] ∧ found' = found := by
  rw [finish]
  split_ifs with hr hl
  · simp [hr]
  · simp [hl]
  · simp [hr, not_not.mp hl, eq_comm]

/-- An option that takes effect completes a phrase. -/
theorem spells_of_obey (ht : Tidy c.options) {attached : Option String}
    (hc : classify c.options arg = .option spec attached)
    (h : obey c found spec attached args = .accepted found') :
    ∃ front rest item, arg :: args = front ++ rest ∧ front ≠ [] ∧
      Spells true c.options front item ∧ walk c (found.add item) rest = .accepted found' := by
  obtain ⟨hs, habbreviates⟩ := abbreviates_of_classify ht.toSeparated hc
  have several := ht.several spec hs
  cases attached with
  | none =>
      have whole (htwo : 2 ≤ c.options.length) : Abbreviates arg.toList spec.long := by
        obtain ⟨before, hb, harg⟩ := habbreviates htwo
        rw [harg, attachment, List.append_nil]
        exact hb
      cases he : spec.effect with
      | help letter => simp [obey, he] at h
      | version => simp [obey, he] at h
      | switch =>
          simp only [obey, he] at h
          exact ⟨[arg], args, _, rfl, by simp, .switch hs he (whole (several (.inl he))), h⟩
      | choice words =>
          have harg := whole (several (.inr ⟨words, he⟩))
          cases args with
          | nil => simp [obey, he] at h
          | cons value rest =>
              simp only [obey, he] at h
              split_ifs at h with hn hv
              exact ⟨[arg, value], rest, _, rfl, by simp, .next hs he hv harg, h⟩
  | some value =>
      cases he : spec.effect with
      | choice words =>
          obtain ⟨before, hb, harg⟩ := habbreviates (several (.inr ⟨words, he⟩))
          simp only [obey, he] at h
          split_ifs at h with hn hv
          · subst hn
            exact ⟨[arg], args, _, rfl, by simp, .blank rfl hs he hb harg, h⟩
          · exact ⟨[arg], args, _, rfl, by simp, .joined hs he hv hb harg, h⟩
      | _ => simp [obey, he] at h

/-- **What the reading does with the first argument** of those that it accepts: they are at
their end, or begin with a phrase or with the name of a command below, or something is left
over. -/
theorem walk_accepted_cases (ht : Tidy c.options) (h : walk c found args = .accepted found') :
    (args = [] ∧ c.required = false ∧ found.leftOver = [] ∧ found' = found) ∨
    (∃ front rest item, args = front ++ rest ∧ front ≠ [] ∧ Spells true c.options front item ∧
      walk c (found.add item) rest = .accepted found') ∨
    (∃ word rest child, args = word :: rest ∧ c.child? word = some child ∧
      walk child (found.enter word) rest = .accepted found') ∨
    ∃ arg rest, args = arg :: rest ∧ walk c (found.leave [arg]) rest = .accepted found' := by
  have not_finished (arg : String) (others : List String) :
      finish c (found.leave (arg :: others)) ≠ .accepted found' := by
    intro hfinish
    simp [finish_eq_accepted_iff, Findings.leave] at hfinish
  cases args with
  | nil =>
      rw [walk, finish_eq_accepted_iff] at h
      exact .inl ⟨rfl, h⟩
  | cons arg rest =>
      by_cases hne : arg = endOfOptions
      · rw [walk] at h
        dsimp only at h
        rw [if_pos hne] at h
        split_ifs at h
        · exact absurd h (not_finished _ _)
        · exact absurd h (not_finished _ _)
      · have hread := h
        rw [walk] at hread
        dsimp only at hread
        rw [if_neg hne] at hread
        cases hc : classify c.options arg with
        | option spec attached =>
            rw [walk_option hne hc] at h
            exact .inr (.inl (spells_of_obey ht hc h))
        | word =>
            rw [hc] at hread
            dsimp only at hread
            split_ifs at hread with hchildren
            · exact .inr (.inr (.inr ⟨arg, rest, rfl, hread⟩))
            · cases hchild : c.child? arg with
              | none => simp [hchild] at hread
              | some child =>
                  rw [hchild] at hread
                  dsimp only at hread
                  split at hread
                  · simp at hread
                  · exact .inr (.inr (.inl ⟨arg, rest, child, rfl, hchild, hread⟩))
        | foreign =>
            rw [hc] at hread
            exact .inr (.inr (.inr ⟨arg, rest, rfl, hread⟩))
        | letter spec attached =>
            rw [hc] at hread
            cases attached with
            | none => simp at hread
            | some value =>
                dsimp only at hread
                split at hread
                · split_ifs at hread
                · simp at hread
        | ambiguous names =>
            rw [hc] at hread
            simp at hread

/-- **What is read is accepted**, and nothing was left over before. -/
theorem accepts_of_walk (ho : c.Orderly) (h : walk c found args = .accepted found') :
    found.leftOver = [] ∧ ∃ path items, Accepts true c args path items ∧
      found' = (found.note items).follow path := by
  -- a phrase may have two arguments, so the induction is on their number
  induction hn : args.length using Nat.strongRecOn generalizing c found args with
  | _ n ih =>
    rcases walk_accepted_cases ho.tidy h with ⟨rfl, hr, hl, rfl⟩ |
      ⟨front, rest, item, rfl, hne, hf, hw⟩ | ⟨word, rest, child, rfl, hc, hw⟩ |
      ⟨arg, rest, rfl, hw⟩
    · exact ⟨hl, [], [], .alone hr .nil, by simp [Findings.note]⟩
    · have hshorter : rest.length < n := by
        have := List.length_pos_iff.mpr hne
        rw [← hn, List.length_append]
        omega
      obtain ⟨hl, path, items, hitems, rfl⟩ := ih _ hshorter ho hw rfl
      exact ⟨by simpa using hl, path, item :: items, hitems.cons hf, rfl⟩
    · obtain ⟨hl, path, items, hitems, rfl⟩ :=
        ih rest.length (by simp [← hn]) (ho.child hc) hw rfl
      refine ⟨hl, word :: path, items, .enter .nil hc hitems, ?_⟩
      rw [Findings.note_enter, Findings.follow_enter]
    · obtain ⟨hl, -⟩ := ih rest.length (by simp [← hn]) ho hw rfl
      simp [Findings.leave] at hl

/-- **What is read is what is accepted**, with values left blank included. -/
theorem read_eq_accepted_iff (ho : c.Orderly) :
    read c args = .accepted found ↔
      ∃ path items, Accepts true c args path items ∧
        found = ((({} : Findings).note items).follow path) := by
  rw [read]
  constructor
  · intro h
    split at h
    · simp at h
    · exact (accepts_of_walk ho h).2
  · rintro ⟨path, items, h, rfl⟩
    rw [firstAmbiguous_of_tame ho.tidy.toSeparated (h.tame ho)]
    exact walk_of_accepts h ho rfl

/-! ### Options that take effect -/

/-- Only options that take effect stand in phrases. -/
theorem Spells.mono {others : List OptionSpec} (h : Spells blanks options args item)
    (hsub : ∀ o ∈ options, o.TakesEffect → o ∈ others) : Spells blanks others args item := by
  cases h with
  | switch hs he ha => exact .switch (hsub _ hs (.inl he)) he ha
  | next hs he hv ha => exact .next (hsub _ hs (.inr ⟨_, he⟩)) he hv ha
  | joined hs he hv hf ha => exact .joined (hsub _ hs (.inr ⟨_, he⟩)) he hv hf ha
  | blank hb hs he hf ha => exact .blank hb (hsub _ hs (.inr ⟨_, he⟩)) he hf ha

/-- Phrases of some options are phrases of others among which they take effect. -/
theorem Phrases.mono {others : List OptionSpec} (h : Phrases blanks options args items)
    (hsub : ∀ o ∈ options, o.TakesEffect → o ∈ others) : Phrases blanks others args items := by
  induction h with
  | nil => exact .nil
  | cons hf _ ih => exact .cons (hf.mono hsub) ih

/-- An option that does not take effect makes no difference. -/
theorem phrases_cons_iff {o : OptionSpec} (ho : ¬ o.TakesEffect) :
    Phrases blanks (o :: options) args items ↔ Phrases blanks options args items := by
  refine ⟨fun h => h.mono fun a ha he => ?_, fun h => h.mono fun a ha _ => ?_⟩
  · rcases List.mem_cons.mp ha with rfl | ha
    · exact absurd he ho
    · exact ha
  · exact List.mem_cons_of_mem _ ha

/-- The last value that items give to an option is one that they give. -/
theorem mem_of_lastValue? {name : String} {value : Option String}
    (h : lastValue? name items = some value) : .valued name value ∈ items := by
  induction items with
  | nil => simp [lastValue?] at h
  | cons item items ih =>
      rw [lastValue?] at h
      cases hlast : lastValue? name items with
      | some v =>
          rw [hlast] at h
          obtain rfl : v = value := by simpa using h
          exact List.mem_cons_of_mem _ (ih hlast)
      | none =>
          rw [hlast, Option.none_or] at h
          cases item with
          | switched other => simp [Item.value?] at h
          | valued other v =>
              simp only [Item.value?] at h
              split_ifs at h with hname
              obtain rfl := Option.some.inj h
              rw [hname]
              exact List.mem_cons_self

/-- A value that phrases give to an option is one of its words. -/
theorem Phrases.mem_words (h : Phrases blanks options args items) {name value : String}
    (hm : .valued name (some value) ∈ items) :
    ∃ spec ∈ options, ∃ words, spec.effect = .choice words ∧ spec.long = name ∧
      value ∈ words := by
  induction h with
  | nil => simp at hm
  | cons hf _ ih =>
      rcases List.mem_cons.mp hm with he | hm
      · cases hf with
        | switch => simp at he
        | next hs heffect hv =>
            obtain ⟨rfl, hvalue⟩ := Item.valued.inj he
            obtain rfl := Option.some.inj hvalue
            exact ⟨_, hs, _, heffect, rfl, hv⟩
        | joined hs heffect hv =>
            obtain ⟨rfl, hvalue⟩ := Item.valued.inj he
            obtain rfl := Option.some.inj hvalue
            exact ⟨_, hs, _, heffect, rfl, hv⟩
        | blank => simp at he
      · exact ih hm

/-- Without options there are no phrases. -/
theorem phrases_nil_iff : Phrases blanks [] args items ↔ args = [] ∧ items = [] := by
  constructor
  · intro h
    cases h with
    | nil => exact ⟨rfl, rfl⟩
    | cons hf _ => cases hf <;> simp_all
  · rintro ⟨rfl, rfl⟩
    exact .nil

/-! ### Values left blank -/

/-- An argument attaches the two dashes if they are its value. -/
theorem attachesDashes_iff {before : List Char} (attached : Option String)
    (hb : '=' ∉ before) (harg : arg.toList = before ++ attachment attached) :
    AttachesDashes arg ↔ attached = some endOfOptions := by
  rw [AttachesDashes]
  rw [harg, splitValue_append hb]

/-- A bare argument attaches nothing. -/
theorem Bare.not_attachesDashes (h : Bare arg) : ¬ AttachesDashes arg := by
  rw [attachesDashes_iff none h.2 (by simp [attachment])]
  simp

/-- A phrase leaves no value blank exactly if no argument of it attaches two dashes. -/
theorem spells_false_iff (ht : Tidy options) :
    Spells false options args item ↔
      Spells true options args item ∧ ∀ arg ∈ args, ¬ AttachesDashes arg := by
  constructor
  · intro h
    cases h with
    | @switch spec arg hs he ha =>
        refine ⟨.switch hs he ha, ?_⟩
        rw [List.forall_mem_singleton, attachesDashes_iff none
          (ht.abbreviation hs ha).1 (by simp [attachment])]
        simp
    | @next spec words arg value hs he hv ha =>
        refine ⟨.next hs he hv ha, ?_⟩
        rw [List.forall_mem_cons, List.forall_mem_singleton, attachesDashes_iff none
          (ht.abbreviation hs ha).1 (by simp [attachment])]
        exact ⟨by simp, (ht.bare spec hs words he value hv).not_attachesDashes⟩
    | @joined spec words before arg value hs he hv hf ha =>
        refine ⟨.joined hs he hv hf ha, ?_⟩
        rw [List.forall_mem_singleton, attachesDashes_iff (some value)
          (ht.abbreviation hs hf).1 ha]
        simpa using (ht.bare spec hs words he value hv).ne_endOfOptions
    | blank hb _ _ _ _ => simp at hb
  · rintro ⟨h, hno⟩
    cases h with
    | switch hs he ha => exact .switch hs he ha
    | next hs he hv ha => exact .next hs he hv ha
    | joined hs he hv hf ha => exact .joined hs he hv hf ha
    | @blank spec words before arg hb hs he hf ha =>
        refine absurd ?_ (hno arg (by simp))
        exact (attachesDashes_iff _ (ht.abbreviation hs hf).1 ha).mpr rfl

/-- Phrases without blanks are those that do not attach the two dashes. -/
theorem phrases_false_iff (ht : Tidy options) :
    Phrases false options args items ↔
      Phrases true options args items ∧ ∀ arg ∈ args, ¬ AttachesDashes arg := by
  constructor
  · intro h
    induction h with
    | nil => exact ⟨.nil, by simp⟩
    | cons hf _ ih =>
        obtain ⟨hfront, hno⟩ := (spells_false_iff ht).mp hf
        exact ⟨.cons hfront ih.1, List.forall_mem_append.mpr ⟨hno, ih.2⟩⟩
  · rintro ⟨h, hno⟩
    induction h with
    | nil => exact .nil
    | cons hf _ ih =>
        obtain ⟨hfront, hrest⟩ := List.forall_mem_append.mp hno
        exact .cons ((spells_false_iff ht).mpr ⟨hf, hfront⟩) (ih hrest)

/-- **What is accepted without blanks** is what is accepted with no argument that attaches two
dashes. -/
theorem accepts_false_iff (ho : c.Orderly) :
    Accepts false c args path items ↔
      Accepts true c args path items ∧ ∀ arg ∈ args, ¬ AttachesDashes arg := by
  constructor
  · intro h
    induction h with
    | alone hr hp =>
        obtain ⟨hp, hno⟩ := (phrases_false_iff ho.tidy).mp hp
        exact ⟨.alone hr hp, hno⟩
    | enter hp hc _ ih =>
        obtain ⟨hp, hfront⟩ := (phrases_false_iff ho.tidy).mp hp
        obtain ⟨hrest, hno⟩ := ih (ho.child hc)
        refine ⟨.enter hp hc hrest, List.forall_mem_append.mpr ⟨hfront, ?_⟩⟩
        exact List.forall_mem_cons.mpr ⟨(ho.bare hc).not_attachesDashes, hno⟩
  · rintro ⟨h, hno⟩
    induction h with
    | alone hr hp => exact .alone hr ((phrases_false_iff ho.tidy).mpr ⟨hp, hno⟩)
    | enter hp hc _ ih =>
        obtain ⟨hfront, hrest⟩ := List.forall_mem_append.mp hno
        exact .enter ((phrases_false_iff ho.tidy).mpr ⟨hp, hfront⟩) hc
          (ih (ho.child hc) fun arg harg => hrest arg (List.mem_cons_of_mem _ harg))

end CommandLine

end CommandGate
