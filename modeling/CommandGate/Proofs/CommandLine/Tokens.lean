import CommandGate.CommandLine.Token
import Mathlib.Tactic.Common

/-!
# Options and Their Abbreviations

The long names of a command's options are told apart by their third character
(`Separated`), so three characters of a long name are enough to name the option, and two are
too few.

## Main results

* `CommandLine.classify_of_abbreviates`, `CommandLine.abbreviates_of_classify`: the arguments that
  name an option.
* `CommandLine.classify_of_ambiguous`: the arguments that are ambiguous.
-/

namespace CommandGate

namespace CommandLine

/-- Characters that **abbreviate** a long name: at least the first three of it. -/
def Abbreviates (front : List Char) (long : String) : Prop :=
  front <+: long.toList ∧ 3 ≤ front.length

/-- What an attached value looks like behind a name. -/
def attachment : Option String → List Char
  | none => []
  | some value => '=' :: value.toList

/-- Options whose long names are told apart by their third character. -/
structure Separated (options : List OptionSpec) : Prop where
  nodup : options.Nodup
  dashes : ∀ o ∈ options, ['-', '-'] <+: o.long.toList
  long : ∀ o ∈ options, 3 ≤ o.long.toList.length
  noValue : ∀ o ∈ options, '=' ∉ o.long.toList
  apart : ∀ a ∈ options, ∀ b ∈ options, a.long.toList[2]? = b.long.toList[2]? → a = b

/-! ### Attached values -/

/-- A name and its value are split at the first `=`. -/
theorem splitValue_append {front : List Char} (hf : '=' ∉ front) (attached : Option String) :
    splitValue (front ++ attachment attached) = (front, attached) := by
  have hall : ∀ c ∈ front, c ≠ '=' := fun c hc he => hf (he ▸ hc)
  rw [splitValue]
  cases attached with
  | none =>
      have hdrop : (front ++ attachment none).dropWhile (· ≠ '=') = [] := by
        rw [List.dropWhile_append_of_pos (by simpa using hall)]
        rfl
      rw [hdrop]
      simp [attachment]
  | some value =>
      have hdrop : (front ++ attachment (some value)).dropWhile (· ≠ '=') =
          '=' :: value.toList := by
        rw [List.dropWhile_append_of_pos (by simpa using hall)]
        simp [attachment]
      rw [hdrop]
      simp only [Prod.mk.injEq, String.ofList_toList, and_true]
      rw [List.takeWhile_append_of_pos (by simpa using hall)]
      simp [attachment]

/-- What is split makes up the whole. -/
theorem append_of_splitValue {cs front : List Char} {attached : Option String}
    (h : splitValue cs = (front, attached)) : cs = front ++ attachment attached := by
  have hwhole := List.takeWhile_append_dropWhile (p := fun c : Char => c ≠ '=') (l := cs)
  rw [splitValue] at h
  cases hd : cs.dropWhile (fun c : Char => decide (c ≠ '=')) with
  | nil =>
      rw [hd] at h
      obtain ⟨rfl, rfl⟩ := Prod.mk.inj h
      simp [attachment]
  | cons c value =>
      rw [hd] at h hwhole
      obtain ⟨rfl, rfl⟩ := Prod.mk.inj h
      have hc : c = '=' := by
        have hhead := List.head?_dropWhile_not (fun c : Char => decide (c ≠ '=')) cs
        rw [hd] at hhead
        simpa using hhead
      rw [hc] at hwhole
      rw [attachment, String.toList_ofList]
      exact hwhole.symm

/-- A character before the first `=` belongs to the name. -/
theorem splitValue_cons {c : Char} (hc : c ≠ '=') (cs : List Char) :
    splitValue (c :: cs) = (c :: (splitValue cs).1, (splitValue cs).2) := by
  simp only [splitValue]
  rw [List.dropWhile_cons_of_pos (by simpa using hc),
    List.takeWhile_cons_of_pos (by simpa using hc)]
  split <;> rfl

/-! ### Names -/

variable {options : List OptionSpec} {spec : OptionSpec} {front : List Char}

/-- Where an abbreviation is one of two options, they are the same option. -/
theorem Separated.eq_of_prefix (h : Separated options) {a b : OptionSpec} (ha : a ∈ options)
    (hb : b ∈ options) (hfa : front <+: a.long.toList) (hfb : front <+: b.long.toList)
    (hf : 3 ≤ front.length) : a = b := by
  have third (long : List Char) (hl : front <+: long) : long[2]? = front[2]? := by
    obtain ⟨rest, rfl⟩ := hl
    rw [List.getElem?_append_left (by omega)]
  exact h.apart a ha b hb ((third _ hfa).trans (third _ hfb).symm)

/-- An abbreviation begins with two dashes and another character, and holds no `=`. -/
theorem Separated.abbreviation (h : Separated options) (hs : spec ∈ options)
    (hf : Abbreviates front spec.long) :
    '=' ∉ front ∧ ∃ third rest, front = '-' :: '-' :: third :: rest := by
  refine ⟨fun he => h.noValue spec hs (hf.1.subset he), ?_⟩
  obtain ⟨a, b, c, rest, rfl⟩ : ∃ a b c rest, front = a :: b :: c :: rest := by
    match front, hf.2 with
    | a :: b :: c :: rest, _ => exact ⟨a, b, c, rest, rfl⟩
  have hdashes : ['-', '-'] <+: a :: b :: c :: rest :=
    List.prefix_of_prefix_length_le (h.dashes spec hs) hf.1 (by simp)
  obtain ⟨rfl, rfl, -⟩ : '-' = a ∧ '-' = b ∧ True := by simpa using hdashes
  exact ⟨c, rest, rfl⟩

/-- A list without repetition whose only member is known. -/
theorem eq_singleton_of_nodup {α : Type} {l : List α} {a : α} (hn : l.Nodup) (ha : a ∈ l)
    (hall : ∀ x ∈ l, x = a) : l = [a] := by
  match l, ha with
  | [x], _ => rw [hall x (by simp)]
  | x :: y :: rest, _ =>
      have hx := hall x (by simp)
      have hy := hall y (by simp)
      simp [hx, hy] at hn

/-! ### What an argument is -/

/-- A name that is spelled out, or found for a front, is that of an option. -/
theorem named?_eq_option {name : String} {attached value : Option String}
    (h : named? options name attached = some (.option spec value)) :
    spec ∈ options ∧ spec.long = name ∧ value = attached := by
  rw [named?] at h
  cases hf : options.find? (·.long = name) with
  | some found =>
      simp only [hf, Option.some.injEq, Token.option.injEq] at h
      obtain ⟨rfl, rfl⟩ := h
      exact ⟨List.mem_of_find?_eq_some hf, by simpa using List.find?_some hf, rfl⟩
  | none => simp [hf] at h

/-- Short names have two characters, so anything longer that is no long name names nothing. -/
theorem named?_eq_none {name : String} {attached : Option String}
    (hlong : ∀ o ∈ options, o.long ≠ name) (hlen : 3 ≤ name.toList.length) :
    named? options name attached = none := by
  have hfind : options.find? (·.long = name) = none :=
    List.find?_eq_none.mpr fun o ho => by simpa using hlong o ho
  have hshort : options.find? (·.short? = some name) = none := by
    rw [List.find?_eq_none]
    intro o _ ho
    rw [OptionSpec.short?] at ho
    split at ho
    · rename_i letter _
      have hname : String.ofList ['-', letter] = name := Option.some.inj (of_decide_eq_true ho)
      rw [← hname, String.toList_ofList] at hlen
      simp at hlen
    · simp at ho
  rw [named?]
  rw [hfind, hshort]
  rfl

/-- Where a name abbreviates an option, it is the name of that one or of none. -/
theorem Separated.named? (h : Separated options) (hs : spec ∈ options) {name : String}
    (hf : Abbreviates name.toList spec.long) (attached : Option String) :
    CommandLine.named? options name attached = none ∨
      CommandLine.named? options name attached = some (.option spec attached) := by
  by_cases hlong : ∃ o ∈ options, o.long = name
  · right
    rw [CommandLine.named?]
    cases hfind : options.find? (·.long = name) with
    | some found =>
        have hname : found.long = name := by simpa using List.find?_some hfind
        have hsame : found = spec :=
          h.eq_of_prefix (List.mem_of_find?_eq_some hfind) hs
            (hname ▸ List.prefix_rfl) hf.1 hf.2
        rw [hsame]
    | none =>
        obtain ⟨o, ho, hname⟩ := hlong
        exact absurd hname (by simpa using List.find?_eq_none.mp hfind o ho)
  · exact .inl (named?_eq_none (fun o ho hname => hlong ⟨o, ho, hname⟩) hf.2)

/-- An argument that begins with a dash is looked up as it stands, then by what stands
before its first `=`, and is taken for an abbreviation after that. -/
theorem classify_eq {arg : String} {second : Char} {rest front : List Char}
    {attached : Option String} (harg : arg.toList = '-' :: second :: rest)
    (hsplit : splitValue arg.toList = (front, attached)) :
    classify options arg =
      ((CommandLine.named? options arg none).or
        (attached.bind fun value =>
          CommandLine.named? options (String.ofList front) (some value))).getD
      (if second = '-' then
        match abbreviated options front with
        | [] => unnamed arg.toList
        | [spec] => .option spec attached
        | several => .ambiguous (several.map (·.long))
      else
        match options.find? (·.short? = some (String.ofList ['-', second])) with
        | some spec => .letter spec (some (String.ofList rest))
        | none => unnamed arg.toList) := by
  rw [classify]
  split
  · rename_i second' rest' harg'
    obtain ⟨rfl, rfl⟩ : second = second' ∧ rest = rest' := by
      simpa using harg.symm.trans harg'
    rw [← harg]
    dsimp only
    rw [hsplit]
    cases CommandLine.named? options arg none with
    | some token => rfl
    | none =>
        cases attached.bind fun value =>
          CommandLine.named? options (String.ofList front) (some value) with
        | some token => rfl
        | none => rfl
  · rename_i hno
    exact absurd harg (hno second rest)

/-- **An abbreviation names its option**, with or without an attached value. -/
theorem classify_of_abbreviates (attached : Option String) (h : Separated options)
    (hs : spec ∈ options) (hf : Abbreviates front spec.long) {arg : String}
    (harg : arg.toList = front ++ attachment attached) :
    classify options arg = .option spec attached := by
  obtain ⟨hnoValue, third, rest, rfl⟩ := h.abbreviation hs hf
  have hsplit := splitValue_append hnoValue attached
  rw [← harg] at hsplit
  have habbreviated : abbreviated options ('-' :: '-' :: third :: rest) = [spec] := by
    refine eq_singleton_of_nodup (h.nodup.filter _) ?_ fun o ho => ?_
    · exact List.mem_filter.mpr ⟨hs, by simpa using hf.1⟩
    · obtain ⟨hmem, hprefix⟩ := List.mem_filter.mp ho
      exact h.eq_of_prefix hmem hs (by simpa using hprefix) hf.1 hf.2
  rw [classify_eq harg hsplit, if_pos rfl, habbreviated]
  cases attached with
  | none =>
      rw [attachment, List.append_nil] at harg
      rw [Option.bind_none, Option.or_none]
      rcases h.named? hs (by rw [harg]; exact hf) none with hn | hn <;> rw [hn] <;> rfl
  | some value =>
      have hwhole : CommandLine.named? options arg none = none := by
        refine named?_eq_none (fun o ho hname => h.noValue o ho ?_) ?_
        · rw [hname, harg]
          simp [attachment]
        · rw [harg]
          simp
      rw [hwhole, Option.none_or, Option.bind_some]
      have hname : Abbreviates (String.ofList ('-' :: '-' :: third :: rest)).toList spec.long := by
        rwa [String.toList_ofList]
      rcases h.named? hs hname (some value) with hn | hn <;> rw [hn] <;> rfl

/-- What stands before the first `=` of an argument with two dashes is the dashes alone, which
every long name begins with, or is longer. -/
theorem Separated.dashes_or_longer (h : Separated options) {rest : List Char}
    {attached : Option String} (hsplit : splitValue ('-' :: '-' :: rest) = (front, attached)) :
    front = ['-', '-'] ∧ abbreviated options front = options ∨ 3 ≤ front.length := by
  rw [splitValue_cons (by decide), splitValue_cons (by decide)] at hsplit
  obtain ⟨rfl, -⟩ := Prod.mk.inj hsplit
  cases hrest : (splitValue rest).1 with
  | nil => exact .inl ⟨rfl, List.filter_eq_self.mpr fun o ho => by simpa using h.dashes o ho⟩
  | cons c front => exact .inr (by simp)

/-- An argument that is not a word begins with a dash and another character. -/
theorem dash_of_classify_ne_word {arg : String} (h : classify options arg ≠ .word) :
    ∃ second rest, arg.toList = '-' :: second :: rest := by
  rw [classify] at h
  split at h
  · rename_i second rest harg
    exact ⟨second, rest, harg⟩
  · exact absurd rfl h

/-- What names no option is a word or foreign. -/
theorem unnamed_cases (cs : List Char) : unnamed cs = .word ∨ unnamed cs = .foreign := by
  rw [unnamed]
  split
  · exact .inl rfl
  · exact .inr rfl

/-- **How an argument comes to be something else than a word**: it is a name, or has one
before its first `=`, or abbreviates one name or several; else it begins with a short name or
is foreign. -/
theorem classify_cases {arg : String} {attached : Option String}
    (hne : classify options arg ≠ .word) (hsplit : splitValue arg.toList = (front, attached)) :
    CommandLine.named? options arg none = some (classify options arg) ∨
    CommandLine.named? options (String.ofList front) attached = some (classify options arg) ∨
    ((∃ rest, arg.toList = '-' :: '-' :: rest) ∧
      ((∃ spec, abbreviated options front = [spec] ∧
          classify options arg = .option spec attached) ∨
        2 ≤ (abbreviated options front).length ∧
          ∃ names, classify options arg = .ambiguous names)) ∨
    (∃ spec ∈ options, spec.short? = some (String.ofList (arg.toList.take 2)) ∧
      ∃ value, classify options arg = .letter spec value) ∨
    classify options arg = .foreign := by
  obtain ⟨second, rest, harg⟩ := dash_of_classify_ne_word hne
  rw [classify_eq harg hsplit] at hne ⊢
  cases hn : CommandLine.named? options arg none with
  | some token => exact .inl rfl
  | none =>
      rw [hn] at hne
      cases hv : attached.bind fun v =>
          CommandLine.named? options (String.ofList front) (some v) with
      | some token =>
          obtain ⟨value, rfl, hv⟩ := Option.bind_eq_some_iff.mp hv
          exact .inr (.inl hv)
      | none =>
          rw [hv] at hne
          rw [Option.or_none, Option.getD_none] at hne ⊢
          refine .inr (.inr ?_)
          split_ifs at hne ⊢ with hdash
          · cases ha : abbreviated options front with
            | nil =>
                rw [ha] at hne
                exact .inr (.inr ((unnamed_cases _).resolve_left hne))
            | cons a others =>
                refine .inl ⟨⟨rest, by rw [harg, hdash]⟩, ?_⟩
                cases others with
                | nil => exact .inl ⟨a, rfl, rfl⟩
                | cons b others => exact .inr ⟨by simp, _, rfl⟩
          · refine .inr ?_
            cases hfind : options.find? (·.short? = some (String.ofList ['-', second])) with
            | some found =>
                have hshort : found.short? = some (String.ofList (arg.toList.take 2)) := by
                  rw [harg]
                  simpa using List.find?_some hfind
                exact .inl ⟨found, List.mem_of_find?_eq_some hfind, hshort, _, rfl⟩
            | none =>
                rw [hfind] at hne
                exact .inr ((unnamed_cases _).resolve_left hne)

/-- What names an option abbreviates its long name, or is the two dashes for the only option. -/
theorem front_of_classify (h : Separated options) {arg : String} {attached : Option String}
    (hc : classify options arg = .option spec attached) :
    spec ∈ options ∧ ∃ front, arg.toList = front ++ attachment attached ∧
      (Abbreviates front spec.long ∨ front = ['-', '-'] ∧ options.length ≤ 1) := by
  obtain ⟨front, value, hsplit⟩ : ∃ front value, splitValue arg.toList = (front, value) :=
    ⟨_, _, rfl⟩
  have hcases := classify_cases (by rw [hc]; simp) hsplit
  rw [hc] at hcases
  rcases hcases with hn | hn | ⟨⟨rest, harg⟩, ⟨found, ha, hf⟩ | ⟨-, names, hf⟩⟩ |
    ⟨_, _, _, _, hf⟩ | hf
  · obtain ⟨hs, hlong, rfl⟩ := named?_eq_option hn
    refine ⟨hs, spec.long.toList, ?_, .inl ⟨List.prefix_rfl, h.long spec hs⟩⟩
    simp [attachment, hlong]
  · obtain ⟨hs, hlong, rfl⟩ := named?_eq_option hn
    refine ⟨hs, spec.long.toList, ?_, .inl ⟨List.prefix_rfl, h.long spec hs⟩⟩
    rw [hlong, String.toList_ofList]
    exact append_of_splitValue hsplit
  · obtain ⟨rfl, rfl⟩ : spec = found ∧ attached = value := by simpa using hf
    obtain ⟨hs, hfront⟩ : spec ∈ options ∧ front <+: spec.long.toList := by
      have hmem : spec ∈ abbreviated options front := by simp [ha]
      simpa [abbreviated] using hmem
    refine ⟨hs, front, append_of_splitValue hsplit, ?_⟩
    rw [harg] at hsplit
    rcases h.dashes_or_longer hsplit with ⟨hdashes, hall⟩ | hlen
    · rw [ha] at hall
      exact .inr ⟨hdashes, by simp [← hall]⟩
    · exact .inl ⟨hfront, hlen⟩
  · simp at hf
  · simp at hf
  · simp at hf

/-- What names an option abbreviates its long name, unless there is only one option. -/
theorem abbreviates_of_classify (h : Separated options) {arg : String}
    {attached : Option String} (hc : classify options arg = .option spec attached) :
    spec ∈ options ∧ (2 ≤ options.length →
      ∃ front, Abbreviates front spec.long ∧ arg.toList = front ++ attachment attached) := by
  obtain ⟨hs, front, harg, hf | ⟨-, hone⟩⟩ := front_of_classify h hc
  · exact ⟨hs, fun _ => ⟨front, hf, harg⟩⟩
  · exact ⟨hs, fun htwo => absurd hone (by omega)⟩

/-- What names an option and has nothing attached abbreviates its long name, unless it is the
argument that ends the options. -/
theorem abbreviates_of_classify_none (h : Separated options) {arg : String}
    (hne : arg ≠ endOfOptions) (hc : classify options arg = .option spec none) :
    spec ∈ options ∧ Abbreviates arg.toList spec.long := by
  obtain ⟨hs, front, harg, hf⟩ := front_of_classify h hc
  rw [attachment, List.append_nil] at harg
  rw [harg]
  refine ⟨hs, hf.resolve_right fun ⟨hdashes, _⟩ => hne ?_⟩
  rw [← String.toList_inj, harg, hdashes]
  rfl

/-- **What is ambiguous** has two dashes alone before its first `=`. -/
theorem classify_of_ambiguous (h : Separated options) {arg : String} {names : List String}
    (hc : classify options arg = .ambiguous names) : (splitValue arg.toList).1 = ['-', '-'] := by
  obtain ⟨front, value, hsplit⟩ : ∃ front value, splitValue arg.toList = (front, value) :=
    ⟨_, _, rfl⟩
  have named?_ne {name : String} {v : Option String} :
      CommandLine.named? options name v ≠ some (.ambiguous names) := by
    rw [CommandLine.named?]
    split <;> simp
  have hcases := classify_cases (by rw [hc]; simp) hsplit
  rw [hc] at hcases
  rw [hsplit]
  rcases hcases with hn | hn | ⟨⟨rest, harg⟩, ⟨_, _, hf⟩ | ⟨htwo, -⟩⟩ | ⟨_, _, _, _, hf⟩ | hf
  · exact absurd hn named?_ne
  · exact absurd hn named?_ne
  · simp at hf
  · rw [harg] at hsplit
    rcases h.dashes_or_longer hsplit with ⟨hdashes, -⟩ | hlen
    · exact hdashes
    · -- three characters do not stand for two options
      obtain ⟨a, b, others, habbreviated⟩ : ∃ a b others,
          abbreviated options front = a :: b :: others := by
        match abbreviated options front, htwo with
        | a :: b :: others, _ => exact ⟨a, b, others, rfl⟩
      have hnodup : (abbreviated options front).Nodup := h.nodup.filter _
      have hmem (o : OptionSpec) (ho : o ∈ abbreviated options front) :
          o ∈ options ∧ front <+: o.long.toList := by
        simpa [abbreviated] using ho
      have ha := hmem a (by simp [habbreviated])
      have hb := hmem b (by simp [habbreviated])
      have hsame : a = b := h.eq_of_prefix ha.1 hb.1 ha.2 hb.2 hlen
      rw [habbreviated] at hnodup
      simp [hsame] at hnodup
  · simp at hf
  · simp at hf

end CommandLine

end CommandGate
