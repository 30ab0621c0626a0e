import CommandGate.Json.Writer
import CommandGate.Proofs.Number.Digits
import CommandGate.Proofs.Text.Utf8

/-!
# What JSON Values Hold

Statements about all the texts and whole numbers in a value, at any depth, are instances of
`Json.Holds`. The names of members count among the texts.

## Main results

* `Json.forall_writeAt`: what the code points of a document are like.
* `Json.isScalar_write`: a value whose texts hold no surrogates has a document without
  surrogates.
* `Json.lineFree_write`: a document in the style of logs is on one line.
-/

namespace CommandGate

namespace Json

mutual

/-- All texts of a value, the names of members included, are as `text` says, and all its
whole numbers are as `integer` says. -/
def Holds (text : Text → Prop) (integer : Int → Prop) : Json → Prop
  | .null => True
  | .bool _ => True
  | .integer n => integer n
  | .number _ => True
  | .string t => text t
  | .array items => ItemsHold text integer items
  | .object members => MembersHold text integer members

/-- What `Holds` says of all items. -/
def ItemsHold (text : Text → Prop) (integer : Int → Prop) : List Json → Prop
  | [] => True
  | v :: vs => Holds text integer v ∧ ItemsHold text integer vs

/-- What `Holds` says of a member: its name and its value. -/
def MemberHolds (text : Text → Prop) (integer : Int → Prop) : Text × Json → Prop
  | (name, v) => text name ∧ Holds text integer v

/-- What `Holds` says of all members. -/
def MembersHold (text : Text → Prop) (integer : Int → Prop) : List (Text × Json) → Prop
  | [] => True
  | m :: ms => MemberHolds text integer m ∧ MembersHold text integer ms

end

/-- A value without surrogates: its texts have none. -/
abbrev IsScalar (v : Json) : Prop :=
  v.Holds Text.IsScalar fun _ => True

/-! ### The code points of documents -/

variable {style : Style} {P : CodePoint → Prop} {text : Text → Prop} {integer : Int → Prop}

/-- Texts of which what is written has only code points of a kind. -/
def WrittenAs (style : Style) (P : CodePoint → Prop) (t : Text) : Prop :=
  ∀ c ∈ t, ∀ d ∈ writePoint style c, P d

/-- What holds of printable ASCII characters holds of a text of such characters. -/
theorem forall_map_scalar (ascii : ∀ c : Char, IsPlainAscii c → P (.scalar c)) {cs : List Char}
    (h : ∀ c ∈ cs, IsPlainAscii c) : ∀ c ∈ cs.map CodePoint.scalar, P c := by
  intro c hc
  obtain ⟨d, hd, rfl⟩ := List.mem_map.mp hc
  exact ascii d (h d hd)

/-- What holds of printable ASCII characters holds of a string of such characters. -/
theorem forall_ofString (ascii : ∀ c : Char, IsPlainAscii c → P (.scalar c)) {s : String}
    (h : (s.toList.all fun c => IsPlainAscii c) = true) : ∀ c ∈ Text.ofString s, P c :=
  forall_map_scalar ascii (plainAscii_of_all h)

/-- A written string has only code points of a kind if its own points are written as such. -/
theorem forall_writeString (ascii : ∀ c : Char, IsPlainAscii c → P (.scalar c)) {t : Text}
    (h : WrittenAs style P t) : ∀ c ∈ writeString style t, P c := by
  have quote : P (.scalar '"') := ascii '"' (by decide)
  rw [writeString]
  simp only [List.forall_mem_append, List.forall_mem_singleton]
  refine ⟨⟨quote, fun c hc => ?_⟩, quote⟩
  obtain ⟨d, hd, hcd⟩ := List.mem_flatMap.mp hc
  exact h d hd c hcd

/-- Whole numbers are written in printable ASCII characters. -/
theorem forall_writeInteger (ascii : ∀ c : Char, IsPlainAscii c → P (.scalar c)) (n : Int) :
    ∀ c ∈ writeInteger n, P c := by
  have hdigits := (areDigits_toDigits n.natAbs).plainAscii
  refine forall_map_scalar ascii ?_
  split
  · exact List.forall_mem_cons.mpr ⟨by decide, hdigits⟩
  · exact hdigits

/-- The separators of a style are ASCII characters and its line breaks. -/
theorem forall_separator (ascii : ∀ c : Char, IsPlainAscii c → P (.scalar c))
    (breaks : ∀ depth, ∀ c ∈ style.lineBreak depth, P c) (depth : Nat) :
    ∀ c ∈ style.separator depth, P c := by
  have comma : ∀ c ∈ Text.ofString ",", P c := forall_ofString ascii rfl
  rw [Style.separator]
  cases style.indent with
  | none => exact forall_ofString ascii rfl
  | some width => exact List.forall_mem_append.mpr ⟨comma, breaks depth⟩

mutual

/-- **The code points of a document** are of a kind if printable ASCII is, and the line
breaks of the style, and what is written for the texts of the value. -/
theorem forall_writeAt (ascii : ∀ c : Char, IsPlainAscii c → P (.scalar c))
    (breaks : ∀ depth, ∀ c ∈ style.lineBreak depth, P c)
    (texts : ∀ t, text t → WrittenAs style P t) (depth : Nat) :
    ∀ v : Json, v.Holds text integer → ∀ c ∈ writeAt style depth v, P c
  | .null, _ => by
      rw [writeAt]
      exact forall_ofString ascii rfl
  | .bool true, _ => by
      rw [writeAt]
      exact forall_ofString ascii rfl
  | .bool false, _ => by
      rw [writeAt]
      exact forall_ofString ascii rfl
  | .integer n, _ => by
      rw [writeAt]
      exact forall_writeInteger ascii n
  | .number x, _ => by
      rw [writeAt]
      exact forall_map_scalar ascii x.plainAscii_text
  | .string t, h => by
      rw [writeAt]
      exact forall_writeString ascii (texts t h)
  | .array [], _ => by
      rw [writeAt]
      exact forall_ofString ascii rfl
  | .array (v :: vs), h => by
      rw [Holds, ItemsHold] at h
      simp only [writeAt, List.forall_mem_append]
      exact ⟨⟨⟨⟨⟨forall_ofString ascii rfl, breaks _⟩,
        forall_writeAt ascii breaks texts (depth + 1) v h.1⟩,
        forall_writeItems ascii breaks texts (depth + 1) vs h.2⟩, breaks _⟩,
        forall_ofString ascii rfl⟩
  | .object [], _ => by
      rw [writeAt]
      exact forall_ofString ascii rfl
  | .object (m :: ms), h => by
      rw [Holds, MembersHold] at h
      simp only [writeAt, List.forall_mem_append]
      exact ⟨⟨⟨⟨⟨forall_ofString ascii rfl, breaks _⟩,
        forall_writeMember ascii breaks texts (depth + 1) m h.1⟩,
        forall_writeMembers ascii breaks texts (depth + 1) ms h.2⟩, breaks _⟩,
        forall_ofString ascii rfl⟩

/-- The case of items in `forall_writeAt`. -/
theorem forall_writeItems (ascii : ∀ c : Char, IsPlainAscii c → P (.scalar c))
    (breaks : ∀ depth, ∀ c ∈ style.lineBreak depth, P c)
    (texts : ∀ t, text t → WrittenAs style P t) (depth : Nat) :
    ∀ vs : List Json, ItemsHold text integer vs →
      ∀ c ∈ writeItems style depth vs, P c
  | [], _ => by simp [writeItems]
  | v :: vs, h => by
      rw [ItemsHold] at h
      simp only [writeItems, List.forall_mem_append]
      exact ⟨⟨forall_separator ascii breaks depth, forall_writeAt ascii breaks texts depth v h.1⟩,
        forall_writeItems ascii breaks texts depth vs h.2⟩

/-- The case of one member in `forall_writeAt`. -/
theorem forall_writeMember (ascii : ∀ c : Char, IsPlainAscii c → P (.scalar c))
    (breaks : ∀ depth, ∀ c ∈ style.lineBreak depth, P c)
    (texts : ∀ t, text t → WrittenAs style P t) (depth : Nat) :
    ∀ m : Text × Json, MemberHolds text integer m →
      ∀ c ∈ writeMember style depth m, P c
  | (name, v), h => by
      rw [MemberHolds] at h
      simp only [writeMember, List.forall_mem_append]
      exact ⟨⟨forall_writeString ascii (texts name h.1), forall_ofString ascii rfl⟩,
        forall_writeAt ascii breaks texts depth v h.2⟩

/-- The case of members in `forall_writeAt`. -/
theorem forall_writeMembers (ascii : ∀ c : Char, IsPlainAscii c → P (.scalar c))
    (breaks : ∀ depth, ∀ c ∈ style.lineBreak depth, P c)
    (texts : ∀ t, text t → WrittenAs style P t) (depth : Nat) :
    ∀ ms : List (Text × Json), MembersHold text integer ms →
      ∀ c ∈ writeMembers style depth ms, P c
  | [], _ => by simp [writeMembers]
  | m :: ms, h => by
      rw [MembersHold] at h
      simp only [writeMembers, List.forall_mem_append]
      exact ⟨⟨forall_separator ascii breaks depth,
        forall_writeMember ascii breaks texts depth m h.1⟩,
        forall_writeMembers ascii breaks texts depth ms h.2⟩

end

/-! ### Documents without surrogates, and on one line -/

/-- An escape has no surrogates, whatever it stands for. -/
theorem isScalar_numberedEscape (c : CodePoint) : (numberedEscape c).IsScalar := by
  unfold numberedEscape unitEscape
  dsimp only
  split <;> simp

/-- A code point that is no surrogate is written without surrogates in every style. -/
theorem isScalar_writePoint (style : Style) {c : CodePoint} (h : c.isSurrogate = false) :
    (writePoint style c).IsScalar := by
  rw [writePoint]
  split_ifs <;> first | exact Text.isScalar_ofString _ | exact isScalar_numberedEscape c | simp [h]

/-- **Documents of values without surrogates** have no surrogates. -/
theorem isScalar_write (style : Style) {v : Json} (h : v.IsScalar) :
    (write style v).IsScalar := by
  refine forall_writeAt (fun _ _ => rfl) (fun depth c hc => ?_)
    (fun t ht c hc => isScalar_writePoint style (ht c hc)) 0 v h
  rw [Style.lineBreak] at hc
  cases hi : style.indent with
  | none => simp [hi] at hc
  | some width =>
      simp only [hi, List.mem_cons, List.mem_replicate] at hc
      rcases hc with rfl | ⟨-, rfl⟩ <;> rfl

/-- A text without line breaks. -/
def LineFree (t : Text) : Prop :=
  ∀ c ∈ t, c ≠ .scalar '\n' ∧ c ≠ .scalar '\r'

/-- Printable ASCII characters do not break lines. -/
theorem lineFree_of_plainAscii (c : Char) (h : IsPlainAscii c) :
    CodePoint.scalar c ≠ .scalar '\n' ∧ CodePoint.scalar c ≠ .scalar '\r' := by
  constructor
  · rintro ⟨⟩
    exact absurd h (by decide)
  · rintro ⟨⟩
    exact absurd h (by decide)

/-- Hexadecimal digits are printable ASCII characters. -/
theorem plainAscii_hexDigits (width n : Nat) : ∀ c ∈ hexDigits width n, IsPlainAscii c := by
  have hall : ∀ d < 16, IsPlainAscii (Nat.digitChar d) := by decide
  induction width generalizing n with
  | zero => simp [hexDigits]
  | succ width ih =>
      rw [hexDigits, List.forall_mem_append, List.forall_mem_singleton]
      exact ⟨ih _, hall _ (Nat.mod_lt _ (by decide))⟩

/-- What is written for a code point holds no line break. -/
theorem lineFree_writePoint (style : Style) (c : CodePoint) : LineFree (writePoint style c) := by
  have plain {cs : List Char} (h : ∀ d ∈ cs, IsPlainAscii d) : LineFree (cs.map .scalar) :=
    forall_map_scalar lineFree_of_plainAscii h
  have unit (n : Nat) : LineFree (unitEscape n) :=
    plain (List.forall_mem_cons.mpr ⟨by decide,
      List.forall_mem_cons.mpr ⟨by decide, plainAscii_hexDigits 4 n⟩⟩)
  rw [writePoint]
  split_ifs with h₁ h₂ hfeed hreturn
  all_goals try exact plain (plainAscii_of_all rfl)
  · unfold numberedEscape
    dsimp only
    split
    · exact unit _
    · exact List.forall_mem_append.mpr ⟨unit _, unit _⟩
  · exact List.forall_mem_singleton.mpr ⟨hfeed, hreturn⟩

/-- **A document in the style of logs** holds no line break. -/
theorem lineFree_write {v : Json} (h : v.Holds text integer) : LineFree (write .line v) :=
  forall_writeAt lineFree_of_plainAscii (fun _ _ hc => by simp [Style.lineBreak, Style.line] at hc)
    (fun _ _ c _ => lineFree_writePoint .line c) 0 v h

end Json

end CommandGate
