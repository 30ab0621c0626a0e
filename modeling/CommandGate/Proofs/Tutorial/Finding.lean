import CommandGate.Proofs.Act
import CommandGate.Proofs.Json.Lengths
import CommandGate.Proofs.Json.LineEnds
import CommandGate.Proofs.Text.Decoding

/-!
# Which Tutorial Files Are Accepted

Finding the tutorial state comes to something different for each thing that the path may lead
to (`Tutorial.Answers`): nothing, a folder, or a file. What a file comes to is decided by the
grammar of JSON alone (`Tutorial.Judges`): the files that hold a state are the encoded forms of
objects, and of the three ways to fail the one is taken that is met first.

A path that the file system refuses for its length leads to nothing either, and there finding
the state fails.

## Main results

* `Tutorial.ofBytes_judges`: what bytes come to.
* `Tutorial.find_accepts_objects`: what finding the state comes to.
* `Tutorial.not_answers_of_longPath`: a path that leads to nothing, and is refused.
-/

namespace CommandGate

namespace Json

/-- The documents that are objects, with their members one by one. -/
theorem document_object_iff {fits : Nat → Prop} {members : List (Text × Json)} {t : Text} :
    Document fits (.value (.object members)) t ↔
      ∃ ms, members = collect [] ms ∧ Document fits (.object ms) t := by
  constructor
  · rintro ⟨b₁, u, b₂, ht, h₁, h₂, hu⟩
    cases hu with
    | word h => cases h
    | number h => cases h
    | object h => exact ⟨_, rfl, b₁, u, b₂, ht, h₁, h₂, h⟩
  · rintro ⟨ms, rfl, b₁, u, b₂, ht, h₁, h₂, hu⟩
    exact ⟨b₁, u, b₂, ht, h₁, h₂, .object hu⟩

end Json

namespace Tutorial

open Json (Document ShortLength AnyLength MeetsLong)

/-- What the bytes of a file come to. -/
structure Judges (bytes : Bytes) (answer : Except Fault Tutorial) : Prop where
  /-- Bytes that encode no text are a fault of decoding, and no others are. -/
  decoding : (∃ e, answer = .error (.decoding e)) ↔ ¬ ∃ text, Utf8.encode text = .ok bytes
  /-- There is a state exactly if the text is an object with short whole numbers only. -/
  holder : ∀ text, Utf8.encode text = .ok bytes →
    ((∃ found, answer = .ok found) ↔ ∃ ms, Document ShortLength (.object ms) text)
  /-- These are the objects with whole numbers of any length in which none is too long. -/
  plain : ∀ text, Utf8.encode text = .ok bytes →
    ((∃ found, answer = .ok found) ↔
      (∃ ms, Document AnyLength (.object ms) text) ∧ ∀ n, ¬ MeetsLong n text)
  /-- A whole number that is too long is a fault of its own exactly if nothing is wrong
  before it. -/
  long : ∀ text, Utf8.encode text = .ok bytes →
    ∀ n, answer = .error (.longInteger n) ↔ MeetsLong n text
  /-- All other texts are a tutorial fault. -/
  other : ∀ text, Utf8.encode text = .ok bytes → (¬ ∃ ms, Document ShortLength (.object ms) text) →
    (∀ n, ¬ MeetsLong n text) → ∃ fault, answer = .error (.tutorial fault)

/-- What finding the state at a path comes to, by what the path leads to. -/
structure Answers (path : Path) (t : FileTree) (answer : Except Fault Tutorial) : Prop where
  absent : (∀ node, t.stat path ≠ .ok node) → answer = .ok ⟨on⟩
  folder : ∀ entries, t.stat path = .ok (.folder entries) →
    ∃ fault, answer = .error (.tutorial fault)
  file : ∀ bytes, t.stat path = .ok (.file bytes) → Judges bytes answer

variable {path : Path} {t : FileTree}

/-! ### Documents and bytes -/

/-- A state is found in a text if it can be parsed as an object. -/
theorem ofDocument_eq_ok_iff {text : Text} : (∃ found, ofDocument path text = .ok found) ↔
    ∃ members, Json.parse text = .ok (.object members) := by
  rw [ofDocument]
  cases Json.parse text with
  | ok v => cases v <;> simp
  | error e => cases e <;> simp

/-- A text with a whole number that is too long fails as its parsing does. -/
theorem ofDocument_eq_long_iff {text : Text} {n : Nat} :
    ofDocument path text = .error (.longInteger n) ↔
      Json.parse text = .error (.longInteger n) := by
  rw [ofDocument]
  cases Json.parse text with
  | ok v => cases v <;> simp
  | error e => cases e <;> simp

/-- A text that is decoded comes to a state, to a whole number that is too long, or to a
tutorial fault. -/
theorem ofDocument_cases (path : Path) (text : Text) : (∃ found, ofDocument path text = .ok found) ∨
    (∃ n, ofDocument path text = .error (.longInteger n)) ∨
      ∃ fault, ofDocument path text = .error (.tutorial fault) := by
  rw [ofDocument]
  cases Json.parse text with
  | ok v => cases v <;> simp
  | error e => cases e <;> simp

/-- A text holds a state exactly if it is an object with short whole numbers only. -/
theorem ofDocument_holds_iff {text : Text} :
    (∃ found, ofDocument path (unifyLines text) = .ok found) ↔
      ∃ ms, Document ShortLength (.object ms) text := by
  rw [ofDocument_eq_ok_iff]
  simp only [Json.parse_eq_ok_iff, Json.document_unifyLines]
  simp only [Json.document_object_iff]
  constructor
  · rintro ⟨members, ms, -, hms⟩
    exact ⟨ms, hms⟩
  · rintro ⟨ms, hms⟩
    exact ⟨_, ms, rfl, hms⟩

/-- That is an object with whole numbers of any length, none of which is too long. -/
theorem ofDocument_holds_iff_plain {text : Text} :
    (∃ found, ofDocument path (unifyLines text) = .ok found) ↔
      (∃ ms, Document AnyLength (.object ms) text) ∧ ∀ n, ¬ MeetsLong n text := by
  rw [ofDocument_holds_iff, ← exists_and_right]
  exact exists_congr fun ms => Json.document_short_iff rfl

/-- In a text with its lines unified, the number that is too long is the one met in the text
itself. -/
theorem ofDocument_long_iff {text : Text} {n : Nat} :
    ofDocument path (unifyLines text) = .error (.longInteger n) ↔ MeetsLong n text := by
  rw [ofDocument_eq_long_iff, Json.parse_eq_long_iff, Json.meetsLong_unifyLines]

/-- The bytes of a text come to what the text comes to with its lines unified. -/
theorem ofBytes_of_encode {bytes : Bytes} {text : Text} (h : Utf8.encode text = .ok bytes) :
    ofBytes path bytes = ofDocument path (unifyLines text) := by
  rw [ofBytes, Utf8.decode_eq_ok_iff.mpr h]

/-- Only bytes that cannot be decoded are a fault of decoding. -/
theorem ofBytes_decoding_iff {bytes : Bytes} :
    (∃ e, ofBytes path bytes = .error (.decoding e)) ↔ ∃ e, Utf8.decode bytes = .error e := by
  rw [ofBytes]
  cases Utf8.decode bytes with
  | error e => simp
  | ok text =>
      rcases ofDocument_cases path (unifyLines text) with ⟨_, h⟩ | ⟨_, h⟩ | ⟨_, h⟩ <;> simp [h]

/-- **What bytes come to** is what the grammar says about their text. -/
theorem ofBytes_judges (path : Path) (bytes : Bytes) : Judges bytes (ofBytes path bytes) := by
  constructor
  · exact ofBytes_decoding_iff.trans Utf8.decode_eq_error_iff
  · intro text htext
    rw [ofBytes_of_encode htext]
    exact ofDocument_holds_iff
  · intro text htext
    rw [ofBytes_of_encode htext]
    exact ofDocument_holds_iff_plain
  · intro text htext n
    rw [ofBytes_of_encode htext]
    exact ofDocument_long_iff
  · intro text htext hobject hlong
    rw [ofBytes_of_encode htext]
    rcases ofDocument_cases path (unifyLines text) with hfound | ⟨n, hn⟩ | hfault
    · exact absurd (ofDocument_holds_iff.mp hfound) hobject
    · exact absurd (ofDocument_long_iff.mp hn) (hlong n)
    · exact hfault

/-! ### Paths -/

/-- At a file the state is found in its bytes. -/
theorem find_of_file {bytes : Bytes} (h : t.stat path = .ok (.file bytes)) :
    find path t = ofBytes path bytes := by
  have hpresent : t.present path = .ok true := by rw [FileTree.present, h]
  have hread : t.read path = .ok bytes := by
    rw [FileTree.read, h]
    rfl
  rw [find, hpresent, hread]

/-- At a folder the file cannot be read. -/
theorem find_of_folder {entries : List (String × Node)}
    (h : t.stat path = .ok (.folder entries)) :
    find path t = .error (.tutorial (.unreadable path (.refused .isDirectory))) := by
  have hpresent : t.present path = .ok true := by rw [FileTree.present, h]
  have hread : t.read path = .error (.refused .isDirectory path) := by
    rw [FileTree.read, h]
    rfl
  rw [find, hpresent, hread]

/-- A path that is too long is refused before the file is read, and the refusal is passed on. -/
theorem find_of_tooLong {q : Path} (h : t.stat path = .error (.refused .nameTooLong q)) :
    find path t = .error (.file (.refused .nameTooLong q)) := by
  rw [find, FileTree.present, h]

/-- Where the path leads to nothing the tutorial is on, unless the path is refused for its
length. -/
theorem find_of_absent {f : FileFault} (h : t.stat path = .error f)
    (hf : ∀ q, f ≠ .refused .nameTooLong q) : find path t = .ok ⟨on⟩ := by
  have hpresent : t.present path = .ok false := by
    rw [FileTree.present, h]
    split
    · rename_i he
      exact absurd he (by simp)
    · rename_i q he
      exact absurd (Except.error.inj he) (hf q)
    · rfl
  rw [find, hpresent]

/-- **What finding the state comes to.** It never changes the world. It answers what the path
leads to, exactly unless the file system refuses the path because it or a name in it is too
long. -/
theorem find_accepts_objects (path : Path) (w : World) :
    (World.look (find path)).after w = w ∧
      (Answers path w.tree (find path w.tree) ↔
        ∀ q, w.tree.stat path ≠ .error (.refused .nameTooLong q)) := by
  refine ⟨?_, ?_⟩
  · rw [Act.after, World.look_apply]
    cases find path w.tree <;> rfl
  · cases hstat : w.tree.stat path with
    | ok node =>
        refine iff_of_true ?_ (by simp)
        cases node with
        | file bytes =>
            rw [find_of_file hstat]
            constructor
            · exact fun h => absurd hstat (h _)
            · intro entries h
              simp [hstat] at h
            · intro other h
              obtain rfl : bytes = other := by simpa [hstat] using h
              exact ofBytes_judges path bytes
        | folder entries =>
            rw [find_of_folder hstat]
            constructor
            · exact fun h => absurd hstat (h _)
            · exact fun _ _ => ⟨_, rfl⟩
            · intro other h
              simp [hstat] at h
    | error f =>
        have hnone (node : Node) : w.tree.stat path ≠ .ok node := by simp [hstat]
        constructor
        · rintro h q he
          obtain rfl := Except.error.inj he
          rw [find_of_tooLong hstat] at h
          simpa using h.absent hnone
        · intro h
          rw [find_of_absent hstat fun q he => h q (by rw [he])]
          exact ⟨fun _ => rfl, fun _ he => absurd he (hnone _), fun _ he => absurd he (hnone _)⟩

/-- A name that is too long. -/
def longName : String :=
  String.ofList (List.replicate 256 'a')

/-- The path that leads from the working directory to that name. -/
def longPath : Path :=
  ⟨.relative, [longName]⟩

/-- A name of one letter, however often, has no NUL in it. -/
theorem hasNul_replicate (n : Nat) :
    Path.hasNul ⟨.relative, [String.ofList (List.replicate n 'a')]⟩ = false := by
  simp [Path.hasNul, List.mem_replicate]

/-- The path with the name that is too long is refused in the empty tree. -/
theorem stat_longPath : FileTree.stat [] longPath = .error (.refused .nameTooLong longPath) := by
  have hnul : longPath.hasNul = false := hasNul_replicate 256
  have hspelling : ¬ maxPathBytes < longPath.toString.utf8ByteSize := by decide +kernel
  have hname : maxNameBytes < longName.utf8ByteSize := by decide +kernel
  have hup : longName ≠ ".." := by decide +kernel
  have hstep : FileTree.step [] [] longName = .error .nameTooLong := by
    rw [FileTree.step, if_neg (by decide), if_neg hup, if_pos hname]
  rw [FileTree.stat, FileTree.resolve, hnul, if_neg (by simp), if_neg hspelling, longPath,
    FileTree.slot, hstep]
  rfl

/-- **A path that leads to nothing, and is refused.** There the tutorial is not on: finding the
state fails. -/
theorem not_answers_of_longPath :
    find longPath [] = .error (.file (.refused .nameTooLong longPath)) ∧
      ¬ Answers longPath [] (find longPath []) := by
  have hfind : find longPath [] = .error (.file (.refused .nameTooLong longPath)) :=
    find_of_tooLong stat_longPath
  refine ⟨hfind, fun h => ?_⟩
  have habsent := h.absent (by simp [stat_longPath])
  rw [hfind] at habsent
  simp at habsent

end Tutorial

end CommandGate
