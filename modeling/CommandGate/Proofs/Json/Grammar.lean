import CommandGate.Proofs.Json.Numbers

/-!
# The Grammar of JSON

The grammar is that of RFC 8259, and the words `NaN`, `Infinity` and `-Infinity` are values
too. It relates a text to what the text denotes, production by production and without any
reading: `Json.Spells` for values and for the lists between brackets, `Json.Document` for a
whole text. A text is put together from the texts of its parts.

The grammar leaves open how many digits a whole number may have: every production is
relative to a property `fits` of the number of digits. With all numbers of digits allowed it
is the plain grammar.

A whole number that is too long ends a reading before what comes after it is looked at, so
the grammar also says which texts lead to a place where a value may begin (`Json.Reaches`),
and what it is to meet such a number there (`Json.MeetsLong`).

Members of an object keep their order and their repetitions here; what the object denotes is
`Json.collect` of them.
-/

namespace CommandGate

namespace Json

/-! ### Blanks and words -/

/-- Text of the four blanks only. -/
def AreSpaces (t : Text) : Prop :=
  ∀ c ∈ t, c = .scalar ' ' ∨ c = .scalar '\n' ∨ c = .scalar '\r' ∨ c = .scalar '\t'

/-- The words that are values. -/
inductive Word : Json → Text → Prop
  | null : Word .null "null"
  | yes : Word (.bool true) "true"
  | no : Word (.bool false) "false"
  | nan : Word (.number .nan) "NaN"
  | infinity : Word (.number (.infinity false)) "Infinity"
  | minusInfinity : Word (.number (.infinity true)) "-Infinity"

/-! ### Strings -/

/-- The characters with an escape of one letter, with that letter. -/
inductive Escape : Char → Char → Prop
  | quote : Escape '"' '"'
  | backslash : Escape '\\' '\\'
  | slash : Escape '/' '/'
  | backspace : Escape '\x08' 'b'
  | formFeed : Escape '\x0c' 'f'
  | lineFeed : Escape '\n' 'n'
  | carriageReturn : Escape '\r' 'r'
  | tab : Escape '\t' 't'

/-- A hexadecimal digit, in either case, and its value. -/
def HexDigit (d : Nat) (c : Char) : Prop :=
  d < 16 ∧ (c = Nat.digitChar d ∨ c = (Nat.digitChar d).toUpper)

/-- What stands between the quotes of a string, and the code points it stands for with every
escape taken by itself. -/
inductive SpellsPoints : Text → Text → Prop
  | nil : SpellsPoints [] []
  | plain {c : CodePoint} {points body : Text} (hcontrol : 0x20 ≤ c.value)
      (hquote : c ≠ .scalar '"') (hbackslash : c ≠ .scalar '\\')
      (hbody : SpellsPoints points body) : SpellsPoints (c :: points) (c :: body)
  | letter {c e : Char} {points body : Text} (he : Escape c e)
      (hbody : SpellsPoints points body) :
      SpellsPoints (.scalar c :: points) (.scalar '\\' :: .scalar e :: body)
  | numbered {a b c d : Nat} {x₁ x₂ x₃ x₄ : Char} {points body : Text} (ha : HexDigit a x₁)
      (hb : HexDigit b x₂) (hc : HexDigit c x₃) (hd : HexDigit d x₄)
      (hbody : SpellsPoints points body) :
      SpellsPoints (.ofNat (a * 4096 + b * 256 + c * 16 + d) :: points)
        (.scalar '\\' :: .scalar 'u' :: .scalar x₁ :: .scalar x₂ :: .scalar x₃ :: .scalar x₄ ::
          body)

/-- A high surrogate with a low one directly after it. -/
def StartsPair (points : Text) : Prop :=
  ∃ (high low : Fin 2048) (more : Text), points = .surrogate high :: .surrogate low :: more ∧
    high.val < 0x400 ∧ 0x400 ≤ low.val

/-- The text that code points stand for once the two halves of a pair have become the
character they encode. -/
inductive Joins : Text → Text → Prop
  | nil : Joins [] []
  | pair {high low : Fin 2048} {t points : Text} (hhigh : high.val < 0x400)
      (hlow : 0x400 ≤ low.val) (hrest : Joins t points) :
      Joins (.scalar (Char.ofNat (0x10000 + high.val * 0x400 + (low.val - 0x400))) :: t)
        (.surrogate high :: .surrogate low :: points)
  | single {c : CodePoint} {t points : Text} (hc : ¬ StartsPair (c :: points))
      (hrest : Joins t points) : Joins (c :: t) (c :: points)

/-- A string with its quotes, and the text it denotes. -/
inductive SpellsString : Text → Text → Prop
  | quoted {t points body : Text} (hbody : SpellsPoints points body) (ht : Joins t points) :
      SpellsString t (.scalar '"' :: (body ++ [.scalar '"']))

/-! ### Numbers -/

/-- The sign of an exponent, which may be left out. -/
inductive ExponentSign : Bool → Text → Prop
  | absent : ExponentSign false []
  | plus : ExponentSign false [.scalar '+']
  | minus : ExponentSign true [.scalar '-']

/-- An exponent and its number. -/
inductive SpellsExponent : Int → Text → Prop
  | marked {e : Char} {negative : Bool} {sign : Text} {ds : List Char} (he : e = 'e' ∨ e = 'E')
      (hs : ExponentSign negative sign) (hd : AreDigits ds) (hne : ds ≠ []) :
      SpellsExponent (if negative then -digitsValue ds else digitsValue ds)
        (.scalar e :: (sign ++ ds.map .scalar))

/-- A number. Without a fraction and an exponent it is a whole number. -/
inductive SpellsNumber (fits : Nat → Prop) : Json → Text → Prop
  | whole (negative : Bool) {whole : List Char} (hw : IsWhole whole) (hf : fits whole.length) :
      SpellsNumber fits
        (.integer (if negative then -(digitsValue whole) else digitsValue whole))
        (signText negative ++ whole.map .scalar)
  | fraction (negative : Bool) {whole fraction : List Char} (hw : IsWhole whole)
      (hd : AreDigits fraction) (hne : fraction ≠ []) :
      SpellsNumber fits (.number (Decimal.ofDigits negative whole fraction 0).toBinary64)
        (signText negative ++ (whole.map .scalar ++ (pointed fraction).map .scalar))
  | exponent (negative : Bool) {whole fraction : List Char} {n : Int} {e : Text}
      (hw : IsWhole whole) (hd : AreDigits fraction) (he : SpellsExponent n e) :
      SpellsNumber fits (.number (Decimal.ofDigits negative whole fraction n).toBinary64)
        (signText negative ++ (whole.map .scalar ++ ((pointed fraction).map .scalar ++ e)))

/-! ### Values and documents -/

/-- The pieces of a document with what they denote: a value, an object with its members one
by one, a member, and what stands between brackets that are not empty. -/
inductive Phrase where
  | value (v : Json)
  | object (ms : List (Text × Json))
  | member (m : Text × Json)
  | items (vs : List Json)
  | members (ms : List (Text × Json))

/-- Members added one by one to those before: of equal names the last value counts. -/
def collect (before ms : List (Text × Json)) : List (Text × Json) :=
  ms.foldl (fun members m => insert m.1 m.2 members) before

/-- **The grammar**: the texts that spell a piece of a document. Blanks may stand around the
punctuation; those before a closing bracket belong to what stands between the brackets. -/
inductive Spells (fits : Nat → Prop) : Phrase → Text → Prop
  | word {v : Json} {t : Text} (h : Word v t) : Spells fits (.value v) t
  | number {v : Json} {t : Text} (h : SpellsNumber fits v t) : Spells fits (.value v) t
  | string {s t : Text} (h : SpellsString s t) : Spells fits (.value (.string s)) t
  | emptyArray {b : Text} (hb : AreSpaces b) :
      Spells fits (.value (.array [])) (.scalar '[' :: (b ++ [.scalar ']']))
  | array {b t : Text} {vs : List Json} (hb : AreSpaces b) (h : Spells fits (.items vs) t) :
      Spells fits (.value (.array vs)) (.scalar '[' :: (b ++ (t ++ [.scalar ']'])))
  | emptyObject {b : Text} (hb : AreSpaces b) :
      Spells fits (.object []) (.scalar '\x7b' :: (b ++ [.scalar '\x7d']))
  | fullObject {b t : Text} {ms : List (Text × Json)} (hb : AreSpaces b)
      (h : Spells fits (.members ms) t) :
      Spells fits (.object ms) (.scalar '\x7b' :: (b ++ (t ++ [.scalar '\x7d'])))
  | object {t : Text} {ms : List (Text × Json)} (h : Spells fits (.object ms) t) :
      Spells fits (.value (.object (collect [] ms))) t
  | member {name n b₁ b₂ t : Text} {v : Json} (hn : SpellsString name n) (h₁ : AreSpaces b₁)
      (h₂ : AreSpaces b₂) (h : Spells fits (.value v) t) :
      Spells fits (.member (name, v)) (n ++ (b₁ ++ .scalar ':' :: (b₂ ++ t)))
  | lastItem {b t : Text} {v : Json} (h : Spells fits (.value v) t) (hb : AreSpaces b) :
      Spells fits (.items [v]) (t ++ b)
  | nextItem {b₁ b₂ t u : Text} {v : Json} {vs : List Json} (h : Spells fits (.value v) t)
      (h₁ : AreSpaces b₁) (h₂ : AreSpaces b₂) (hu : Spells fits (.items vs) u) :
      Spells fits (.items (v :: vs)) (t ++ (b₁ ++ .scalar ',' :: (b₂ ++ u)))
  | lastMember {b t : Text} {m : Text × Json} (h : Spells fits (.member m) t)
      (hb : AreSpaces b) : Spells fits (.members [m]) (t ++ b)
  | nextMember {b₁ b₂ t u : Text} {m : Text × Json} {ms : List (Text × Json)}
      (h : Spells fits (.member m) t) (h₁ : AreSpaces b₁) (h₂ : AreSpaces b₂)
      (hu : Spells fits (.members ms) u) :
      Spells fits (.members (m :: ms)) (t ++ (b₁ ++ .scalar ',' :: (b₂ ++ u)))

/-- **A document**: a text that spells a piece of a document, with blanks around it. -/
def Document (fits : Nat → Prop) (p : Phrase) (t : Text) : Prop :=
  ∃ b₁ u b₂, t = b₁ ++ (u ++ b₂) ∧ AreSpaces b₁ ∧ AreSpaces b₂ ∧ Spells fits p u

/-- Any number of digits. -/
def AnyLength (_ : Nat) : Prop :=
  True

/-- A number of digits with which a whole number can be read. -/
def ShortLength (n : Nat) : Prop :=
  n ≤ maxIntegerDigits

/-! ### Whole numbers that are too long -/

/-- A text that goes on with a number: it begins with a digit, a fraction, or an exponent. -/
inductive GoesOn : Text → Prop
  | digit {d : Char} (hd : isAsciiDigit d = true) (more : Text) : GoesOn (.scalar d :: more)
  | fraction {d : Char} (hd : isAsciiDigit d = true) (more : Text) :
      GoesOn (.scalar '.' :: .scalar d :: more)
  | exponent {n : Int} {e : Text} (he : SpellsExponent n e) (more : Text) : GoesOn (e ++ more)

/-- A text that begins with a whole number of `n` digits, more than can be read. -/
def StartsLong (n : Nat) (t : Text) : Prop :=
  ∃ negative whole more, t = signText negative ++ (whole.map .scalar ++ more) ∧ IsWhole whole ∧
    whole.length = n ∧ maxIntegerDigits < n ∧ ¬ GoesOn more

/-- What is being read: a value, or what stands between brackets. -/
inductive Place where
  | value
  | items
  | members

/-- **The texts that lead to a value**: what stands in a value, in items or in members before
the place where a value begins, with nothing wrong in it. -/
inductive Reaches : Place → Text → Prop
  | here : Reaches .value []
  | array {b t : Text} (hb : AreSpaces b) (h : Reaches .items t) :
      Reaches .value (.scalar '[' :: (b ++ t))
  | object {b t : Text} (hb : AreSpaces b) (h : Reaches .members t) :
      Reaches .value (.scalar '\x7b' :: (b ++ t))
  | item {t : Text} (h : Reaches .value t) : Reaches .items t
  | laterItem {b₁ b₂ t u : Text} {v : Json} (ht : Spells ShortLength (.value v) t)
      (h₁ : AreSpaces b₁) (h₂ : AreSpaces b₂) (h : Reaches .items u) :
      Reaches .items (t ++ (b₁ ++ .scalar ',' :: (b₂ ++ u)))
  | member {name n b₁ b₂ t : Text} (hn : SpellsString name n) (h₁ : AreSpaces b₁)
      (h₂ : AreSpaces b₂) (h : Reaches .value t) :
      Reaches .members (n ++ (b₁ ++ .scalar ':' :: (b₂ ++ t)))
  | laterMember {b₁ b₂ t u : Text} {m : Text × Json} (ht : Spells ShortLength (.member m) t)
      (h₁ : AreSpaces b₁) (h₂ : AreSpaces b₂) (h : Reaches .members u) :
      Reaches .members (t ++ (b₁ ++ .scalar ',' :: (b₂ ++ u)))

/-- Reading at a place comes upon a whole number of `n` digits, more than can be read, before
anything wrong. -/
def Meets (place : Place) (n : Nat) (t : Text) : Prop :=
  ∃ before after, t = before ++ after ∧ Reaches place before ∧ StartsLong n after

/-- **Reading a whole text** comes upon a whole number of `n` digits, more than can be read,
before anything wrong. -/
def MeetsLong (n : Nat) (t : Text) : Prop :=
  ∃ b u, t = b ++ u ∧ AreSpaces b ∧ Meets .value n u

end Json

end CommandGate
