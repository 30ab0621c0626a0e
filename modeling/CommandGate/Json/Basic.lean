import CommandGate.Number.Binary64
import CommandGate.Text.Basic

/-!
# JSON Values

A JSON document holds whole numbers of any size apart from double-precision numbers, and
its objects keep their members in the order in which the names first appeared. A member
that is given again keeps its place and takes the later value (`Json.insert`), so the names
of an object that was read are distinct.
-/

namespace CommandGate

/-- A JSON value. -/
inductive Json where
  | null
  | bool (b : Bool)
  | integer (n : Int)
  | number (x : Binary64)
  | string (t : Text)
  | array (items : List Json)
  | object (members : List (Text × Json))

namespace Json

/-- The members with one more: a name already present keeps its place. -/
def insert (name : Text) (value : Json) : List (Text × Json) → List (Text × Json)
  | [] => [(name, value)]
  | (n, v) :: rest => if n = name then (n, value) :: rest else (n, v) :: insert name value rest

/-- The value of a member. -/
def member? (name : Text) : List (Text × Json) → Option Json
  | [] => none
  | (n, v) :: rest => if n = name then some v else member? name rest

/-- Whether a value counts as nothing given: `null`, `false`, a zero, or something empty. -/
def isVacant : Json → Bool
  | null => true
  | bool b => !b
  | integer n => n == 0
  | number x => x.isZero
  | string t => t.isEmpty
  | array items => items.isEmpty
  | object members => members.isEmpty

/-- A member that is given has the value that it is given. -/
theorem member?_insert_self (name : Text) (value : Json) (members : List (Text × Json)) :
    member? name (insert name value members) = some value := by
  induction members with
  | nil => simp [insert, member?]
  | cons m rest ih =>
    by_cases h : m.1 = name <;> simp [insert, member?, h, ih]

/-- Giving a member leaves those of other names as they are. -/
theorem member?_insert_of_ne {name other : Text} (h : other ≠ name) (value : Json)
    (members : List (Text × Json)) :
    member? other (insert name value members) = member? other members := by
  induction members with
  | nil => simp [insert, member?, h.symm]
  | cons m rest ih =>
    by_cases hm : m.1 = name
    · simp [insert, member?, hm, h.symm]
    · simp [insert, member?, hm, ih]

end Json

end CommandGate
