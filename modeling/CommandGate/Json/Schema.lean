import CommandGate.Json.Basic

/-!
# Schemas of Objects

A schema says what an object has to be like: which members it must have, what is asked of the
value of each member that it knows, and whether there may be others. Of what a schema can ask
there are three things here, a type, the words that a value may be, and the least length of a
string.
-/

namespace CommandGate

namespace Json

/-- The types that a schema can ask for. -/
inductive Kind where
  | number
  | string
  | object

/-- Whether a value is of a type; whole numbers are numbers. -/
def Kind.admits : Kind → Json → Bool
  | number, .number _ => true
  | number, .integer _ => true
  | string, .string _ => true
  | object, .object _ => true
  | _, _ => false

/-- What a schema asks of a value. -/
inductive Keyword where
  | type (kind : Kind)
  | enum (words : List String)
  | minLength (length : Nat)

/-- Whether a value is as a keyword asks; no length is asked of what is no string. -/
def Keyword.admits : Keyword → Json → Bool
  | type kind, value => kind.admits value
  | enum words, .string t => words.any fun word => t = Text.ofString word
  | enum _, _ => false
  | minLength length, .string t => length ≤ t.length
  | minLength _, _ => true

/-- A schema of objects. -/
structure Schema where
  required : List Text
  properties : List (Text × List Keyword)
  additional : Bool

/-- Whether a value is as a schema asks. -/
def Schema.admits (schema : Schema) : Json → Bool
  | .object members =>
    schema.required.all (fun name => (member? name members).isSome) &&
      schema.properties.all (fun (name, keywords) =>
        ((member? name members).toList).all fun value => keywords.all (·.admits value)) &&
      (schema.additional ||
        members.all fun (name, _) => schema.properties.any fun (known, _) => name = known)
  | _ => false

end Json

end CommandGate
