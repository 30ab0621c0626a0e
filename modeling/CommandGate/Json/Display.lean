import CommandGate.Json.Writer

/-!
# Showing Values in Messages

A message shows a value in a spelling of its own, which is not JSON: `None`, `True` and
`False` for the three words, `nan` and `inf` for the numbers without digits, quoted text
(`Text.quoted`) for strings inside lists and mappings. A string by itself is shown bare. As in
documents, values may be nested to any depth.
-/

namespace CommandGate

namespace Json

mutual

/-- A value as it stands inside another. -/
def quoted : Json → Text
  | .null => "None"
  | .bool true => "True"
  | .bool false => "False"
  | .integer n => writeInteger n
  | .number x => x.text .plain
  | .string t => t.quoted
  | .array [] => "[]"
  | .array (v :: vs) => "[" ++ quoted v ++ quotedItems vs ++ "]"
  | .object [] => "\x7b\x7d"
  | .object (m :: ms) => "\x7b" ++ quotedMember m ++ quotedMembers ms ++ "\x7d"

/-- The items after the first. -/
def quotedItems : List Json → Text
  | [] => []
  | v :: vs => ", " ++ quoted v ++ quotedItems vs

/-- A member: its name, a colon, and its value. -/
def quotedMember : Text × Json → Text
  | (name, v) => name.quoted ++ ": " ++ quoted v

/-- The members after the first. -/
def quotedMembers : List (Text × Json) → Text
  | [] => []
  | m :: ms => ", " ++ quotedMember m ++ quotedMembers ms

end

/-- A value by itself. -/
def display : Json → Text
  | .string t => t
  | v => quoted v

end Json

end CommandGate
