/-!
# Paths

A path is an anchor and a list of names. A relative path starts at the working directory;
an absolute one starts at the root, and a path spelled with exactly two leading slashes
keeps them. Repeated slashes, a slash at the end and the component `.` leave no trace, the
component `..` is kept, and the path without names is spelled `.`.
-/

namespace CommandGate

/-- Where a path starts. -/
inductive Anchor where
  | relative
  | root
  | doubleRoot
  deriving DecidableEq

/-- What the spelling of a path begins with. -/
def Anchor.spelling : Anchor → String
  | relative => ""
  | root => "/"
  | doubleRoot => "//"

/-- A path: its anchor, and the names on the way. -/
structure Path where
  anchor : Anchor
  names : List String
  deriving DecidableEq

namespace Path

/-- The pieces of a spelling between slashes. -/
def pieces : List Char → List (List Char)
  | [] => [[]]
  | c :: rest =>
    if c = '/' then [] :: pieces rest
    else match pieces rest with
      | [] => [[c]]
      | p :: ps => (c :: p) :: ps

/-- The anchor of a spelling, by its leading slashes. -/
def anchorOf : List Char → Anchor
  | ['/', '/'] => .doubleRoot
  | '/' :: '/' :: c :: _ => if c = '/' then .root else .doubleRoot
  | '/' :: _ => .root
  | _ => .relative

/-- The path of a spelling. -/
def ofString (s : String) : Path where
  anchor := anchorOf s.toList
  names := ((pieces s.toList).filter fun p => p ≠ [] ∧ p ≠ ['.']).map String.ofList

/-- The spelling of a path. -/
protected def toString (p : Path) : String :=
  if p.anchor = .relative ∧ p.names = [] then "."
  else p.anchor.spelling ++ "/".intercalate p.names

/-- The path one or more names further on. -/
def join (p : Path) (names : List String) : Path :=
  { p with names := p.names ++ names }

/-- The path without its last name; a path without names is its own parent. -/
def parent (p : Path) : Path :=
  { p with names := p.names.dropLast }

/-- Whether a name holds the character NUL, which no file system accepts. -/
def hasNul (p : Path) : Bool :=
  p.names.any fun name => name.toList.contains '\x00'

end Path

end CommandGate
