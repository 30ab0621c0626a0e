import CommandGate.Path
import CommandGate.Text.Utf8

/-!
# File Trees

A file tree is a value: a folder is a list of named nodes, and a node is a file with its
bytes or a folder. The working directory of the program is the root of the tree, for
relative and for absolute paths alike, and the parent of the root is the root.

A path is resolved name by name from the left. Each name must be looked up in a folder, a
name of more than 255 bytes or a spelling of 4096 bytes or more is refused, and `..` leads
back to the folder above. The last name need not exist: `slot` gives the location of the
entry that the path names, whether there is one or not, and `at?` gives the node there.

`makeFolders` goes up from the end of its path to the first folder that is there, and down again.
It does so over any number of names: the limit of the interpreter on its own recursion is left
out. So are permissions, links, and a disk that is full.

`look` is the view that statements about trees use: what stands at each location, one at a
time.

## Operations

* `stat`, `read`: look, and leave the tree alone.
* `makeFolder`: one new folder, where nothing stands.
* `makeFolders`: a folder and the missing ones above it; what exists already is no error.
* `write`, `append`: the bytes of a file, made if absent.
-/

namespace CommandGate

/-- An entry of a folder. -/
inductive Node where
  | file (content : Bytes)
  | folder (entries : List (String × Node))

/-- A file tree: the entries of its root folder. -/
abbrev FileTree := List (String × Node)

/-- A place in a tree: the names from the root, none of which is `..`. -/
abbrev Location := List String

/-- Why the file system refuses an operation. -/
inductive Errno where
  | notFound
  | occupied
  | notDirectory
  | isDirectory
  | nameTooLong
  deriving DecidableEq

/-- The number of a refusal. -/
def Errno.number : Errno → Nat
  | notFound => 2
  | occupied => 17
  | notDirectory => 20
  | isDirectory => 21
  | nameTooLong => 36

/-- The wording of a refusal. -/
def Errno.message : Errno → String
  | notFound => "No such file or directory"
  | occupied => "File exists"
  | notDirectory => "Not a directory"
  | isDirectory => "Is a directory"
  | nameTooLong => "File name too long"

/-- Why an operation on a path fails: the file system refuses it, or the path holds the
character NUL and is not passed on. -/
inductive FileFault where
  | refused (errno : Errno) (path : Path)
  | embeddedNul
  deriving DecidableEq

/-- The wording of a refusal by the file system, with the name of the thing concerned. -/
def refusalText (number : Int) (reason : String) (name : String) : Text :=
  s!"[Errno {number}] " ++ reason ++ ": " ++ Text.quoted name

/-- The wording of a fault. -/
def FileFault.message : FileFault → Text
  | refused errno path => refusalText errno.number errno.message path.toString
  | embeddedNul => "embedded null byte"

/-- The largest number of bytes in a name. -/
def maxNameBytes : Nat := 255

/-- The largest number of bytes in the spelling of a path. -/
def maxPathBytes : Nat := 4095

namespace FileTree

/-- The node at a location. -/
def at? : FileTree → Location → Option Node
  | t, [] => some (.folder t)
  | t, name :: rest =>
    match t.lookup name with
    | none => none
    | some (.folder entries) => at? entries rest
    | some (.file content) => if rest = [] then some (.file content) else none

/-- What stands at one place, the contents of a folder left out. -/
inductive Entry where
  | folder
  | file (content : Bytes)
  deriving DecidableEq

/-- What stands at a node itself. -/
def entryOf : Node → Entry
  | .folder _ => .folder
  | .file content => .file content

/-- What stands at a location. Two trees in which the same stands everywhere are the same
to every operation here, whatever the order of their entries. -/
def look (t : FileTree) (l : Location) : Option Entry :=
  (t.at? l).map entryOf

/-- The entries with one set: an entry already present is replaced in its place. -/
def setEntry (name : String) (node : Node) : FileTree → FileTree
  | [] => [(name, node)]
  | (n, old) :: rest =>
    if n = name then (n, node) :: rest else (n, old) :: setEntry name node rest

/-- The tree with a node put at a location whose parent is a folder; otherwise unchanged. -/
def put (node : Node) : FileTree → Location → FileTree
  | t, [] => t
  | t, [name] => setEntry name node t
  | t, name :: rest =>
    match t.lookup name with
    | some (.folder entries) => setEntry name (.folder (put node entries rest)) t
    | _ => t

/-- Whether a folder stands at a location. -/
def isFolderAt (t : FileTree) (l : Location) : Bool :=
  t.look l = some .folder

/-- The location that one more name leads to from an existing one. The last step of a path
need not find anything there. -/
def step (t : FileTree) (here : Location) (name : String) : Except Errno Location :=
  if !t.isFolderAt here then .error .notDirectory
  else if name = ".." then .ok here.dropLast
  else if maxNameBytes < name.utf8ByteSize then .error .nameTooLong
  else .ok (here ++ [name])

/-- The location of the entry that names lead to; every step but the last must find
something. -/
def slot (t : FileTree) (here : Location) : List String → Except Errno Location
  | [] => .ok here
  | [name] => t.step here name
  | name :: rest => do
    let next ← t.step here name
    if (t.at? next).isNone then .error .notFound else t.slot next rest

/-- The location of the entry that a path names. -/
def resolve (t : FileTree) (p : Path) : Except FileFault Location :=
  if p.hasNul then .error .embeddedNul
  else if maxPathBytes < p.toString.utf8ByteSize then .error (.refused .nameTooLong p)
  else (t.slot [] p.names).mapError (.refused · p)

/-- What a path leads to. -/
def stat (t : FileTree) (p : Path) : Except FileFault Node := do
  match t.at? (← t.resolve p) with
  | some node => return node
  | none => .error (.refused .notFound p)

/-- Whether anything stands at a path. A path that leads nowhere is only absent; a name
that is too long is refused. -/
def present (t : FileTree) (p : Path) : Except FileFault Bool :=
  match t.stat p with
  | .ok _ => .ok true
  | .error (.refused .nameTooLong q) => .error (.refused .nameTooLong q)
  | .error _ => .ok false

/-- Whether a path leads to a folder. -/
def isFolder (t : FileTree) (p : Path) : Bool :=
  match t.stat p with
  | .ok (.folder _) => true
  | _ => false

/-- The bytes of a file. -/
def read (t : FileTree) (p : Path) : Except FileFault Bytes := do
  match ← t.stat p with
  | .file content => return content
  | .folder _ => .error (.refused .isDirectory p)

/-- The tree with a new empty folder at a path where nothing stands. -/
def makeFolder (t : FileTree) (p : Path) : Except FileFault FileTree := do
  let l ← t.resolve p
  if (t.at? l).isSome then .error (.refused .occupied p)
  else return t.put (.folder []) l

/-- Makes one folder; one that exists already is no error. -/
def ensureFolder (t : FileTree) (p : Path) : FileTree × Except FileFault Unit :=
  match t.makeFolder p with
  | .ok made => (made, .ok ())
  | .error f => if t.isFolder p then (t, .ok ()) else (t, .error f)

/-- Makes the folder with the given names in reverse, and the missing ones above it. What
was made before a fault stays. -/
def makeFoldersUp (t : FileTree) (anchor : Anchor) : List String → FileTree × Except FileFault Unit
  | [] => t.ensureFolder ⟨anchor, []⟩
  | name :: above =>
    let p : Path := ⟨anchor, (name :: above).reverse⟩
    match t.ensureFolder p with
    | (_, .error (.refused .notFound _)) =>
      match t.makeFoldersUp anchor above with
      | (made, .ok ()) => ensureFolder made p
      | (made, .error f) => (made, .error f)
    | answer => answer

/-- Makes a folder and the missing ones above it. -/
def makeFolders (t : FileTree) (p : Path) : FileTree × Except FileFault Unit :=
  t.makeFoldersUp p.anchor p.names.reverse

/-- The tree in which a file holds what `change` makes of its bytes; a file that is absent
counts as empty. -/
def update (t : FileTree) (p : Path) (change : Bytes → Bytes) : Except FileFault FileTree := do
  let l ← t.resolve p
  match t.at? l with
  | some (.folder _) => .error (.refused .isDirectory p)
  | some (.file content) => return t.put (.file (change content)) l
  | none => return t.put (.file (change [])) l

/-- The tree in which a file holds the given bytes. -/
def write (t : FileTree) (p : Path) (content : Bytes) : Except FileFault FileTree :=
  t.update p fun _ => content

/-- The tree in which a file has the given bytes at its end. -/
def append (t : FileTree) (p : Path) (content : Bytes) : Except FileFault FileTree :=
  t.update p (· ++ content)

end FileTree

end CommandGate
