import CommandGate.FileTree.Basic

/-!
# Arranging and Listing Trees

A tree can be arranged by hand: `plant` puts a file or a folder at a location and makes
room for it, and `uproot` removes whatever stands there. `listing` is the whole tree as a
list of paths with the bytes of files, in the order of the paths.
-/

namespace CommandGate

namespace FileTree

/-- The tree with a file (`some` bytes) or a folder (`none`) at a location. Folders above it
are made, and files in their place give way; a folder planted on a folder leaves it as it
is. -/
def plant (content : Option Bytes) : FileTree → Location → FileTree
  | t, [] => t
  | t, [name] =>
    match content, t.lookup name with
    | some bytes, _ => setEntry name (.file bytes) t
    | none, some (.folder entries) => setEntry name (.folder entries) t
    | none, _ => setEntry name (.folder []) t
  | t, name :: rest =>
    let inside := match t.lookup name with
      | some (.folder entries) => entries
      | _ => []
    setEntry name (.folder (plant content inside rest)) t

/-- The tree without the node at a location. -/
def uproot : FileTree → Location → FileTree
  | t, [] => t
  | t, [name] => t.filter fun entry => entry.1 ≠ name
  | t, name :: rest =>
    match t.lookup name with
    | some (.folder entries) => setEntry name (.folder (uproot entries rest)) t
    | _ => t

mutual

/-- The nodes below and at a path, with the bytes of files. -/
def listNode (path : String) : Node → List (String × Option Bytes)
  | .file content => [(path, some content)]
  | .folder entries => (path, none) :: listEntries (path ++ "/") entries

/-- The nodes of entries whose paths begin with `front`. -/
def listEntries (front : String) : List (String × Node) → List (String × Option Bytes)
  | [] => []
  | entry :: rest => listEntry front entry ++ listEntries front rest

/-- The nodes of one entry. -/
def listEntry (front : String) : String × Node → List (String × Option Bytes)
  | (name, node) => listNode (front ++ name) node

end

/-- All nodes of a tree by path, in the order of the paths. -/
def listing (t : FileTree) : List (String × Option Bytes) :=
  (listEntries "" t).mergeSort fun a b => a.1 ≤ b.1

end FileTree

end CommandGate
