import OpticalDisc.Error
import OpticalDisc.Files.Path

/-!
# File trees

The files that a command works on, as a value: a tree of directories with a working directory in
it. Lookups follow the path piece by piece, so every piece before the last has to be a directory,
and so has the last one if a slash, `.` or `..` follows.
-/

namespace OpticalDisc

inductive FileNode
  | file (content : ByteArray)
  | directory (entries : List (String × FileNode))

namespace FileNode

def entries : FileNode → List (String × FileNode)
  | file _ => []
  | directory entries => entries

def isDirectory : FileNode → Bool
  | file _ => false
  | directory _ => true

/-- The node with these names below this one. -/
def at? (node : FileNode) : List String → Option FileNode
  | [] => some node
  | name :: rest =>
    match node.entries.lookup name with
    | some child => child.at? rest
    | none => none

/-- Sets an entry, in its old place if there was one. -/
def setEntry (entries : List (String × FileNode)) (name : String) (child : FileNode) :
    List (String × FileNode) :=
  if entries.any (·.1 == name) then
    entries.map fun entry => if entry.1 == name then (name, child) else entry
  else entries ++ [(name, child)]

/-- Puts `leaf` at these names below the node and creates the directories on the way. -/
def put (node leaf : FileNode) : List String → FileNode
  | [] => leaf
  | name :: rest =>
    let child := (node.entries.lookup name).getD (directory [])
    directory (setEntry node.entries name (put child leaf rest))

end FileNode

/-- A tree of files and the names that lead from its root to the working directory. -/
structure FileTree where
  root : FileNode
  working : List String := []

namespace FileTree

variable (tree : FileTree)

/-- The longest name that a directory entry can have, in bytes. -/
def maxNameSize : Nat := 255

/-- The longest path that can be looked up, in bytes. -/
def maxPathSize : Nat := 4095

/-- Follows one piece of a path from the directory with these names. -/
def follow (names : List String) (piece : String) : Except OsError (List String) :=
  match tree.root.at? names with
  | some (.directory entries) =>
    if piece = "" ∨ piece = "." then .ok names
    else if piece = ".." then .ok names.dropLast
    else if maxNameSize < piece.utf8ByteSize then .error .nameTooLong
    else if (entries.lookup piece).isSome then .ok (names ++ [piece])
    else .error .noEntry
  | _ => .error .notDirectory

/-- The names from the root that these pieces of a path lead to. -/
def followAll (path : Path) (pieces : List String) : Except OsError (List String) :=
  if path.text = "" then .error .noEntry
  else if maxPathSize < path.text.utf8ByteSize then .error .nameTooLong
  else pieces.foldlM tree.follow (if path.isAbsolute then [] else tree.working)

/-- The names from the root of what is at a path. -/
def names (path : Path) : Except OsError (List String) :=
  tree.followAll path path.pieces

def node (path : Path) : Except OsError FileNode := do
  match tree.root.at? (← tree.names path) with
  | some node => .ok node
  | none => .error .noEntry

def isDirectory (path : Path) : Bool :=
  match tree.node path with
  | .ok node => node.isDirectory
  | .error _ => false

def isPresent (path : Path) : Bool :=
  (tree.node path).toOption.isSome

/-- The whole content of a file. -/
def content (path : Path) : Except OsError ByteArray := do
  match ← tree.node path with
  | .file content => .ok content
  | .directory _ => .error .isDirectory

/-- The entries of a directory. -/
def entries (path : Path) : Except OsError (List (String × FileNode)) := do
  match ← tree.node path with
  | .directory entries => .ok entries
  | .file _ => .error .notDirectory

/-- The names from the root of the file that writing to `path` creates or replaces. -/
def writable (path : Path) : Except OsError (List String) := do
  let directory ← tree.followAll path path.pieces.dropLast
  let name := path.pieces.getLast?.getD ""
  match tree.root.at? directory with
  | some (.directory entries) =>
    if name = "" ∨ name = "." ∨ name = ".." then .error .isDirectory
    else if maxNameSize < name.utf8ByteSize then .error .nameTooLong
    else
      match entries.lookup name with
      | some (.directory _) => .error .isDirectory
      | _ => .ok (directory ++ [name])
  | _ => .error .notDirectory

/-- The tree with a file at these names from the root. -/
def write (names : List String) (content : ByteArray) : FileTree :=
  { tree with root := tree.root.put (.file content) names }

end FileTree

end OpticalDisc
