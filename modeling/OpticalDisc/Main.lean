import OpticalDisc.Command.Run

/-!
# The program

The outermost layer: it gathers the files that a request can look at, runs the request on them, and
prints and writes what comes out.
-/

namespace OpticalDisc.Command

/-- The names from the root that a path leads to. -/
def absoluteNames (working : List String) (path : Path) : List String :=
  path.pieces.foldl
    (fun names piece =>
      if piece = "" ∨ piece = "." then names
      else if piece = ".." then names.dropLast
      else names ++ [piece])
    (if path.isAbsolute then [] else working)

/-- Adds a node at a path, unless something is there already. -/
def addNode (tree : FileTree) (path : Path) (node : FileNode) : FileTree :=
  let names := absoluteNames tree.working path
  if (tree.root.at? names).isSome then tree else { tree with root := tree.root.put node names }

/-- The paths of the directories that a path leads through, the path itself last. -/
def steps (path : Path) : List Path :=
  (List.range path.pieces.length).map fun i =>
    ⟨String.intercalate "/" (path.pieces.take (i + 1))⟩

/-- A path as the system takes it. The empty path is the working directory. -/
def onDisk (path : Path) :=
  System.mkFilePath [if path.text = "" then "." else path.text]

/-- The file at a path. One that cannot be read counts as empty. -/
def readFile (path : Path) : IO FileNode := do
  try
    return .file (← IO.FS.readBinFile (onDisk path))
  catch _ =>
    return .file .empty

/-- Adds the directory at a path, with its files' contents or with empty files. -/
def gatherDirectory (tree : FileTree) (path : Path) (withContents : Bool) : IO FileTree := do
  let mut tree := tree
  for entry in ← (onDisk path).readDir do
    let inner := path.join entry.fileName
    let node ←
      if ← entry.path.isDir then pure (FileNode.directory [])
      else if withContents then readFile inner
      else pure (.file .empty)
    tree := addNode tree inner node
  return tree

/-- Adds what is at a path: a file, or a directory with empty files. What is there already stays. -/
def gather (tree : FileTree) (path : Path) : IO FileTree := do
  let mut tree := tree
  for step in steps path do
    if ← (onDisk step).isDir then tree := addNode tree step (.directory [])
  let place := onDisk path
  if ← place.isDir then gatherDirectory tree path false
  else if ← place.pathExists then return addNode tree path (← readFile path)
  else return tree

/-- Adds a disc and the contents of its video directory. -/
def gatherDisc (tree : FileTree) (path : Path) : IO FileTree := do
  let place := onDisk path
  let mut tree := tree
  if ← place.isDir then
    let inside := (← place.readDir).toList.map fun entry => path.join entry.fileName
    for directory in path :: inside do
      if directory.fileName?.any (sameIgnoringCase · DiscFolder.directoryName) then
        if ← (onDisk directory).isDir then
          tree ← gatherDirectory tree directory true
  gather tree path

/-- The disc that a request is about. -/
def Request.disc? : Request → Option String
  | .titles disc _ | .chapters disc _ _ | .dump disc _ _ _ | .probe disc => some disc
  | .validate | .version => none

/-- The file that a request creates. -/
def Request.output? : Request → Option Path
  | .dump _ _ _ output => output
  | _ => none

/-- The files that a request can look at. -/
def gatherAll (home : Option String) (invocation : Invocation) : IO FileTree := do
  let working := (Path.mk (← IO.currentDir).toString).pieces.filter (· ≠ "")
  let mut tree : FileTree := { root := .directory [], working }
  for disc in invocation.request.disc?.toList do
    tree ← gatherDisc tree (Location.ofText tree disc).path
  for path in invocation.settingsFile.toList ++ Settings.standardPaths home do
    tree ← gather tree path
  for path in invocation.request.output?.toList do
    tree ← gather tree (path.parent?.getD ⟨"."⟩)
  return tree

end OpticalDisc.Command

open OpticalDisc Command in
def main (arguments : List String) : IO UInt32 := do
  let home ← IO.getEnv "HOME"
  let tree ←
    match Invocation.ofArguments arguments with
    | .ok invocation => gatherAll home invocation
    | .error _ => pure { root := .directory [] }
  let outcome := run tree home arguments
  (← IO.getStdout).write outcome.output
  for path in outcome.written do
    if let .ok content := outcome.tree.content path then IO.FS.writeBinFile path.text content
  IO.eprint outcome.errors
  return outcome.exitCode.toUInt32
