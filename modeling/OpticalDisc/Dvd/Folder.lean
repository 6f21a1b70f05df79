import OpticalDisc.Dvd.TitleSet
import OpticalDisc.Dvd.TitleStream
import OpticalDisc.Files.OpenFile
import OpticalDisc.Location
import OpticalDisc.Storage.Joined

/-!
# DVDs unpacked into a folder

A DVD as files in a `VIDEO_TS` directory, whose names are matched without regard to ASCII case. The
video of a title set is in up to nine numbered files, which read as one.
-/

namespace OpticalDisc

/-- A disc folder among the files of a tree. -/
structure DiscFolder where
  tree : FileTree
  root : Path
  /-- The entries of the `VIDEO_TS` directory under their names in upper case. -/
  files : List (String × Path)

namespace DiscFolder

def directoryName : String := "VIDEO_TS"

/-- The number of files that the video of a title set can be split into. -/
def maxVideoFiles : Nat := 9

def upperCase (text : String) : String :=
  String.ofList (text.toList.map Char.toUpper)

/-- The entries of a directory as an operation on a disc reads them. -/
def listEntries (tree : FileTree) (path : Path) : Except Error (List (String × FileNode)) :=
  (tree.entries path).mapError fun cause => .io (.system cause)

/-- The root of the disc and its `VIDEO_TS` directory, when `path` is either of them. -/
def findVideoDirectory (tree : FileTree) (path : Path) : Except Error (Path × Path) := do
  if path.fileName?.any (sameIgnoringCase · directoryName) then
    return (path.parent?.getD path, path)
  match (← listEntries tree path).find? fun entry => sameIgnoringCase entry.1 directoryName with
  | some (name, _) => return (path, path.join name)
  | none => throw (.notFound s!"no {directoryName} directory in {path.text}")

/-- Opens a disc by its root or by its `VIDEO_TS` directory. -/
def ofPath (tree : FileTree) (path : Path) : Except Error DiscFolder := do
  if !tree.isDirectory path then
    throw (.notFound s!"{path.text} is not a directory")
  let (root, directory) ← findVideoDirectory tree path
  let files := (← listEntries tree directory).map fun (name, _) =>
    (upperCase name, directory.join name)
  if (files.lookup VideoManager.fileName).isNone then
    throw (.notFound s!"{VideoManager.fileName} missing in {directory.text}")
  return { tree, root, files }

variable (folder : DiscFolder)

/-- Opens the file at a path. -/
def openFile (path : Path) : Except Error OpenFile :=
  (folder.tree.openFile path).mapError fun cause => .io (.system cause)

/-- The content of an index file. -/
def readIndex (name : String) : Except Error ByteArray :=
  match folder.files.lookup name with
  | none => .error (.notFound s!"{name} missing")
  | some path => do IndexFile.checkSize (← folder.openFile path).bytes.content

def titleSetFileName (number : Nat) : String :=
  let digits := Text.zeroPadded 2 number
  s!"VTS_{digits}_0.IFO"

def videoFileName (number part : Nat) : String :=
  let digits := Text.zeroPadded 2 number
  s!"VTS_{digits}_{part}.VOB"

/-- The video files of a title set up to the first missing number. -/
def videoFiles (number : Nat) : List Path :=
  let found := (List.range' 1 maxVideoFiles).map fun part =>
    folder.files.lookup (videoFileName number part)
  (found.takeWhile (·.isSome)).filterMap id

def readManager : Except Error VideoManager := do
  VideoManager.decode (← folder.readIndex VideoManager.fileName)

def readTitleSet (number : Nat) : Except Error TitleSet := do
  TitleSet.decode (← folder.readIndex (titleSetFileName number))

/-- The device that the video of a title set is read from. -/
abbrev Video := StoredSectors (JoinedStore OpenFile)

/-- The video files of a title set, joined in order. -/
def joinVideo (number : Nat) : Except Error Video := do
  let files ← (folder.videoFiles number).mapM folder.openFile
  if files.isEmpty then
    throw (.notFound s!"no VOB files for title set {number}")
  match JoinedStore.join files with
  | .ok store => return { store }
  | .error cause => throw (.io cause)

instance : DvdMedium DiscFolder Video where
  volumeName? folder := folder.root.fileName?
  openManager := fun folder => ofResult folder.readManager folder
  openTitleSet number := fun folder => ofResult (folder.readTitleSet number) folder
  openVideo number := fun folder => ofResult (folder.joinVideo number) folder

end DiscFolder

end OpticalDisc
