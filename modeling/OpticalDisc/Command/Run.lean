import OpticalDisc.Command.Report
import OpticalDisc.Command.Request
import OpticalDisc.Dvd.Folder
import OpticalDisc.Settings.Load
import OpticalDisc.Text.Json

/-!
# Running requests

A request is answered from a tree of files. What a command has printed and written stays when it
fails later, and its failure is reported beside that.
-/

namespace OpticalDisc.Command

/-- What a command can change: its standard output and the files. -/
structure Console where
  output : ByteArray := .empty
  tree : FileTree
  /-- The files that were created or replaced. -/
  written : List Path := []

abbrev Action := EStateM Report Console

def print (bytes : ByteArray) : Action Unit :=
  modify fun console => { console with output := console.output ++ bytes }

def printLine (line : String) : Action Unit :=
  print (line ++ "\n").toUTF8

/-- Reports a failure on a disc together with what was being done. -/
def doing {α : Type} (what : String) : Except Error α → Action α
  | .ok a => pure a
  | .error e => throw (Report.ofError what e)

def loadSettings (home : Option String) (file? : Option Path) : Action Settings := do
  match Settings.load (← get).tree home file? with
  | .ok settings => return settings
  | .error e => throw ⟨e.message, []⟩

/-- The path of a DVD. Blu-ray discs are left to programs with a library that opens them. -/
def dvdPath (disc : String) : Action Path := do
  let location := Location.ofText (← get).tree disc
  match location.kind with
  | .dvd => return location.path
  | .bluray =>
    let place := location.path.text
    throw ⟨s!"{place} is a Blu-ray disc; opening it needs an external disc library", []⟩

def openFolder (path : Path) : Action DiscFolder := do
  doing ("Failed to open DVD folder: " ++ path.quoted) (DiscFolder.ofPath (← get).tree path)

/-- The result of an action on a folder, which it does not change. -/
def onFolder {α : Type} (folder : DiscFolder) (action : EStateM Error DiscFolder α) :
    Except Error α :=
  match action folder with
  | .ok a _ => .ok a
  | .error e _ => .error e

/-- The stream of a title of a DVD folder. -/
abbrev FolderStream := TitleStream DiscFolder.Video

def openStream (disc : String) (selection : DvdSelection) : Action FolderStream := do
  let path ← dvdPath disc
  let folder ← openFolder path
  doing ("Failed to open title stream on " ++ path.quoted)
    (onFolder folder (TitleStream.openTitle selection))

def referenceJson : TitleReference → Text.JsonValue
  | .dvd titleSet title =>
    .record [("format", .text "dvd"), ("title_set", .number titleSet), ("vts_ttn", .number title)]
  | .bluray playlist => .record [("format", .text "bluray"), ("playlist", .number playlist)]

def titleJson (title : Title) : Text.JsonValue :=
  .record [
    ("angle_count", .number title.angleCount), ("chapter_count", .number title.chapterCount),
    ("duration", .number title.duration), ("index", .number title.index),
    ("reference", referenceJson title.reference), ("unit_count", .number title.unitCount)]

/-- The index of the title that is opened without a choice. -/
def selectedIndex (catalog : Catalog) : Option Nat :=
  (catalog.select none).toOption.map (·.index)

def catalogJson (volumeName? : Option String) (catalog : Catalog) : Text.JsonValue :=
  .record [
    ("selected", .ofOption .number (selectedIndex catalog)),
    ("titles", .list (catalog.titles.toList.map titleJson)),
    ("volume_id", .ofOption .text volumeName?)]

/-- The line of a title; a star marks the one that is opened without a choice. -/
def titleLine (selected : Option Nat) (title : Title) : String :=
  let marker := if selected = some title.index then "*" else " "
  s!"{marker} {title.summary} ({title.angleCount} angle(s), {title.unitCount} cell(s))"

def titles (disc : String) (json : Bool) : Action Unit := do
  let path ← dvdPath disc
  let folder ← openFolder path
  let catalog ← doing ("Failed to read titles on " ++ path.quoted) (onFolder folder DvdMedium.scan)
  let volumeName? := DvdMedium.volumeName? folder
  if json then printLine (catalogJson volumeName? catalog).pretty
  else
    if let some name := volumeName? then printLine s!"Volume: {name}"
    printLine s!"Titles: {catalog.titles.size}"
    let selected := selectedIndex catalog
    for title in catalog.titles do
      printLine (titleLine selected title)

def chapterLine (chapter : Chapter) : String :=
  let number := Text.spacePadded 3 chapter.index
  s!"  chapter {number}: {chapter.start} - {chapter.finish}"

def chapters (disc : String) (selection : DvdSelection) : Action Unit := do
  let stream ← openStream disc selection
  printLine stream.title.summary
  printLine s!"Duration: {stream.duration} (time base {stream.timeBase.toText})"
  for chapter in stream.chapters do
    printLine (chapterLine chapter)

/-- The size of the reads that copy a stream. -/
def copySize : Nat := 8192

/-- The stream after a file has got a new content, which may be one of those that it reads. -/
def afterWrite (names : List String) (content : ByteArray) (stream : FolderStream) :
    FolderStream :=
  let store := stream.playhead.device.store.mapStores (·.afterWrite names content)
  { stream with playhead.device := { store } }

/-- Copies a stream behind the bytes that are `written` already, by at most so many reads, to the
file with these names if there is one. Whatever is written is there for the next read to see. A
failure leaves what came before. -/
def copy (file? : Option (List String)) (stream : FolderStream) (written : ByteArray) :
    (reads : Nat) → ByteArray × Option IoError
  | 0 => (written, none)
  | reads + 1 =>
    let stream := file?.elim stream (afterWrite · written stream)
    match stream.read copySize with
    | .error e _ => (written, some e)
    | .ok chunk stream =>
      if chunk.1.size = 0 then (written, none)
      else copy file? stream (written ++ chunk.1) reads

/-- Copies all bytes of a stream. Each read but the last gives at least one. -/
def copyAll (file? : Option (List String)) (stream : FolderStream) : ByteArray × Option IoError :=
  copy file? stream .empty (stream.length + 1)

/-- The names of the file that writing to a path creates or replaces. -/
def outputFile (path : Path) : Action (List String) := do
  match (← get).tree.writable path with
  | .ok names => return names
  | .error cause => throw ⟨"Failed to create output file: " ++ path.quoted, [cause.message]⟩

/-- Puts bytes into the file with these names, which `path` leads to. -/
def writeFile (path : Path) (names : List String) (bytes : ByteArray) : Action Unit :=
  modify fun console => { console with
    tree := console.tree.write names bytes
    written := console.written ++ [path] }

/-- Copies a stream to a file or to the standard output. Returns the failure that ended it early. -/
def copyTo (output : Option Path) (stream : FolderStream) : Action (Option IoError) := do
  match output with
  | none =>
    let (bytes, failure?) := copyAll none stream
    print bytes
    return failure?
  | some path =>
    let names ← outputFile path
    let (bytes, failure?) := copyAll (some names) stream
    writeFile path names bytes
    return failure?

def dump (disc : String) (selection : DvdSelection) (output : Option Path) : Action Unit := do
  let stream ← openStream disc selection
  if let some cause := ← copyTo output stream then throw ⟨cause.message, []⟩

/-- A title that was chosen, or the word for none. -/
def titleChoice (title : Option Nat) : String :=
  title.elim "auto" toString

def probe (text : String) (settings : Settings) : Action Unit := do
  let location := Location.ofText (← get).tree text
  printLine s!"Location: {location.path.text}"
  printLine s!"Format: {location.kind.name}"
  printLine s!"Probe score: {directScore text}"
  match location.kind with
  | .dvd => return ()
  | .bluray =>
    let selection := settings.bluraySelection none
    let title := titleChoice selection.title
    printLine s!"Title: {title}"
    printLine s!"Min title length: {selection.minTitleLength}s"

/-- The settings to check, after a line that says where they come from. -/
def checkedSettings (file? : Option Path) : Action Settings := do
  match file? with
  | none =>
    printLine "No config file specified, using defaults"
    return {}
  | some path =>
    printLine ("Validating config: " ++ path.quoted)
    let settings ← loadSettings none (some path)
    printLine "Configuration is valid"
    return settings

def validate (file? : Option Path) : Action Unit := do
  let { dvd, bluray, output } ← checkedSettings file?
  let dvdTitle := titleChoice dvd.title
  let blurayTitle := titleChoice bluray.title
  printLine s!"  DVD title: {dvdTitle}"
  printLine s!"  DVD angle: {dvd.angle}"
  printLine s!"  Blu-ray title: {blurayTitle}"
  printLine s!"  Blu-ray min title length: {bluray.minTitleLength}s"
  printLine s!"  Time base: {output.timeBase.toText}"
  printLine s!"  Buffer: {output.bufferSectors} sector(s)"

def versionText : String := "discforged 0.1.0"

/-- Answers a request. Settings are loaded before anything is looked at on a disc. -/
def answer (home : Option String) (invocation : Invocation) : Action Unit := do
  let settings := loadSettings home invocation.settingsFile
  match invocation.request with
  | .titles disc json => titles disc json
  | .chapters disc title angle => chapters disc ((← settings).dvdSelection title angle)
  | .dump disc title angle output => dump disc ((← settings).dvdSelection title angle) output
  | .probe location => probe location (← settings)
  | .validate => validate invocation.settingsFile
  | .version => printLine versionText

/-- How the program ends. -/
structure Outcome where
  /-- Zero for success, one for a failed command, two for arguments that ask for none. -/
  exitCode : Nat
  output : ByteArray
  /-- What is printed beside the output. -/
  errors : String
  /-- The files afterwards. -/
  tree : FileTree
  /-- The files that were created or replaced. -/
  written : List Path := []

def usage : String :=
  "Usage: discforged [OPTIONS] <COMMAND>\n\n" ++
  "Commands: titles, chapters, dump, probe, validate, version, help\n" ++
  "Options: -c, --config <CONFIG>; -v, --verbose; -h, --help; -V, --version\n"

/-- The outcome for arguments that ask for no command. -/
def stopped (tree : FileTree) : Stop → Outcome
  | .help => { exitCode := 0, output := usage.toUTF8, errors := "", tree }
  | .version => { exitCode := 0, output := (versionText ++ "\n").toUTF8, errors := "", tree }
  | .misuse => { exitCode := 2, output := .empty, errors := usage, tree }

/-- Runs the program on its arguments, among these files and with the user's home directory. -/
def run (tree : FileTree) (home : Option String) (arguments : List String) : Outcome :=
  match Invocation.ofArguments arguments with
  | .error stop => stopped tree stop
  | .ok invocation =>
    match answer home invocation { tree } with
    | .ok _ { output, tree, written } => { exitCode := 0, output, errors := "", tree, written }
    | .error report { output, tree, written } =>
      { exitCode := 1, output, errors := report.text, tree, written }

end OpticalDisc.Command
