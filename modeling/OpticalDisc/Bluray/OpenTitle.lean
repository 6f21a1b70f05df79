import OpticalDisc.Bluray.TitleBytes
import OpticalDisc.Catalog
import OpticalDisc.Demux

/-!
# Opening a Blu-ray title

Opening lists the titles of the disc, selects one, and hands its byte stream to a demultiplexer. The
elementary streams that come back are tagged with the languages that the first clip of the title
gives to their packet identifiers.
-/

namespace OpticalDisc

/-- How a Blu-ray title is opened. -/
structure BluraySelection where
  /-- The title's index; without it the main title, or else the longest. -/
  title : Option Nat := none
  /-- Titles that last fewer seconds are not listed. -/
  minTitleLength : Nat := 180
  /-- The base of the duration and of chapter times. -/
  timeBase : TimeBase := .micros
  deriving DecidableEq, Repr

/-- A Blu-ray title with its demultiplexed streams. -/
structure OpenTitle where
  catalog : Catalog
  title : Title
  duration : Int
  timeBase : TimeBase
  chapters : List Chapter
  metadata : List (String × String)
  programs : List Program
  streams : List ElementaryStream

/-- The catalog entry for a title of the disc. -/
def TitleDescription.entry (info : TitleDescription) (index : Nat) : Title where
  index
  duration := info.duration
  chapterCount := info.chapters.length
  unitCount := info.clips.length
  angleCount := info.angleCount
  reference := .bluray info.playlist

/-- The chapter from this mark on, in the time base of the disc. -/
def ChapterMark.chapter (mark : ChapterMark) : Chapter where
  index := mark.index
  start := signedWord mark.start
  finish := signedWord (mark.start + mark.duration)
  timeBase := .disc

/-- The stream with the language of its packet identifier, if that has one. -/
def ElementaryStream.tagged (stream : ElementaryStream) (languages : List (UInt16 × String)) :
    ElementaryStream :=
  let found? := languages.find? fun (pid, _) => pid.toNat = stream.id
  { stream with language := (found?.map (·.2)).or stream.language }

namespace OpenTitle

variable {β τ : Type} [BlurayMedium β]

/-- The entries of so many titles from `index` on. -/
def entriesFrom (index : Nat) : (count : Nat) → EStateM Error β (List Title)
  | 0 => return []
  | count + 1 => do
    let title := (← BlurayMedium.describeTitle index).entry index
    return title :: (← entriesFrom (index + 1) count)

/-- The entries of all titles, of which there have to be some. -/
def describeTitles (minSeconds : Nat) : EStateM Error β (List Title) := do
  let count ← BlurayMedium.countTitles minSeconds
  if count = 0 then
    throw (.notFound s!"no titles of at least {minSeconds} seconds")
  entriesFrom 0 count

/-- Runs an action of the demultiplexer on the stream of the selected title. -/
def onStream {α : Type} (action : EStateM Error (τ × TitleBytes β) α) : EStateM Error (τ × β) α :=
  fun (demuxer, disc) =>
    match action (demuxer, { disc }) with
    | .ok a (demuxer, stream) => .ok a (demuxer, stream.disc)
    | .error e (demuxer, stream) => .error e (demuxer, stream.disc)

/-- Runs an action of the disc beside a demultiplexer. -/
def onDisc {α : Type} (action : EStateM Error β α) : EStateM Error (τ × β) α :=
  fun (demuxer, disc) =>
    match action disc with
    | .ok a disc => .ok a (demuxer, disc)
    | .error e disc => .error e (demuxer, disc)

/-- Selects a title of the disc. Returns the catalog, the title and its description. -/
def choose (selection : BluraySelection) (mainTitle : Option Nat) :
    EStateM Error β (Catalog × Title × TitleDescription) := do
  let titles ← describeTitles selection.minTitleLength
  let catalog := { Catalog.ofTitles titles.toArray .first with mainTitle }
  let title ← ofResult (catalog.select selection.title)
  BlurayMedium.chooseTitle title.index
  return (catalog, title, ← BlurayMedium.describeTitle title.index)

/-- Opens a title of the disc with a demultiplexer. -/
def openTitle [Demultiplexer τ (TitleBytes β)] (selection : BluraySelection) :
    EStateM Error (τ × β) OpenTitle := do
  let disc ← onDisc BlurayMedium.describeDisc
  let (catalog, title, info) ← onDisc (choose selection disc.mainTitle)
  let languages := (info.clips.head?.map Clip.languages).getD []
  let tables ← onStream Demultiplexer.openTables
  return {
    catalog, title
    duration := TimeBase.convert (signedWord info.duration) .disc selection.timeBase
    timeBase := selection.timeBase
    chapters := info.chapters.map (·.chapter.inBase selection.timeBase)
    metadata := disc.name.toList.map fun name => ("title", name)
    programs := tables.programs
    streams := tables.streams.map (·.tagged languages) }

/-- The next packet of an opened title. -/
def nextPacket [Demultiplexer τ (TitleBytes β)] : EStateM Error (τ × β) (Option Packet) :=
  onStream Demultiplexer.nextPacket

end OpenTitle

end OpticalDisc
