import OpticalDisc.Error
import OpticalDisc.Storage.ByteStore

/-!
# Blu-ray media

Playlists, clips and decryption are the affair of the library that opens a disc. A `BlurayMedium` is
what such a library offers: a list of titles, of which one is selected and then read as one stream.
-/

namespace OpticalDisc

structure DiscDescription where
  name : Option String := none
  /-- The title that the disc declares as its main feature. -/
  mainTitle : Option Nat := none
  deriving DecidableEq, Repr

/-- A chapter mark, in 90 kHz ticks. -/
structure ChapterMark where
  index : Nat
  start : Nat
  duration : Nat
  deriving DecidableEq, Repr

/-- What a clip says about one of its streams. -/
structure StreamDescriptor where
  /-- The packet identifier. -/
  pid : UInt16
  codingType : UInt8
  language : String
  deriving DecidableEq, Repr

structure Clip where
  audio : List StreamDescriptor := []
  secondaryAudio : List StreamDescriptor := []
  subtitles : List StreamDescriptor := []
  deriving DecidableEq, Repr

/-- A title as the disc describes it. -/
structure TitleDescription where
  playlist : Nat := 0
  /-- In 90 kHz ticks. -/
  duration : Nat := 0
  angleCount : Nat := 0
  chapters : List ChapterMark := []
  clips : List Clip := []
  deriving DecidableEq, Repr

/-- Read access to a Blu-ray disc. -/
class BlurayMedium (β : Type) where
  describeDisc : EStateM Error β DiscDescription
  /-- The number of titles that last at least so many seconds; these can then be addressed. -/
  countTitles (minSeconds : Nat) : EStateM Error β Nat
  describeTitle (index : Nat) : EStateM Error β TitleDescription
  /-- Makes a title the one that is read. -/
  chooseTitle (index : Nat) : EStateM Error β Unit
  /-- Reads from the selected title; no bytes are its end. -/
  read (n : Nat) : EStateM Error β (Chunk n)
  /-- Moves to an absolute position and returns the position reached. -/
  seek (position : Nat) : EStateM Error β Nat
  position : β → Nat
  /-- The length of the selected title in bytes, if known. -/
  length? : β → Option Nat

namespace Clip

variable (clip : Clip)

/-- The descriptors in order of precedence. -/
def descriptors : List StreamDescriptor :=
  clip.audio ++ clip.secondaryAudio ++ clip.subtitles

/-- The language of each packet identifier; its first descriptor counts. -/
def languages : List (UInt16 × String) :=
  clip.descriptors.foldl
    (fun found d => if (found.lookup d.pid).isSome then found else found ++ [(d.pid, d.language)])
    []

end Clip

end OpticalDisc
