import OpticalDisc.Dvd.IndexFile
import OpticalDisc.Dvd.Structure

/-!
# The video manager's file

`VIDEO_TS.IFO` holds the number of title sets and the title table: an eight byte header that starts
with the number of entries, then twelve bytes for each title.
-/

namespace OpticalDisc

/-- The size of the header in front of a table's entries. -/
def tableHeaderSize : Nat := 8

namespace TitleRecord

def encodedSize : Nat := 12

def ofBytes (bytes : ByteArray) : TitleRecord where
  playbackType := byteAt bytes 0
  angleCount := byteAt bytes 1
  partCount := word16At bytes 2
  parentalMask := word16At bytes 4
  titleSet := byteAt bytes 6
  titleInSet := byteAt bytes 7
  startSector := word32At bytes 8

end TitleRecord

namespace VideoManager

def fileName : String := "VIDEO_TS.IFO"

def identifier : String := "DVDVIDEO-VMG"

/-- Where the number of title sets is stored. -/
def titleSetCountOffset : Nat := 0x3E

/-- Where the sector of the title table is stored. -/
def titleTablePointer : Nat := 0xC4

/-- The entries of the title table at `base`. -/
def decodeTitles (file : IndexFile) (base : Nat) : Except Error (List TitleRecord) := do
  let count ← file.word16 base
  (List.range count.toNat).mapM fun i => do
    let offset := base + tableHeaderSize + i * TitleRecord.encodedSize
    return TitleRecord.ofBytes (← file.range offset TitleRecord.encodedSize)

def decode (data : ByteArray) : Except Error VideoManager := do
  let file : IndexFile := ⟨fileName, data⟩
  file.requireIdentifier identifier
  let titleSetCount ← file.word16 titleSetCountOffset
  match ← file.table? titleTablePointer with
  | none => throw (.corruptIndex "VIDEO_TS.IFO: no title search pointer table")
  | some base => return { titleSetCount, titles := ← decodeTitles file base }

end VideoManager

end OpticalDisc
