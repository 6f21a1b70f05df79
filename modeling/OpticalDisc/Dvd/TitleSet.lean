import OpticalDisc.Dvd.VideoManager

/-!
# A title set's file

`VTS_nn_0.IFO` holds two tables. The chapter table gives an offset for each title, its chapters
reaching up to the next title's offset or to the end of the table. The table of program chains
gives the offset of each chain; a chain holds its own offsets of its program map and of its cells.
Offsets count from the start of the table or chain that they are stored in.
-/

namespace OpticalDisc

namespace PartOfTitle

def encodedSize : Nat := 4

def ofBytes (bytes : ByteArray) (pos : Nat) : PartOfTitle where
  chain := word16At bytes pos
  program := word16At bytes (pos + 2)

/-- As many chapters as `bytes` holds whole. -/
def listOfBytes (bytes : ByteArray) : List PartOfTitle :=
  (List.range (bytes.size / encodedSize)).map fun i => ofBytes bytes (i * encodedSize)

end PartOfTitle

namespace Cell

def encodedSize : Nat := 24

def ofBytes (bytes : ByteArray) (pos : Nat) : Cell :=
  let category := (byteAt bytes pos).toNat
  { firstSector := word32At bytes (pos + 8)
    lastSector := word32At bytes (pos + 20)
    role := AngleRole.ofModeAndType (category / 64) (category / 16 % 4)
    time :=
      { hour := byteAt bytes (pos + 4)
        minute := byteAt bytes (pos + 5)
        second := byteAt bytes (pos + 6)
        frame := byteAt bytes (pos + 7) } }

end Cell

namespace ProgramChain

def programCountOffset : Nat := 0x02

def cellCountOffset : Nat := 0x03

def timeOffset : Nat := 0x04

/-- Where the offset of the program map is stored. -/
def programMapPointer : Nat := 0xE6

/-- Where the offset of the cell table is stored. -/
def cellTablePointer : Nat := 0xE8

def decodeTime (file : IndexFile) (offset : Nat) : Except Error PlaybackTime := do
  let bytes ← file.range offset 4
  return {
    hour := byteAt bytes 0
    minute := byteAt bytes 1
    second := byteAt bytes 2
    frame := byteAt bytes 3 }

/-- The program map of the chain at `base`. -/
def decodeProgramMap (file : IndexFile) (base count : Nat) : Except Error (List UInt8) := do
  if count = 0 then return []
  let offset := (← file.word16 (base + programMapPointer)).toNat
  if offset = 0 then
    let place := Text.markedHex base
    throw (.corruptIndex s!"PGC at {place}: {count} programs but no program map")
  return (← file.range (base + offset) count).data.toList

/-- The cells of the chain at `base`. -/
def decodeCells (file : IndexFile) (base count : Nat) : Except Error (List Cell) := do
  if count = 0 then return []
  let offset := (← file.word16 (base + cellTablePointer)).toNat
  if offset = 0 then
    let place := Text.markedHex base
    throw (.corruptIndex s!"PGC at {place}: {count} cells but no cell playback table")
  let bytes ← file.range (base + offset) (count * Cell.encodedSize)
  return (List.range count).map fun i => Cell.ofBytes bytes (i * Cell.encodedSize)

/-- The program chain at `base`. -/
def decode (file : IndexFile) (base : Nat) : Except Error ProgramChain := do
  let programCount ← file.byte (base + programCountOffset)
  let cellCount ← file.byte (base + cellCountOffset)
  let time ← decodeTime file (base + timeOffset)
  let programMap ← decodeProgramMap file base programCount.toNat
  let cells ← decodeCells file base cellCount.toNat
  return { time, programMap, cells }

end ProgramChain

namespace TitleSet

def identifier : String := "DVDVIDEO-VTS"

/-- Where the sector of the chapter table is stored. -/
def partTablePointer : Nat := 0xC8

/-- Where the sector of the table of program chains is stored. -/
def chainTablePointer : Nat := 0xCC

/-- The size of a search pointer to a program chain. -/
def chainPointerSize : Nat := 8

/-- The chapters of the title with this index, which lie from `start` up to `stop`. -/
def decodePartList (file : IndexFile) (base start stop index : Nat) :
    Except Error (List PartOfTitle) := do
  if stop < start then
    let from_ := Text.markedHex start
    let upTo := Text.markedHex stop
    throw (.corruptIndex
      s!"VTS_PTT_SRPT: title {index + 1} offsets decrease ({from_} > {upTo})")
  return PartOfTitle.listOfBytes (← file.range (base + start) (stop - start))

/-- The chapter table at `base`. -/
def decodeParts (file : IndexFile) (base : Nat) : Except Error (List (List PartOfTitle)) := do
  let count ← file.word16 base
  let lastByte ← file.word32 (base + 4)
  let starts ← (List.range count.toNat).mapM fun i => do
    return (← file.word32 (base + tableHeaderSize + i * 4)).toNat
  let stops := starts.drop 1 ++ [lastByte.toNat + 1]
  (starts.zip stops).zipIdx.mapM fun ((start, stop), index) =>
    decodePartList file base start stop index

/-- The table of program chains at `base`. -/
def decodeChains (file : IndexFile) (base : Nat) : Except Error (Array ProgramChain) := do
  let count ← file.word16 base
  let chains ← (List.range count.toNat).mapM fun i => do
    let pointer := base + tableHeaderSize + i * chainPointerSize
    let offset ← file.word32 (pointer + 4)
    ProgramChain.decode file (base + offset.toNat)
  return chains.toArray

def decode (data : ByteArray) : Except Error TitleSet := do
  let file : IndexFile := ⟨"VTS IFO", data⟩
  file.requireIdentifier identifier
  let parts ←
    match ← file.table? partTablePointer with
    | some base => decodeParts file base
    | none => pure []
  let chains ←
    match ← file.table? chainTablePointer with
    | some base => some <$> decodeChains file base
    | none => pure none
  return { parts, chains }

end TitleSet

end OpticalDisc
