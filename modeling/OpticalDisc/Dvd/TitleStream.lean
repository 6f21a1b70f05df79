import OpticalDisc.Dvd.Medium
import OpticalDisc.Dvd.Playhead

/-!
# DVD titles as byte streams

Opening a title scans the disc, selects a title, checks its references and its angle, and only then
opens its video. The stream reads through a buffer of whole sectors. A seek moves the playhead to
the sector of its target and leaves the bytes before the target to be skipped by the next refill.
-/

namespace OpticalDisc

/-- How a DVD title is opened. -/
structure DvdSelection where
  /-- The title's index; the longest title without it. -/
  title : Option Nat := none
  /-- The camera angle, from zero. -/
  angle : Nat := 0
  /-- The base of the duration and of chapter times. -/
  timeBase : TimeBase := .micros
  /-- The size of the read buffer. -/
  bufferSectors : Nat := 16
  deriving DecidableEq, Repr

/-- The linear byte stream of one DVD title. -/
structure TitleStream (σ : Type) where
  playhead : Playhead σ
  /-- The size of the buffer in bytes. -/
  capacity : Nat
  /-- What the last refill read. -/
  buffer : ByteArray := .empty
  /-- How much of the buffer has been delivered. -/
  taken : Nat := 0
  /-- The bytes of the next refill that lie before the position. -/
  skip : Nat := 0
  position : Nat := 0
  catalog : Catalog
  title : Title
  /-- The playback time of the chain, in 90 kHz ticks. -/
  ticks : Nat
  chapters : List Chapter
  timeBase : TimeBase
  volumeName? : Option String

/-- Refuses a title set number that the disc does not have. -/
def TitleRecord.checkSet (entry : TitleRecord) (manager : VideoManager) (index : Nat) :
    Except Error Unit :=
  let number := entry.titleSet.toNat
  let count := manager.titleSetCount.toNat
  if 1 ≤ number ∧ number ≤ count then .ok ()
  else .error (.corruptIndex s!"title {index} references title set {number} (1..={count})")

/-- The chapters of a title, which its title set has to list. -/
def TitleRecord.partsIn (entry : TitleRecord) (set : TitleSet) (index : Nat) :
    Except Error (List PartOfTitle) :=
  let number := entry.titleInSet.toNat
  match set.partsOfTitle? number with
  | some parts => .ok parts
  | none =>
    .error (.corruptIndex
      s!"title {index} references VTS title {number} (1..={set.parts.length})")

/-- Refuses an angle that the title does not have; every title has at least one. -/
def TitleRecord.checkAngle (entry : TitleRecord) (angle : Nat) : Except Error Unit :=
  let count := max entry.angleCount.toNat 1
  if angle < count then .ok () else .error (.outOfRange "angle" angle count)

namespace TitleStream

variable {δ σ : Type}

/-- Opens a title at its first cell. -/
def openTitle [DvdMedium δ σ] (selection : DvdSelection) : EStateM Error δ (TitleStream σ) := do
  let volumeName? := DvdMedium.volumeName? (← get)
  let manager ← DvdMedium.openManager
  let sets ← DvdMedium.openSets manager
  let catalog := manager.catalog sets
  let title ← ofResult (catalog.select selection.title)
  let entry := manager.titles[title.index]?.getD {}
  ofResult (entry.checkSet manager title.index)
  let set ←
    match sets.lookup entry.titleSet.toNat with
    | some set => pure set
    | none => DvdMedium.openTitleSet entry.titleSet.toNat
  let parts ← ofResult (entry.partsIn set title.index)
  ofResult (entry.checkAngle selection.angle)
  let route ← ofResult (Route.ofTitle set entry.titleInSet.toNat selection.angle)
  let ticks := route.chain.time.ticks
  let video ← DvdMedium.openVideo entry.titleSet.toNat
  return {
    playhead := Playhead.ofRoute video route
    capacity := max selection.bufferSectors 1 * sectorSize
    catalog, title, ticks, volumeName?
    chapters := (route.chapters parts ticks).map (·.inBase selection.timeBase)
    timeBase := selection.timeBase }

/-- The duration in the time base of the stream. -/
def duration (s : TitleStream σ) : Int :=
  TimeBase.convert (signedWord s.ticks) .disc s.timeBase

/-- The number of bytes in the stream. -/
def length (s : TitleStream σ) : Nat :=
  s.playhead.length

/-- Refills the buffer when all of it has been delivered. The buffer stays empty at the end. -/
def refill [SectorDevice σ] : EStateM Error (TitleStream σ) Unit := fun s =>
  if s.taken < s.buffer.size then .ok () s
  else
    match s.playhead.read s.capacity with
    | .error e playhead => .error e { s with playhead }
    | .ok buffer playhead =>
      let taken := min s.skip buffer.size
      let s' := { s with playhead, buffer, taken, skip := 0 }
      if buffer.size = 0 then .ok () s'
      else if taken < buffer.size then .ok () s'
      else refill s'
termination_by s => s.skip

/-- Reads up to `n` bytes; none at the end of the title. -/
def read [SectorDevice σ] (n : Nat) : EStateM IoError (TitleStream σ) (Chunk n) := fun s =>
  if n = 0 then .ok (Chunk.empty n) s
  else
    match refill s with
    | .error e s => .error e.toIo s
    | .ok _ s =>
      let count := min n (s.buffer.size - s.taken)
      let chunk := (Chunk.slice s.buffer s.taken count).widen (Nat.min_le_left ..)
      .ok chunk { s with taken := s.taken + count, position := s.position + count }

def seek (target : SeekTarget) : EStateM IoError (TitleStream σ) Nat := fun s =>
  match target.resolve? s.position s.length with
  | none => .error (.reported .invalidInput "seek before start of title") s
  | some position =>
    let (reached, playhead) := s.playhead.seek position
    .ok position
      { s with playhead, position, buffer := .empty, taken := 0, skip := position - reached }

instance [SectorDevice σ] : StreamedBytes (TitleStream σ) where
  read := read
  seek := seek
  size? s := some s.length

end TitleStream

end OpticalDisc
