import OpticalDisc.Dvd.Route

/-!
# Playheads

A playhead walks the segments of a route and reads whole sectors from the title's video, never
across the end of a segment in one read. Its position counts bytes of the linear stream.
-/

namespace OpticalDisc

namespace Playhead

/-- The active segment and how far it has been read. -/
structure Place where
  /-- The index of the segment. -/
  segment : Nat := 0
  cell : Nat := 0
  currentSector : Nat := 0
  firstSector : Nat := 0
  endSector : Nat := 0
  angle : Nat := 0
  deriving DecidableEq, Repr

inductive State
  /-- The next read starts at this sector of the active segment. -/
  | reading (sector : Nat)
  /-- The active segment is read; the next read moves on. -/
  | segmentDone
  /-- No segment is left, until a seek. -/
  | finished
  deriving DecidableEq, Repr

end Playhead

open Playhead (Place State)

/-- A position on a route, and the device that the sectors are read from. -/
structure Playhead (σ : Type) where
  device : σ
  route : Route
  segments : List Segment
  place : Place
  state : State
  /-- The number of bytes in the linear stream. -/
  length : Nat

namespace Playhead

variable {σ : Type}

/-- The number of bytes that segments in order make up. -/
def lengthOf (segments : List Segment) : Nat :=
  match segments.getLast? with
  | some segment => segment.byteOffset + segment.byteLength
  | none => 0

/-- Makes a segment active, at one of its sectors. -/
def enter (p : Playhead σ) (index : Nat) (segment : Segment) (sector : Nat) : Playhead σ :=
  { p with
    place :=
      { segment := index
        cell := segment.cell
        currentSector := sector
        firstSector := segment.firstSector
        endSector := segment.endSector
        angle := p.place.angle }
    state := if sector < segment.endSector then .reading sector else .segmentDone }

/-- A playhead at the start of a route. -/
def ofRoute (device : σ) (route : Route) : Playhead σ :=
  let segments := route.segments
  let p : Playhead σ :=
    { device, route, segments
      place := { angle := route.angle }
      state := .finished
      length := lengthOf segments }
  match segments.head? with
  | some segment => p.enter 0 segment segment.firstSector
  | none => p

/-- Leaves finished segments behind, so that the playhead has a sector to read or is finished. -/
def settle (p : Playhead σ) : Playhead σ :=
  match p.state with
  | .reading _ | .finished => p
  | .segmentDone =>
    match p.route.next? p.place.cell with
    | none => { p with state := .finished }
    | some _ =>
      match _h : p.segments[p.place.segment + 1]? with
      | none => { p with state := .finished }
      | some segment => (p.enter (p.place.segment + 1) segment segment.firstSector).settle
termination_by p.segments.length - p.place.segment
decreasing_by
  have := (List.getElem?_eq_some_iff.1 _h).1
  simp only [enter]
  omega

/-- Moves on to a sector of the active segment, or to its end. -/
def moveTo (p : Playhead σ) (sector : Nat) : Playhead σ :=
  { p with
    place := { p.place with currentSector := sector }
    state := if p.place.endSector ≤ sector then .segmentDone else .reading sector }

/-- Reads whole sectors into a buffer of `size` bytes, as far as the active segment reaches. No
bytes are the end of the title. The number of sectors to ask for is a 32-bit word. -/
def read [SectorDevice σ] (size : Nat) : EStateM Error (Playhead σ) ByteArray := fun p =>
  if size < sectorSize then .error (.bufferUnderflow sectorSize size) p
  else
    let p := p.settle
    match p.state with
    | .reading sector =>
      let count := min (size / sectorSize % UInt32.size) (p.place.endSector - sector)
      match SectorDevice.readSlice sector count (count * sectorSize) p.device with
      | .error e device => .error e { p with device }
      | .ok blocks device =>
        if blocks.reported = 0 then .error (.nothingRead sector count) { p with device }
        else .ok blocks.data (moveTo { p with device } (sector + min blocks.reported count))
    | _ => .ok .empty p

/-- Moves to the sector that holds a byte of the linear stream, and returns where that sector
starts. From the end of the stream on, the playhead is finished. -/
def seek (p : Playhead σ) (position : Nat) : Nat × Playhead σ :=
  if p.length ≤ position then (p.length, { p with state := .finished })
  else
    let index := (p.segments.takeWhile (·.byteOffset ≤ position)).length - 1
    match p.segments[index]? with
    | none => (p.length, { p with state := .finished })
    | some segment =>
      let sectors := (position - segment.byteOffset) / sectorSize
      (segment.byteOffset + sectorOffset sectors,
        p.enter index segment (segment.firstSector + sectors))

/-- The byte position in the linear stream, at the start of a sector. -/
def position (p : Playhead σ) : Nat :=
  match p.state with
  | .finished => p.length
  | _ =>
    match p.segments[p.place.segment]? with
    | some segment =>
      segment.byteOffset + sectorOffset (p.place.currentSector - p.place.firstSector)
    | none => p.length

end Playhead

/-- The highest bit rate of a DVD program stream. -/
def peakBitRate : Nat := 10080000

/-- Whether more bytes are stored than can be played in a duration at the highest bit rate. -/
def exceedsPeakRate (bytes duration : Nat) : Bool :=
  duration * peakBitRate / 8 / discClock < bytes

end OpticalDisc
