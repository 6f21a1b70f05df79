import OpticalDisc.Proofs.Dvd.PlayheadMoves
import OpticalDisc.Storage.Memory

/-!
# Playheads in machine words

Sector numbers are 32-bit words and positions are 64-bit words, so a difference below zero, a sum
past the range and an index past the end of the segments have no value. The guarded operations stop
at each of these, and also when the chain and the list of segments name different cells. The main
statement is that no moves on an accepted route lead to a state where one of them stops: the guarded
operations and the plain ones agree there.
-/

namespace OpticalDisc

namespace Playhead

variable {σ : Type} {p : Playhead σ} {route : Route}

def difference? (a b : Nat) : Option Nat :=
  if b ≤ a then some (a - b) else none

def word? (limit n : Nat) : Option Nat :=
  if n < limit then some n else none

/-- The length of a slice, unless it is longer than the buffer. -/
def slice? (size length : Nat) : Option Nat :=
  if length ≤ size then some length else none

theorem difference?_of_le {a b : Nat} (h : b ≤ a) : difference? a b = some (a - b) :=
  if_pos h

theorem word?_of_lt {limit n : Nat} (h : n < limit) : word? limit n = some n :=
  if_pos h

theorem slice?_of_le {size length : Nat} (h : length ≤ size) : slice? size length = some length :=
  if_pos h

/-- Settling, which stops when the chain goes on and the segments do not, or to another cell. -/
def guardedSettle (p : Playhead σ) : Option (Playhead σ) :=
  match p.state with
  | .reading _ | .finished => some p
  | .segmentDone =>
    match p.route.next? p.place.cell with
    | none => some { p with state := .finished }
    | some cell =>
      match _h : p.segments[p.place.segment + 1]? with
      | none => none
      | some segment =>
        if segment.cell = cell then
          (p.enter (p.place.segment + 1) segment segment.firstSector).guardedSettle
        else none
termination_by p.segments.length - p.place.segment
decreasing_by
  have := (List.getElem?_eq_some_iff.1 _h).1
  simp only [enter]
  omega

def guardedRead [SectorDevice σ] (size : Nat) (p : Playhead σ) :
    Option (EStateM.Result Error (Playhead σ) ByteArray) :=
  if size < sectorSize then some (.error (.bufferUnderflow sectorSize size) p)
  else do
    let p ← p.guardedSettle
    match p.state with
    | .reading sector =>
      let left ← difference? p.place.endSector sector
      let count := min (size / sectorSize % UInt32.size) left
      let room ← slice? size (count * sectorSize)
      match SectorDevice.readSlice sector count room p.device with
      | .error e device => some (.error e { p with device })
      | .ok blocks device =>
        if blocks.reported = 0 then some (.error (.nothingRead sector count) { p with device })
        else do
          let reached ← word? UInt32.size (sector + min blocks.reported count)
          some (.ok blocks.data (moveTo { p with device } reached))
    | _ => some (.ok .empty p)

def guardedSeek (p : Playhead σ) (position : Nat) : Option (Nat × Playhead σ) :=
  if p.length ≤ position then some (p.length, { p with state := .finished })
  else do
    let index ← difference? (p.segments.takeWhile (·.byteOffset ≤ position)).length 1
    let segment ← p.segments[index]?
    let inside ← difference? position segment.byteOffset
    let sectors ← word? UInt32.size (inside / sectorSize)
    let sector ← word? UInt32.size (segment.firstSector + sectors)
    let reached ← word? UInt64.size (segment.byteOffset + sectorOffset sectors)
    some (reached, p.enter index segment sector)

def guardedPosition (p : Playhead σ) : Option Nat :=
  match p.state with
  | .finished => some p.length
  | _ => do
    let segment ← p.segments[p.place.segment]?
    let sectors ← difference? p.place.currentSector p.place.firstSector
    word? UInt64.size (segment.byteOffset + sectorOffset sectors)

theorem guardedSettle_of_ne_segmentDone (h : p.state ≠ .segmentDone) : p.guardedSettle = some p := by
  rw [guardedSettle]
  split
  · rfl
  · rfl
  · exact absurd ‹_› h

namespace Follows

theorem guardedSettle_eq (hr : route.Accepted) (hp : p.Follows route) :
    p.guardedSettle = some p.settle := by
  have hnext := hp.next?_eq hr
  rcases hp.settle_cases hr with
    ⟨hne, heq⟩ | ⟨hdone, hnone, heq⟩ | ⟨hdone, segment, hsegment, heq, hstate⟩
  · rw [heq, guardedSettle_of_ne_segmentDone hne]
  · rw [hnone] at hnext
    rw [heq, guardedSettle, hdone]
    simp [hnext]
  · rw [hsegment] at hnext
    have hsettled := guardedSettle_of_ne_segmentDone (p := p.settle) (by simp [hstate])
    rw [heq] at hsettled
    rw [heq, guardedSettle, hdone]
    simp only [hnext, Option.map_some]
    split
    · simp_all
    · rename_i found hfound
      obtain rfl := Option.some.inj (hsegment.symm.trans hfound)
      rw [if_pos rfl, hsettled]

theorem guardedRead_eq [SectorDevice σ] (hr : route.Accepted) (hp : p.Follows route)
    (size : Nat) : guardedRead size p = some (p.read size) := by
  by_cases hsize : size < sectorSize
  · rw [read_of_lt hsize, guardedRead, if_pos hsize]
  · have hle := Nat.not_lt.1 hsize
    have hsettled := hp.settle hr
    rw [guardedRead, if_neg hsize, hp.guardedSettle_eq hr]
    rcases hp.settle_state hr with hstate | ⟨sector, hstate⟩
    · rw [read_of_finished hle hstate]
      simp [hstate]
    · have hlt := (hsettled.reading hstate).2
      have hend := hsettled.end_le hr
      rw [read_of_reading hle hstate]
      simp only [Option.bind_eq_bind, Option.bind_some]
      split
      · rename_i found hfound
        obtain rfl : found = sector := by simpa [hfound] using hstate
        have hroom : min (size / sectorSize % UInt32.size) (p.settle.place.endSector - found) *
            sectorSize ≤ size :=
          calc
            _ ≤ size / sectorSize * sectorSize :=
              Nat.mul_le_mul_right _ ((Nat.min_le_left ..).trans (Nat.mod_le ..))
            _ ≤ size := Nat.div_mul_le_self ..
        rw [difference?_of_le hlt.le]
        simp only [Option.bind_some, slice?_of_le hroom, answered, requestCount]
        cases SectorDevice.readSlice found
            (min (size / sectorSize % UInt32.size) (p.settle.place.endSector - found)) _
            p.settle.device with
        | error e device => rfl
        | ok blocks device =>
          have hword : found + min blocks.reported
              (min (size / sectorSize % UInt32.size) (p.settle.place.endSector - found)) <
              UInt32.size := by
            unfold Cell.maxSector at hend
            have : 0 < UInt32.size := by decide
            omega
          by_cases hreported : blocks.reported = 0
          · simp only [if_pos hreported]
          · simp only [if_neg hreported, word?_of_lt hword, Option.bind_some]
      · rename_i hother
        exact absurd hstate (hother sector)

theorem guardedSeek_eq (hr : route.Accepted) (hp : p.Follows route)
    (hsize : lengthOf route.segments < UInt64.size) (position : Nat) :
    p.guardedSeek position = some (p.seek position) := by
  rcases hp.seek_cases hr position with
    ⟨hle, heq⟩ | ⟨hlt, i, segment, hlength, hsegment, hstart, hin, heq⟩
  · rw [heq, guardedSeek, if_pos hle]
  · have hend := (segment_playable hr (hp.segments_eq ▸ hsegment)).end_le
    have hposition := hp.position_seek hr position
    have hreached := (hp.seek hr position).position_le_length hr
    rw [hp.length_seek hr, hp.length_eq] at hreached
    rw [heq] at hposition hreached
    simp only at hposition hreached
    unfold Cell.maxSector at hend
    have hwords : 0 < UInt32.size := by decide
    rw [heq, guardedSeek, if_neg (Nat.not_le.2 hlt), hlength,
      difference?_of_le (Nat.le_add_left 1 i)]
    simp only [Option.bind_eq_bind, Option.bind_some, Nat.add_sub_cancel, hsegment,
      difference?_of_le hstart]
    generalize (position - segment.byteOffset) / sectorSize = sectors at *
    rw [word?_of_lt (by omega), Option.bind_some, word?_of_lt (by omega), Option.bind_some,
      word?_of_lt (by omega), Option.bind_some]

theorem guardedPosition_eq (hr : route.Accepted) (hp : p.Follows route)
    (hsize : lengthOf route.segments < UInt64.size) : p.guardedPosition = some p.position := by
  have hle := hp.position_le_length hr
  rw [hp.length_eq] at hle
  unfold guardedPosition
  split
  · rename_i hstate
    simp only [position, hstate]
  · rename_i hstate
    obtain ⟨segment, hsegment, -⟩ := hp.active
    rw [← hp.segments_eq] at hsegment
    rw [position_of_ne_finished hstate hsegment] at hle ⊢
    simp only [hsegment, Option.bind_eq_bind, Option.bind_some, difference?_of_le hp.first_le]
    exact word?_of_lt (by omega)

end Follows

/-- What holds of a playhead on a route in every state that moves can reach. -/
structure Sound [SectorDevice σ] (p : Playhead σ) (route : Route) : Prop
    extends Follows p route where
  aligned : p.position % sectorSize = 0
  position_le : p.position ≤ p.length
  /-- The chain and the list of segments go on to the same cell, or both end. -/
  next?_iff (cell : Nat) : p.route.next? p.place.cell = some cell ↔
    ∃ segment, p.segments[p.place.segment + 1]? = some segment ∧ segment.cell = cell
  read_guarded (size : Nat) : p.guardedRead size = some (p.read size)
  seek_guarded (position : Nat) : p.guardedSeek position = some (p.seek position)
  position_guarded : p.guardedPosition = some p.position

/-- A playhead on an accepted route stays on it, whatever it is asked to do and whatever its device
answers: its place is that of its segment, the next cell of the chain is the next segment's, and no
step of it leaves the range of its words or the list of segments. -/
theorem sound_after_moves [SectorDevice σ] {chainNumber : UInt16} {chain : ProgramChain}
    {program angle : Nat} (h : Route.ofChain chainNumber chain program angle = .ok route)
    (hsize : lengthOf route.segments < UInt64.size) (device : σ) (moves : List Move) :
    ((ofRoute device route).after moves).Sound route ∧
      ((ofRoute device route).after moves).place.angle = angle := by
  obtain ⟨hr, -, hangle⟩ := Route.accepted_of_ofChain h
  have hp := (follows_ofRoute hr device).after hr moves
  refine ⟨{ hp with
    aligned := ?_
    position_le := hp.position_le_length hr
    next?_iff := fun cell => ?_
    read_guarded := hp.guardedRead_eq hr
    seek_guarded := hp.guardedSeek_eq hr hsize
    position_guarded := hp.guardedPosition_eq hr hsize }, hp.angle_eq.trans hangle⟩
  · rw [hp.position_eq hr]
    exact Nat.mul_mod_left _ _
  · rw [hp.next?_eq hr]
    exact Option.map_eq_some_iff

/-- A cell of two sectors, then a block of two angles. -/
def twoAngles : ProgramChain where
  programMap := [1]
  cells := [⟨0, 1, .none, {}⟩, ⟨10, 12, .member, {}⟩, ⟨20, 20, .last, {}⟩]

/-- A read that ends the first cell, an unaligned seek into the second, and a read past the end of
the device. -/
theorem sound_after_moves_twoAngles :
    Route.ofChain 1 twoAngles 1 1 = .ok ⟨1, twoAngles, [⟨1, 2⟩], 1, 0⟩ ∧
      lengthOf (Route.segments ⟨1, twoAngles, [⟨1, 2⟩], 1, 0⟩) < UInt64.size ∧
      ((ofRoute (StoredSectors.mk (MemoryStore.mk (.mk (Array.replicate 4096 7)) 0))
        ⟨1, twoAngles, [⟨1, 2⟩], 1, 0⟩).after [.read 4096, .seek 5000, .read 2048]).Sound
        ⟨1, twoAngles, [⟨1, 2⟩], 1, 0⟩ :=
  have h : Route.ofChain 1 twoAngles 1 1 = .ok ⟨1, twoAngles, [⟨1, 2⟩], 1, 0⟩ := rfl
  ⟨h, by cbv, (sound_after_moves h (by cbv) _ _).1⟩

end Playhead

end OpticalDisc
