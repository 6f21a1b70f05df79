import OpticalDisc.Proofs.CallRecords
import OpticalDisc.Proofs.Dvd.PlayheadContents
import OpticalDisc.Proofs.Dvd.PlayheadSeeks
import OpticalDisc.Proofs.Dvd.StreamSteps

/-!
# The requests of a playhead

A read of a playhead makes one request of the device, for sectors of one segment, or none at the end
of the stream. The device may answer as it likes; only sectors that were asked for move the playhead
on.
-/

namespace OpticalDisc

/-- A request for sectors, with the length of the slice handed over for the answer. -/
structure SectorRequest where
  lba : Nat
  count : Nat
  room : Nat
  deriving DecidableEq, Repr

instance {σ : Type} [SectorDevice σ] : SectorDevice (Recorded SectorRequest σ) where
  readSectors lba count :=
    Recorded.record ⟨lba, count, count * sectorSize⟩ (SectorDevice.readSectors lba count)
  readSlice lba count room :=
    Recorded.record ⟨lba, count, room⟩ (SectorDevice.readSlice lba count room)
  size? recorded :=
    let (size?, inner) := SectorDevice.size? recorded.inner
    (size?, { recorded with inner })

namespace Playhead

variable {σ : Type} {p : Playhead σ} {route : Route}

theorem Follows.position_settle (hr : route.Accepted) (hp : p.Follows route) :
    p.settle.position = p.position := by
  rw [(hp.settle hr).position_eq hr, hp.sectorsPassed_settle hr, hp.position_eq hr]

theorem Follows.sectorAt_position (hr : route.Accepted) (hp : p.Follows route) {sector : Nat}
    (h : p.state = .reading sector) :
    ∃ segment ∈ route.segments, segment.Holds p.position ∧
      segment.sectorAt p.position = sector ∧ p.place.endSector = segment.endSector := by
  obtain ⟨segment, hsegment, -, hfirst, hend⟩ := hp.active
  obtain ⟨hsector, hin⟩ := hp.reading h
  have hle := hp.first_le
  have hposition := position_of_ne_finished (p := p) (by simp [h]) (hp.segments_eq ▸ hsegment)
  have hoffset : segment.byteOffset ≤ p.position := hposition ▸ Nat.le_add_right _ _
  have hat : segment.sectorAt p.position = sector := by
    rw [Segment.sectorAt, hposition, Nat.add_sub_cancel_left, sectorOffset,
      Nat.mul_div_cancel _ (by decide)]
    omega
  have hholds : segment.Holds p.position := by
    rw [Segment.holds_iff_sectorAt_lt hoffset (segment_playable hr hsegment)]
    omega
  exact ⟨segment, List.mem_of_getElem? hsegment, hholds, hat, hend.symm⟩

/-- Before the end of the stream, a settled playhead is about to read the sector of its position, in
the segment that holds the position. -/
theorem Follows.reading_of_lt (hr : route.Accepted) (hp : p.Follows route)
    (hlt : p.position < p.length) :
    ∃ segment ∈ route.segments, segment.Holds p.position ∧
      p.settle.state = .reading (segment.sectorAt p.position) ∧
      p.settle.place.endSector = segment.endSector ∧
      (plannedSectors route.segments)[p.position / sectorSize]? =
        some (segment.sectorAt p.position) := by
  have hsettled := hp.settle hr
  have hpassed := hp.sectorsPassed_settle hr
  have hposition := hp.position_settle hr
  rcases hp.settle_state hr with hstate | ⟨sector, hstate⟩
  · rw [position_lt_length_iff hr hp, ← hpassed, sectorsPassed_finished hstate,
      hp.segments_settle hr] at hlt
    exact absurd hlt (Nat.lt_irrefl _)
  · obtain ⟨segment, hmem, hholds, rfl, hend⟩ := hsettled.sectorAt_position hr hstate
    have hplanned := hsettled.getElem?_sectorsPassed hstate
    have hindex : p.sectorsPassed = p.position / sectorSize := by
      rw [hp.position_eq hr, sectorOffset, Nat.mul_div_cancel _ (by decide)]
    rw [hsettled.segments_eq, hpassed, hindex, hposition] at hplanned
    rw [hposition] at hholds hstate
    exact ⟨segment, hmem, hholds, hstate, hend, hplanned⟩

theorem Follows.finished_of_end (hr : route.Accepted) (hp : p.Follows route)
    (hend : p.position = p.length) : p.settle.state = .finished := by
  rcases hp.settle_state hr with hstate | ⟨sector, hstate⟩
  · exact hstate
  · have hlt := (hp.settle hr).sectorsPassed_lt hstate
    rw [hp.sectorsPassed_settle hr, ← hp.segments_eq, ← position_lt_length_iff hr hp] at hlt
    exact absurd hend hlt.ne

variable [SectorDevice σ]

/-- How a read ends that makes one request: it passes a failure on, it fails because nothing came,
or it returns the sectors that came and were asked for. -/
inductive EndsAfter (p : Playhead (Recorded SectorRequest σ)) (request : SectorRequest) :
    EStateM.Result Error (Playhead (Recorded SectorRequest σ)) ByteArray → Prop
  | failed {e : Error} {inner : σ} {p' : Playhead (Recorded SectorRequest σ)}
    (hanswer : SectorDevice.readSlice request.lba request.count request.room p.device.inner =
      .error e inner)
    (hdevice : p'.device = ⟨inner, p.device.calls ++ [request]⟩)
    (hposition : p'.position = p.position) : EndsAfter p request (.error e p')
  | nothing {sectors : Sectors request.count} {inner : σ} {p' : Playhead (Recorded SectorRequest σ)}
    (hanswer : SectorDevice.readSlice request.lba request.count request.room p.device.inner =
      .ok sectors inner)
    (hreported : sectors.reported = 0)
    (hdevice : p'.device = ⟨inner, p.device.calls ++ [request]⟩)
    (hposition : p'.position = p.position) :
    EndsAfter p request (.error (.nothingRead request.lba request.count) p')
  | some {sectors : Sectors request.count} {inner : σ} {p' : Playhead (Recorded SectorRequest σ)}
    (hanswer : SectorDevice.readSlice request.lba request.count request.room p.device.inner =
      .ok sectors inner)
    (hreported : 1 ≤ sectors.reported)
    (hdevice : p'.device = ⟨inner, p.device.calls ++ [request]⟩)
    (hsize : sectors.data.size = min sectors.reported request.count * sectorSize)
    (hposition : p'.position = p.position + min sectors.reported request.count * sectorSize) :
    EndsAfter p request (.ok sectors.data p')

/-- The request of a read before the end of the stream, and how the read ends. -/
theorem Follows.read_endsAfter {p : Playhead (Recorded SectorRequest σ)} (hr : route.Accepted)
    (hp : p.Follows route) {size : Nat} (hsize : sectorSize ≤ size)
    (hword : size / sectorSize < UInt32.size) {segment : Segment}
    (hstate : p.settle.state = .reading (segment.sectorAt p.position))
    (hend : p.settle.place.endSector = segment.endSector) :
    p.EndsAfter ⟨segment.sectorAt p.position,
        min (size / sectorSize) (segment.endSector - segment.sectorAt p.position),
        min (size / sectorSize) (segment.endSector - segment.sectorAt p.position) * sectorSize⟩
      (read size p) := by
  have hcount : p.settle.requestCount size (segment.sectorAt p.position) =
      min (size / sectorSize) (segment.endSector - segment.sectorAt p.position) := by
    rw [requestCount, Nat.mod_eq_of_lt hword, hend]
  have hread := read_of_reading hsize hstate
  rw [hcount, hp.device_settle hr] at hread
  -- the answer's type depends on the count, so that both are made variables first
  generalize segment.sectorAt p.position = lba at hread ⊢
  generalize min (size / sectorSize) (segment.endSector - lba) = count at hread ⊢
  cases hanswer : SectorDevice.readSlice lba count (count * sectorSize) p.device.inner with
  | error e inner =>
    have hrecorded : SectorDevice.readSlice lba count (count * sectorSize) p.device = _ :=
      Recorded.record_of_error hanswer p.device.calls
    rw [hrecorded] at hread
    have hposition := (hp.read_error_position hr hsize hread).2.1
    rw [hread]
    exact .failed hanswer rfl hposition
  | ok sectors inner =>
    have hrecorded : SectorDevice.readSlice lba count (count * sectorSize) p.device = _ :=
      Recorded.record_of_ok hanswer p.device.calls
    rw [hrecorded] at hread
    by_cases hreported : sectors.reported = 0
    · simp only [answered, if_pos hreported] at hread
      have hposition := (hp.read_error_position hr hsize hread).2.1
      rw [hread]
      exact .nothing hanswer hreported rfl hposition
    · simp only [answered, if_neg hreported] at hread
      have hroom : 0 < size / sectorSize % UInt32.size := by
        rw [Nat.mod_eq_of_lt hword]
        exact Nat.div_pos hsize (by decide)
      have hposition := (hp.read_ok_position hr hroom hread).2.1
      rw [sectors.size_data] at hposition
      rw [hread]
      exact .some hanswer (Nat.pos_of_ne_zero hreported) rfl sectors.size_data hposition

/-- A read of a playhead, whatever has happened before. Before the end of the stream it makes one
request, for as many sectors from its position on as the buffer and the segment that holds the
position have, hands over a slice of the buffer for exactly these, and ends by what the device
answers. At the end it makes none and finishes, and into a buffer that holds no sector it is refused. -/
theorem read_requests_once {chainNumber : UInt16} {chain : ProgramChain} {program angle : Nat}
    (h : Route.ofChain chainNumber chain program angle = .ok route)
    (device : σ) (moves : List Move) (size : Nat) :
    let p := (ofRoute (⟨device, []⟩ : Recorded SectorRequest σ) route).after moves
    (size < sectorSize → read size p = .error (.bufferUnderflow sectorSize size) p) ∧
    (sectorSize ≤ size → size / sectorSize < UInt32.size →
      (p.position < p.length →
        ∃ segment ∈ route.segments, segment.Holds p.position ∧
          ∃ request : SectorRequest,
            (plannedSectors route.segments)[p.position / sectorSize]? = some request.lba ∧
            request.lba = segment.sectorAt p.position ∧
            request.count = min (size / sectorSize) (segment.endSector - request.lba) ∧
            1 ≤ request.count ∧ request.room = request.count * sectorSize ∧ request.room ≤ size ∧
            p.EndsAfter request (read size p)) ∧
      (p.position = p.length →
        ∃ p', read size p = .ok .empty p' ∧ p'.device = p.device ∧ p'.state = .finished ∧
          p'.position = p.length)) := by
  intro p
  obtain ⟨hr, -, -⟩ := Route.accepted_of_ofChain h
  have hp : p.Follows route := (follows_ofRoute hr _).after hr moves
  refine ⟨read_of_lt, ?_⟩
  intro hsize hword
  constructor
  · intro hlt
    obtain ⟨segment, hmem, hholds, hstate, hend, hplanned⟩ := hp.reading_of_lt hr hlt
    have hin := ((hp.settle hr).reading hstate).2
    have hone : 1 ≤ size / sectorSize := Nat.div_pos hsize (by decide)
    have hcount : 1 ≤ min (size / sectorSize) (segment.endSector - segment.sectorAt p.position) := by
      omega
    have hroom : min (size / sectorSize) (segment.endSector - segment.sectorAt p.position) *
        sectorSize ≤ size :=
      calc
        _ ≤ size / sectorSize * sectorSize := Nat.mul_le_mul_right _ (Nat.min_le_left ..)
        _ ≤ size := Nat.div_mul_le_self ..
    exact ⟨segment, hmem, hholds, _, hplanned, rfl, rfl, hcount, rfl, hroom,
      hp.read_endsAfter hr hsize hword hstate hend⟩
  · intro hend
    have hdone := hp.finished_of_end hr hend
    exact ⟨p.settle, read_of_finished hsize hdone, hp.device_settle hr, hdone,
      (hp.position_settle hr).trans hend⟩

/-- From inside the first cell, into a buffer that has room for more than the rest of it. -/
theorem read_requests_once_twoAngles :
    let route : Route := ⟨1, twoAngles, [⟨1, 2⟩], 1, 0⟩
    let video := StoredSectors.mk (MemoryStore.mk (.mk (Array.replicate 4096 7)) 0)
    let p := (ofRoute (⟨video, []⟩ : Recorded SectorRequest _) route).after [.seek 2100]
    Route.ofChain 1 twoAngles 1 1 = .ok route ∧ p.position < p.length ∧
      ∃ segment ∈ route.segments, segment.Holds p.position ∧
        ∃ request : SectorRequest, request.lba = segment.sectorAt p.position ∧
          request.count = min 4 (segment.endSector - request.lba) ∧
          request.room = request.count * sectorSize ∧ p.EndsAfter request (read 8192 p) := by
  intro route video p
  have h : Route.ofChain 1 twoAngles 1 1 = .ok route := rfl
  have hlt : p.position < p.length := by decide +kernel
  obtain ⟨-, hread⟩ := read_requests_once h video [.seek 2100] 8192
  obtain ⟨segment, hmem, hholds, request, -, hlba, hcount, -, hroom, -, hends⟩ :=
    (hread (by decide) (by decide)).1 hlt
  exact ⟨h, hlt, segment, hmem, hholds, request, hlba, hcount, hroom, hends⟩

end Playhead

end OpticalDisc
