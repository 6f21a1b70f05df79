import OpticalDisc.Proofs.Dvd.PlayheadMoves
import OpticalDisc.Proofs.Storage.SectorContents

/-!
# What a playhead reads from a device with contents

On a device that serves fixed contents a playhead reads the planned sectors in order. It fails at a
planned sector that the device does not hold, and nowhere else.
-/

namespace OpticalDisc

theorem word_of_mem_plannedSectors {route : Route} (hr : route.Accepted) {sector : Nat}
    (h : sector ∈ plannedSectors route.segments) : sector + 1 < UInt32.size := by
  obtain ⟨segment, hsegment, hmem⟩ := List.mem_flatMap.1 h
  have hplay := hr.segments_inOrder.playable hsegment
  have hend := hplay.end_le
  rw [Segment.sectors, List.mem_range'_1] at hmem
  have hsize : 0 < UInt32.size := by decide
  unfold Cell.maxSector at hend
  omega

namespace Playhead

variable {σ : Type} {p : Playhead σ} {route : Route}

theorem Follows.take_drop_planned (hp : p.Follows route) {sector count : Nat}
    (h : p.state = .reading sector) (hcount : count ≤ p.place.endSector - sector) :
    ((plannedSectors p.segments).drop p.sectorsPassed).take count = List.range' sector count := by
  have hwithin : count ≤ (List.range' sector (p.place.endSector - sector)).length := by
    rwa [List.length_range']
  rw [hp.drop_sectorsPassed h, List.take_append_of_le_length hwithin,
    List.take_range'_of_length_ge hcount]

theorem Follows.getElem?_sectorsPassed (hp : p.Follows route) {sector : Nat}
    (h : p.state = .reading sector) :
    (plannedSectors p.segments)[p.sectorsPassed]? = some sector := by
  have hlt := (hp.reading h).2
  have htake := hp.take_drop_planned h (show 1 ≤ p.place.endSector - sector by omega)
  have hfirst := congrArg (·[0]?) htake
  simpa [List.getElem?_take] using hfirst

variable [SectorDevice σ] {contents : Nat → ByteArray} {held : Nat → Prop} {good : σ → Prop}

/-- A read of a playhead brings the next planned sectors, at least one unless it is at the end, or
fails at a sector that the device does not hold. -/
theorem Follows.read_served (hserves : SectorDevice.Serves contents held good)
    (hr : route.Accepted) (hp : p.Follows route) (hgood : good p.device) {size : Nat}
    (hroom : 0 < size / sectorSize % UInt32.size) (hsize : sectorSize ≤ size) :
    (∃ count p', read size p =
          .ok (sectorBytes contents
            (((plannedSectors route.segments).drop p.sectorsPassed).take count)) p' ∧
        good p'.device ∧ p'.sectorsPassed = p.sectorsPassed + count ∧
        p.sectorsPassed + count ≤ (plannedSectors route.segments).length ∧
        ∀ sector ∈ ((plannedSectors route.segments).drop p.sectorsPassed).take count, held sector) ∨
      (∃ sector count p', read size p = .error (.nothingRead sector count) p' ∧
        (plannedSectors route.segments)[p.sectorsPassed]? = some sector ∧ ¬ held sector) := by
  have hsettled := hp.settle hr
  have hdevice : good p.settle.device := by rwa [hp.device_settle hr]
  rw [← hsettled.segments_eq, ← hp.sectorsPassed_settle hr]
  rcases hp.settle_state hr with hstate | ⟨sector, hstate⟩
  · refine .inl ⟨0, p.settle, ?_, hdevice, rfl, hsettled.sectorsPassed_le, ?_⟩
    · rw [read_of_finished hsize hstate]
      simp
    · simp
  · have hlt := (hsettled.reading hstate).2
    have hend := hsettled.end_le hr
    have hrequest : 0 < p.settle.requestCount size sector := by
      unfold requestCount
      omega
    have hwithin : p.settle.requestCount size sector ≤ p.settle.place.endSector - sector :=
      Nat.min_le_right _ _
    have hword : sector + p.settle.requestCount size sector < UInt32.size := by
      have hpos : 0 < UInt32.size := by decide
      unfold Cell.maxSector at hend
      omega
    obtain ⟨blocks, device, hanswer, hgood', hreported, hheld, hdata⟩ :=
      hserves.answer hdevice hrequest hword
    have hread := read_of_reading hsize hstate
    rw [hanswer] at hread
    by_cases hnone : blocks.reported = 0
    · simp only [answered, if_pos hnone] at hread
      refine .inr ⟨sector, _, _, hread, hsettled.getElem?_sectorsPassed hstate, ?_⟩
      rw [← hreported]
      omega
    · have hanswered : p.settle.answered sector (p.settle.requestCount size sector)
          (.ok blocks device) = .ok blocks.data _ := if_neg hnone
      obtain ⟨hp', _, _, heq, -, -, -, hpassed⟩ := hsettled.answered_ok hstate hwithin hanswered
      obtain ⟨rfl, -⟩ := EStateM.Result.ok.inj heq
      have hcount : min blocks.reported (p.settle.requestCount size sector) ≤
          p.settle.place.endSector - sector := (Nat.min_le_right _ _).trans hwithin
      have hplanned := hsettled.take_drop_planned hstate hcount
      have hle := hp'.sectorsPassed_le
      rw [hpassed, hp'.segments_eq, ← hsettled.segments_eq] at hle
      refine .inl ⟨min blocks.reported (p.settle.requestCount size sector), _, ?_, hgood', hpassed,
        hle, ?_⟩
      · rw [hplanned, ← hdata]
        exact hread.trans hanswered
      · rw [hplanned]
        exact hheld

end Playhead

end OpticalDisc
