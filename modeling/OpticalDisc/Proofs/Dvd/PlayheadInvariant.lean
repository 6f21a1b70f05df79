import OpticalDisc.Dvd.Playhead
import OpticalDisc.Proofs.Dvd.AcceptedRoute

/-!
# Where a playhead stands

`Playhead.Follows` is the invariant of a playhead: its place lies in the segment that it names, and
its state agrees with its place. `Playhead.sectorsPassed` counts the sectors of the linear stream in
front of the playhead. Settling leaves the count alone, a read moves it on by the sectors that came,
and a seek sets it.
-/

namespace OpticalDisc

namespace Playhead

variable {σ : Type} {p : Playhead σ} {route : Route}

/-- What a playhead keeps of its route wherever it stands. -/
structure OnRoute (p : Playhead σ) (route : Route) : Prop where
  route_eq : p.route = route
  segments_eq : p.segments = route.segments
  length_eq : p.length = lengthOf route.segments
  angle_eq : p.place.angle = route.angle

/-- The playhead walks the segments of `route`, and its place is inside one of them. -/
structure Follows (p : Playhead σ) (route : Route) : Prop extends OnRoute p route where
  active : ∃ segment, route.segments[p.place.segment]? = some segment ∧
    segment.cell = p.place.cell ∧ segment.firstSector = p.place.firstSector ∧
    segment.endSector = p.place.endSector
  first_le : p.place.firstSector ≤ p.place.currentSector
  le_end : p.place.currentSector ≤ p.place.endSector
  reading {sector : Nat} : p.state = .reading sector →
    sector = p.place.currentSector ∧ sector < p.place.endSector
  segmentDone : p.state = .segmentDone → p.place.currentSector = p.place.endSector

/-- The number of sectors of the linear stream in front of the playhead. -/
def sectorsPassed (p : Playhead σ) : Nat :=
  match p.state with
  | .finished => (plannedSectors p.segments).length
  | _ =>
    (plannedSectors (p.segments.take p.place.segment)).length +
      (p.place.currentSector - p.place.firstSector)

theorem sectorsPassed_finished (h : p.state = .finished) :
    p.sectorsPassed = (plannedSectors p.segments).length := by
  simp [sectorsPassed, h]

theorem sectorsPassed_of_ne_finished (h : p.state ≠ .finished) :
    p.sectorsPassed = (plannedSectors (p.segments.take p.place.segment)).length +
      (p.place.currentSector - p.place.firstSector) := by
  unfold sectorsPassed
  split
  · exact absurd ‹_› h
  · rfl

theorem position_of_ne_finished (h : p.state ≠ .finished) {segment : Segment}
    (hsegment : p.segments[p.place.segment]? = some segment) :
    p.position =
      segment.byteOffset + sectorOffset (p.place.currentSector - p.place.firstSector) := by
  unfold position
  split
  · exact absurd ‹_› h
  · rw [hsegment]

theorem length_plannedSectors_take_succ {segments : List Segment} {i : Nat} {segment : Segment}
    (h : segments[i]? = some segment) :
    (plannedSectors (segments.take (i + 1))).length =
      (plannedSectors (segments.take i)).length + (segment.endSector - segment.firstSector) := by
  rw [List.take_add_one, h]
  simp

theorem length_plannedSectors_take_le (segments : List Segment) (i : Nat) :
    (plannedSectors (segments.take i)).length ≤ (plannedSectors segments).length := by
  conv_rhs => rw [← List.take_append_drop i segments, plannedSectors_append, List.length_append]
  exact Nat.le_add_right _ _

theorem length_plannedSectors_take_mono (segments : List Segment) {i j : Nat} (h : i ≤ j) :
    (plannedSectors (segments.take i)).length ≤ (plannedSectors (segments.take j)).length := by
  have hle := length_plannedSectors_take_le (segments.take j) i
  rwa [List.take_take, Nat.min_eq_left h] at hle

theorem lengthOf_eq (hr : route.Accepted) :
    lengthOf route.segments = sectorOffset (plannedSectors route.segments).length := by
  have hpos := List.length_pos_iff.2 hr.segments_ne_nil
  have hlast := List.getElem?_eq_getElem (l := route.segments) (i := route.segments.length - 1)
    (by omega)
  have hoffset := hr.segments_inOrder.offset hlast
  have htake := length_plannedSectors_take_succ hlast
  rw [Nat.sub_add_cancel hpos, List.take_length] at htake
  rw [lengthOf, List.getLast?_eq_getElem?, hlast]
  simp only [hoffset, Nat.zero_add, Segment.byteLength, ← sectorOffset_add, htake]

theorem segment_playable (hr : route.Accepted) {i : Nat} {segment : Segment}
    (h : route.segments[i]? = some segment) : segment.Playable :=
  hr.segments_inOrder.playable (List.mem_of_getElem? h)

theorem OnRoute.length_eq_sectors (hr : route.Accepted) (hp : p.OnRoute route) :
    p.length = sectorOffset (plannedSectors p.segments).length := by
  rw [hp.length_eq, hp.segments_eq, lengthOf_eq hr]

theorem OnRoute.enter (hp : p.OnRoute route) {i sector : Nat} {segment : Segment}
    (hsegment : route.segments[i]? = some segment) (hfirst : segment.firstSector ≤ sector)
    (hend : sector ≤ segment.endSector) : (p.enter i segment sector).Follows route where
  route_eq := hp.route_eq
  segments_eq := hp.segments_eq
  length_eq := hp.length_eq
  angle_eq := hp.angle_eq
  active := ⟨segment, hsegment, rfl, rfl, rfl⟩
  first_le := hfirst
  le_end := hend
  reading {s} h := by
    simp only [Playhead.enter] at h ⊢
    split at h
    · simp only [State.reading.injEq] at h
      omega
    · simp at h
  segmentDone h := by
    simp only [Playhead.enter] at h ⊢
    split at h
    · simp at h
    · omega

theorem follows_ofRoute (hr : route.Accepted) (device : σ) :
    (ofRoute device route).Follows route := by
  cases hhead : route.segments.head? with
  | none => exact absurd (List.head?_eq_none_iff.1 hhead) hr.segments_ne_nil
  | some segment =>
    have hsegment : route.segments[0]? = some segment := by rw [← hhead, List.head?_eq_getElem?]
    simp only [ofRoute, hhead]
    exact OnRoute.enter ⟨rfl, rfl, rfl, rfl⟩ hsegment le_rfl
      (segment_playable hr hsegment).first_lt.le

namespace Follows

theorem end_le (hr : route.Accepted) (hp : p.Follows route) :
    p.place.endSector ≤ Cell.maxSector := by
  obtain ⟨segment, hsegment, -, -, hend⟩ := hp.active
  exact hend ▸ (segment_playable hr hsegment).end_le

theorem withDevice (hp : p.Follows route) (device : σ) :
    ({ p with device } : Playhead σ).Follows route where
  route_eq := hp.route_eq
  segments_eq := hp.segments_eq
  length_eq := hp.length_eq
  angle_eq := hp.angle_eq
  active := hp.active
  first_le := hp.first_le
  le_end := hp.le_end
  reading := hp.reading
  segmentDone := hp.segmentDone

theorem finish (hp : p.Follows route) :
    ({ p with state := .finished } : Playhead σ).Follows route :=
  { hp with reading := by simp, segmentDone := by simp }

theorem moveTo (hp : p.Follows route) {sector : Nat} (hle : p.place.currentSector ≤ sector)
    (hend : sector ≤ p.place.endSector) : (p.moveTo sector).Follows route where
  route_eq := hp.route_eq
  segments_eq := hp.segments_eq
  length_eq := hp.length_eq
  angle_eq := hp.angle_eq
  active := hp.active
  first_le := hp.first_le.trans hle
  le_end := hend
  reading {s} h := by
    simp only [Playhead.moveTo] at h ⊢
    split at h
    · simp at h
    · simp only [State.reading.injEq] at h
      omega
  segmentDone h := by
    simp only [Playhead.moveTo] at h ⊢
    split at h
    · omega
    · simp at h

theorem sectorsPassed_eq (hp : p.Follows route) (h : p.state ≠ .finished) :
    ∃ segment, p.segments[p.place.segment]? = some segment ∧
      segment.firstSector = p.place.firstSector ∧ segment.endSector = p.place.endSector ∧
      p.sectorsPassed + (p.place.endSector - p.place.currentSector) =
        (plannedSectors (p.segments.take (p.place.segment + 1))).length := by
  obtain ⟨segment, hsegment, -, hfirst, hend⟩ := hp.active
  rw [← hp.segments_eq] at hsegment
  refine ⟨segment, hsegment, hfirst, hend, ?_⟩
  have := hp.first_le
  have := hp.le_end
  rw [sectorsPassed_of_ne_finished h, length_plannedSectors_take_succ hsegment]
  omega

theorem sectorsPassed_le (hp : p.Follows route) :
    p.sectorsPassed ≤ (plannedSectors p.segments).length := by
  by_cases h : p.state = .finished
  · rw [sectorsPassed_finished h]
  · obtain ⟨segment, -, -, -, hpassed⟩ := hp.sectorsPassed_eq h
    have := length_plannedSectors_take_le p.segments (p.place.segment + 1)
    omega

/-- A playhead inside a segment has passed the segments before it and not all of its own. -/
theorem sectorsPassed_bounds (hp : p.Follows route) {sector : Nat} (h : p.state = .reading sector) :
    (plannedSectors (route.segments.take p.place.segment)).length ≤ p.sectorsPassed ∧
      p.sectorsPassed < (plannedSectors (route.segments.take (p.place.segment + 1))).length := by
  have hne : p.state ≠ .finished := by simp [h]
  obtain ⟨-, hlt⟩ := hp.reading h
  obtain ⟨hsector, -⟩ := hp.reading h
  obtain ⟨segment, -, -, -, hpassed⟩ := hp.sectorsPassed_eq hne
  rw [hp.segments_eq] at hpassed
  have hfront := sectorsPassed_of_ne_finished hne
  rw [hp.segments_eq] at hfront
  constructor
  · omega
  · omega

theorem sectorsPassed_lt (hp : p.Follows route) {sector : Nat} (h : p.state = .reading sector) :
    p.sectorsPassed < (plannedSectors route.segments).length := by
  have hlt := (hp.sectorsPassed_bounds h).2
  exact hlt.trans_le (length_plannedSectors_take_le route.segments _)

theorem position_eq (hr : route.Accepted) (hp : p.Follows route) :
    p.position = sectorOffset p.sectorsPassed := by
  by_cases h : p.state = .finished
  · rw [sectorsPassed_finished h, position, h, hp.length_eq_sectors hr]
  · obtain ⟨segment, hsegment, -, -, -⟩ := hp.active
    have hoffset := hr.segments_inOrder.offset hsegment
    rw [position_of_ne_finished h (hp.segments_eq ▸ hsegment), sectorsPassed_of_ne_finished h,
      sectorOffset_add, hoffset, Nat.zero_add, hp.segments_eq]

theorem position_le_length (hr : route.Accepted) (hp : p.Follows route) :
    p.position ≤ p.length := by
  rw [hp.position_eq hr, hp.length_eq_sectors hr]
  exact Nat.mul_le_mul_right _ hp.sectorsPassed_le

theorem next?_eq (hr : route.Accepted) (hp : p.Follows route) :
    p.route.next? p.place.cell = p.segments[p.place.segment + 1]?.map (·.cell) := by
  obtain ⟨segment, hsegment, hcell, -, -⟩ := hp.active
  rw [hp.route_eq, hp.segments_eq, ← hcell]
  exact hr.segments_inOrder.next hsegment

end Follows

theorem settle_of_ne_segmentDone (h : p.state ≠ .segmentDone) : p.settle = p := by
  rw [settle]
  split
  · rfl
  · rfl
  · exact absurd ‹_› h

/-- What settling does: a playhead with a sector to read and a finished one stay, one at the end of
the last segment finishes, and one at the end of another enters the next. -/
theorem Follows.settle_cases (hr : route.Accepted) (hp : p.Follows route) :
    (p.state ≠ .segmentDone ∧ p.settle = p) ∨
      (p.state = .segmentDone ∧ p.segments[p.place.segment + 1]? = none ∧
        p.settle = { p with state := .finished }) ∨
      (p.state = .segmentDone ∧ ∃ segment, p.segments[p.place.segment + 1]? = some segment ∧
        p.settle = p.enter (p.place.segment + 1) segment segment.firstSector ∧
        p.settle.state = .reading segment.firstSector) := by
  by_cases h : p.state = .segmentDone
  · have hnext := hp.next?_eq hr
    cases hsegment : p.segments[p.place.segment + 1]? with
    | none =>
      refine .inr (.inl ⟨h, rfl, ?_⟩)
      rw [hsegment] at hnext
      rw [settle, h]
      simp [hnext]
    | some segment =>
      have hlt := (segment_playable hr (hp.segments_eq ▸ hsegment)).first_lt
      have hstate : (p.enter (p.place.segment + 1) segment segment.firstSector).state =
          .reading segment.firstSector := if_pos hlt
      have hsettle : p.settle = p.enter (p.place.segment + 1) segment segment.firstSector := by
        rw [hsegment] at hnext
        rw [settle, h]
        simp only [hnext, Option.map_some]
        split
        · simp_all
        · rename_i found hfound
          obtain rfl := Option.some.inj (hsegment.symm.trans hfound)
          exact settle_of_ne_segmentDone (by simp [hstate])
      exact .inr (.inr ⟨h, segment, rfl, hsettle, hsettle ▸ hstate⟩)
  · exact .inl ⟨h, settle_of_ne_segmentDone h⟩

namespace Follows

theorem settle (hr : route.Accepted) (hp : p.Follows route) : p.settle.Follows route := by
  rcases hp.settle_cases hr with ⟨-, heq⟩ | ⟨-, -, heq⟩ | ⟨-, segment, hsegment, heq, -⟩
  · rwa [heq]
  · rw [heq]
    exact hp.finish
  · rw [hp.segments_eq] at hsegment
    rw [heq]
    exact hp.toOnRoute.enter hsegment le_rfl (segment_playable hr hsegment).first_lt.le

theorem settle_state (hr : route.Accepted) (hp : p.Follows route) :
    p.settle.state = .finished ∨ ∃ sector, p.settle.state = .reading sector := by
  rcases hp.settle_cases hr with ⟨hne, heq⟩ | ⟨-, -, heq⟩ | ⟨-, segment, -, -, hstate⟩
  · rw [heq]
    cases hstate : p.state with
    | reading sector => exact .inr ⟨sector, rfl⟩
    | segmentDone => exact absurd hstate hne
    | finished => exact .inl rfl
  · exact .inl (heq ▸ rfl)
  · exact .inr ⟨_, hstate⟩

theorem device_settle (hr : route.Accepted) (hp : p.Follows route) :
    p.settle.device = p.device := by
  rcases hp.settle_cases hr with ⟨-, heq⟩ | ⟨-, -, heq⟩ | ⟨-, segment, -, heq, -⟩ <;> rw [heq]
  rfl

theorem segments_settle (hr : route.Accepted) (hp : p.Follows route) :
    p.settle.segments = p.segments := by
  rw [(hp.settle hr).segments_eq, hp.segments_eq]

theorem sectorsPassed_settle (hr : route.Accepted) (hp : p.Follows route) :
    p.settle.sectorsPassed = p.sectorsPassed := by
  rcases hp.settle_cases hr with ⟨-, heq⟩ | ⟨hdone, hnone, heq⟩ | ⟨hdone, next, hnext, heq, hstate⟩
  · rw [heq]
  · have hpassed := (hp.sectorsPassed_eq (by simp [hdone])).choose_spec.2.2.2
    have hall := List.take_of_length_le (List.getElem?_eq_none_iff.1 hnone)
    rw [hp.segmentDone hdone, hall] at hpassed
    rw [heq, sectorsPassed_finished rfl]
    change (plannedSectors p.segments).length = _
    omega
  · have hpassed := (hp.sectorsPassed_eq (by simp [hdone])).choose_spec.2.2.2
    rw [hp.segmentDone hdone] at hpassed
    rw [sectorsPassed_of_ne_finished (by simp [hstate]), heq]
    simp only [Playhead.enter]
    omega

/-- The sectors that a settled playhead reads next are those left in its segment. -/
theorem drop_sectorsPassed (hp : p.Follows route) {sector : Nat} (h : p.state = .reading sector) :
    (plannedSectors p.segments).drop p.sectorsPassed =
      List.range' sector (p.place.endSector - sector) ++
        plannedSectors (p.segments.drop (p.place.segment + 1)) := by
  obtain ⟨segment, hsegment, hfirst, hend, -⟩ := hp.sectorsPassed_eq (by simp [h])
  obtain ⟨hsector, hlt⟩ := hp.reading h
  have hle := hp.first_le
  have hsplit : p.segments = p.segments.take p.place.segment ++
      segment :: p.segments.drop (p.place.segment + 1) := by
    obtain ⟨hbound, rfl⟩ := List.getElem?_eq_some_iff.1 hsegment
    rw [← List.drop_eq_getElem_cons hbound, List.take_append_drop]
  have hrange : segment.sectors.drop (sector - segment.firstSector) =
      List.range' sector (p.place.endSector - sector) := by
    rw [Segment.sectors, List.drop_range']
    congr 1 <;> omega
  have hwithin : sector - segment.firstSector ≤ segment.sectors.length := by
    rw [segment.length_sectors]
    omega
  rw [sectorsPassed_of_ne_finished (by simp [h]), ← hsector, ← hfirst]
  conv_lhs => rw [hsplit]
  rw [plannedSectors_append, ← hsplit, List.drop_length_add_append, plannedSectors_cons,
    List.drop_append_of_le_length hwithin, hrange]

end Follows

end Playhead

end OpticalDisc
