import OpticalDisc.Proofs.Dvd.PlayheadMoves

/-!
# Playheads that cannot be told apart

Two playheads on one route with the same device behave alike as soon as the same number of sectors
is behind them, although one may stand at the end of a segment and the other at the start of the
next, or both may be finished with different segments active. They answer reads and seeks in the
same way, and stay alike.
-/

namespace OpticalDisc

attribute [ext] Playhead.Place Playhead

theorem sectorOffset_injective {m n : Nat} (h : sectorOffset m = sectorOffset n) : m = n :=
  Nat.eq_of_mul_eq_mul_right (by decide) h

namespace Playhead

variable {σ : Type} {p q : Playhead σ} {route : Route}

/-- Two playheads with the same device and the same sectors left to read. -/
structure Alike (p q : Playhead σ) (route : Route) : Prop where
  left : p.Follows route
  right : q.Follows route
  device_eq : p.device = q.device
  passed_eq : p.sectorsPassed = q.sectorsPassed

namespace Follows

theorem segment_eq (hp : p.Follows route) (hq : q.Follows route) {a b : Nat}
    (ha : p.state = .reading a) (hb : q.state = .reading b)
    (hpassed : p.sectorsPassed = q.sectorsPassed) : p.place.segment = q.place.segment := by
  obtain ⟨hp_le, hp_lt⟩ := hp.sectorsPassed_bounds ha
  obtain ⟨hq_le, hq_lt⟩ := hq.sectorsPassed_bounds hb
  rcases Nat.lt_trichotomy p.place.segment q.place.segment with hlt | heq | hgt
  · have hmono := length_plannedSectors_take_mono route.segments (Nat.succ_le_of_lt hlt)
    simp only [Nat.succ_eq_add_one] at hmono
    omega
  · exact heq
  · have hmono := length_plannedSectors_take_mono route.segments (Nat.succ_le_of_lt hgt)
    simp only [Nat.succ_eq_add_one] at hmono
    omega

/-- The number of sectors passed fixes the place of a playhead that has a sector to read. -/
theorem place_eq (hp : p.Follows route) (hq : q.Follows route) {a b : Nat}
    (ha : p.state = .reading a) (hb : q.state = .reading b)
    (hpassed : p.sectorsPassed = q.sectorsPassed) : p.place = q.place := by
  have hindex := hp.segment_eq hq ha hb hpassed
  obtain ⟨segment, hsegment, hcell, hfirst, hend⟩ := hp.active
  obtain ⟨other, hother, hcell', hfirst', hend'⟩ := hq.active
  rw [← hindex] at hother
  obtain rfl := Option.some.inj (hsegment.symm.trans hother)
  have hcurrent : p.place.currentSector = q.place.currentSector := by
    rw [sectorsPassed_of_ne_finished (p := p) (by simp [ha]),
      sectorsPassed_of_ne_finished (p := q) (by simp [hb]), hindex, hp.segments_eq,
      hq.segments_eq] at hpassed
    have := hp.first_le
    have := hq.first_le
    omega
  apply Place.ext
  · exact hindex
  · exact hcell.symm.trans hcell'
  · exact hcurrent
  · exact hfirst.symm.trans hfirst'
  · exact hend.symm.trans hend'
  · exact hp.angle_eq.trans hq.angle_eq.symm

end Follows

namespace Alike

theorem refl (hp : p.Follows route) : p.Alike p route :=
  ⟨hp, hp, rfl, rfl⟩

theorem length_eq (h : p.Alike q route) : p.length = q.length := by
  rw [h.left.length_eq, h.right.length_eq]

theorem settle (hr : route.Accepted) (h : p.Alike q route) : p.settle.Alike q.settle route where
  left := h.left.settle hr
  right := h.right.settle hr
  device_eq := by rw [h.left.device_settle hr, h.right.device_settle hr, h.device_eq]
  passed_eq := by rw [h.left.sectorsPassed_settle hr, h.right.sectorsPassed_settle hr, h.passed_eq]

theorem eq_of_reading (h : p.Alike q route) {a b : Nat} (ha : p.state = .reading a)
    (hb : q.state = .reading b) : p = q := by
  have hplace := h.left.place_eq h.right ha hb h.passed_eq
  apply Playhead.ext
  · exact h.device_eq
  · rw [h.left.route_eq, h.right.route_eq]
  · rw [h.left.segments_eq, h.right.segments_eq]
  · exact hplace
  · rw [ha, hb, (h.left.reading ha).1, (h.right.reading hb).1, hplace]
  · exact h.length_eq

theorem settle_cases (hr : route.Accepted) (h : p.Alike q route) :
    (p.settle.state = .finished ∧ q.settle.state = .finished) ∨
      ((∃ sector, p.settle.state = .reading sector) ∧ p.settle = q.settle) := by
  have hsettled := h.settle hr
  rcases h.left.settle_state hr with hp | ⟨a, ha⟩
  · rcases h.right.settle_state hr with hq | ⟨b, hb⟩
    · exact .inl ⟨hp, hq⟩
    · have hlt := hsettled.right.sectorsPassed_lt hb
      rw [← hsettled.passed_eq, sectorsPassed_finished hp, hsettled.left.segments_eq] at hlt
      exact absurd hlt (Nat.lt_irrefl _)
  · rcases h.right.settle_state hr with hq | ⟨b, hb⟩
    · have hlt := hsettled.left.sectorsPassed_lt ha
      rw [hsettled.passed_eq, sectorsPassed_finished hq, hsettled.right.segments_eq] at hlt
      exact absurd hlt (Nat.lt_irrefl _)
    · exact .inr ⟨⟨a, ha⟩, hsettled.eq_of_reading ha hb⟩

/-- Both reads fail alike or return the same bytes. -/
theorem read [SectorDevice σ] (hr : route.Accepted) (h : p.Alike q route) {size : Nat}
    (hsize : sectorSize ≤ size) :
    (∃ e p' q', Playhead.read size p = .error e p' ∧ Playhead.read size q = .error e q' ∧
        p'.Alike q' route) ∨
      (∃ data p' q', Playhead.read size p = .ok data p' ∧ Playhead.read size q = .ok data q' ∧
        p'.Alike q' route) := by
  rcases h.settle_cases hr with ⟨hp, hq⟩ | ⟨⟨sector, hstate⟩, heq⟩
  · exact .inr ⟨.empty, p.settle, q.settle, read_of_finished hsize hp, read_of_finished hsize hq,
      h.settle hr⟩
  · have hfollows := h.left.read_follows hr size
    have hread : Playhead.read size q = Playhead.read size p := by
      rw [read_of_reading hsize hstate, heq]
      exact read_of_reading hsize (heq ▸ hstate)
    cases hresult : Playhead.read size p with
    | ok data p' =>
      rw [hresult] at hread hfollows
      exact .inr ⟨data, p', p', rfl, hread, refl hfollows⟩
    | error e p' =>
      rw [hresult] at hread hfollows
      exact .inl ⟨e, p', p', rfl, hread, refl hfollows⟩

theorem seek (hr : route.Accepted) (h : p.Alike q route) (position : Nat) :
    (p.seek position).1 = (q.seek position).1 ∧
      (p.seek position).2.Alike (q.seek position).2 route := by
  have hsegments : p.segments = q.segments := by rw [h.left.segments_eq, h.right.segments_eq]
  have hreached : (p.seek position).1 = (q.seek position).1 := by
    simp only [Playhead.seek, h.length_eq, hsegments]
    split
    · rfl
    · split <;> rfl
  refine ⟨hreached, h.left.seek hr position, h.right.seek hr position, ?_, ?_⟩
  · rw [h.left.device_seek hr, h.right.device_seek hr, h.device_eq]
  · apply sectorOffset_injective
    rw [← (h.left.seek hr position).position_eq hr, ← (h.right.seek hr position).position_eq hr,
      h.left.position_seek hr, h.right.position_seek hr, hreached]

end Alike

end Playhead

end OpticalDisc
