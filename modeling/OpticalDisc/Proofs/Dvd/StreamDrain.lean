import Mathlib.Data.List.TakeWhile
import OpticalDisc.Proofs.Dvd.PlayheadContents
import OpticalDisc.Proofs.Dvd.StreamOpening

/-!
# Reading a title stream to its end

A stream that is read from its start, in reads of any lengths, brings the planned sectors in order.
It comes to its end when the device holds them all, and fails at the first one that the device does
not hold, when everything before that has been delivered.
-/

namespace OpticalDisc

namespace TitleStream

variable {σ : Type} {s : TitleStream σ} {route : Route} {contents : Nat → ByteArray}
  {held : Nat → Prop} {good : σ → Prop}

/-- A stream that has only been read so far: nothing is to be skipped, and all sectors behind the
playhead were held. -/
structure Flows (s : TitleStream σ) (route : Route) (held : Nat → Prop) (good : σ → Prop) :
    Prop where
  aligned : s.Aligned route
  good_device : good s.playhead.device
  skip_eq : s.skip = 0
  passed_held : ∀ sector ∈ (plannedSectors route.segments).take s.playhead.sectorsPassed, held sector

/-- What a stream still brings: the rest of its buffer, and the planned sectors up to the first that
is not held. -/
def remaining (s : TitleStream σ) (route : Route) (contents : Nat → ByteArray)
    (held : Nat → Prop) [DecidablePred held] : ByteArray :=
  s.buffer.extract s.taken s.buffer.size ++ sectorBytes contents
    (((plannedSectors route.segments).drop s.playhead.sectorsPassed).takeWhile (held ·))

theorem Flows.delivered (h : s.Flows route held good) (n : Nat) :
    (s.delivered (s.nextCount n)).Flows route held good where
  aligned := h.aligned.delivered n
  good_device := h.good_device
  skip_eq := h.skip_eq
  passed_held := h.passed_held

variable [DecidablePred held]

theorem remaining_delivered (hleft : s.taken < s.buffer.size) (n : Nat) :
    s.remaining route contents held =
      s.buffer.extract s.taken (s.taken + s.nextCount n) ++
        (s.delivered (s.nextCount n)).remaining route contents held := by
  have hcount : s.nextCount n ≤ s.buffer.size - s.taken := Nat.min_le_right _ _
  simp only [remaining, TitleStream.delivered]
  rw [← ByteArray.append_assoc, ← ByteArray.extract_eq_extract_append_extract _
    (Nat.le_add_right _ _) (by omega)]

theorem remaining_of_drained (h : s.buffer.size ≤ s.taken) :
    s.remaining route contents held = sectorBytes contents
      (((plannedSectors route.segments).drop s.playhead.sectorsPassed).takeWhile (held ·)) := by
  have hnone : s.buffer.extract s.taken s.buffer.size = .empty := by
    rw [ByteArray.extract_eq_empty_iff]
    omega
  rw [remaining, hnone, ByteArray.empty_append]

theorem takeWhile_drop {sectors : List Nat} {passed count : Nat}
    (hheld : ∀ sector ∈ (sectors.drop passed).take count, held sector) :
    (sectors.drop passed).takeWhile (held ·) =
      (sectors.drop passed).take count ++ (sectors.drop (passed + count)).takeWhile (held ·) := by
  have hall : ∀ sector ∈ (sectors.drop passed).take count, decide (held sector) = true := by
    simpa using hheld
  conv_lhs => rw [← List.take_append_drop count (sectors.drop passed)]
  rw [List.takeWhile_append_of_pos hall, List.drop_drop]

theorem takeWhile_drop_of_not {sectors : List Nat} {passed sector : Nat}
    (h : sectors[passed]? = some sector) (hmissing : ¬ held sector) :
    (sectors.drop passed).takeWhile (held ·) = [] := by
  obtain ⟨hlt, rfl⟩ := List.getElem?_eq_some_iff.1 h
  rw [List.drop_eq_getElem_cons hlt, List.takeWhile_cons_of_neg (by simpa using hmissing)]

theorem Flows.at_end (h : s.Flows route held good) (hdrained : s.buffer.size ≤ s.taken)
    (hend : s.length ≤ s.position) :
    s.remaining route contents held = .empty ∧
      ∀ sector ∈ plannedSectors route.segments, held sector := by
  have hp := h.aligned.follows
  have hpast : ¬ s.playhead.position < s.playhead.length := by
    intro hlt
    have hbefore := (h.aligned.position_lt_iff hdrained).2 hlt
    omega
  rw [Playhead.position_lt_length_iff h.aligned.accepted hp, hp.segments_eq] at hpast
  have hle := Nat.not_lt.1 hpast
  constructor
  · rw [remaining_of_drained hdrained, List.drop_of_length_le hle]
    simp
  · have hheld := h.passed_held
    rwa [List.take_of_length_le hle] at hheld

variable [SectorDevice σ]

namespace Flows

/-- A read delivers from a stream with the same bytes to come, which has an empty buffer only at the
end, or it fails at a sector that is not held. -/
theorem deliver_cases (hserves : SectorDevice.Serves contents held good)
    (h : s.Flows route held good) {n : Nat} (hn : n ≠ 0) :
    (∃ t : TitleStream σ, t.Flows route held good ∧
      t.remaining route contents held = s.remaining route contents held ∧
      (t.buffer.size ≤ t.taken → s.remaining route contents held = .empty ∧
        ∀ sector ∈ plannedSectors route.segments, held sector) ∧
      read n s = deliver n t) ∨
    (s.remaining route contents held = .empty ∧
      (∃ sector ∈ plannedSectors route.segments, ¬ held sector) ∧
      ∃ e s', read n s = .error e s' ∧ e.kind = .unexpectedEof) := by
  by_cases hleft : s.taken < s.buffer.size
  · left
    refine ⟨s, h, rfl, ?_, read_of_buffered hn hleft⟩
    intro hdrained
    exact absurd hleft (Nat.not_lt.2 hdrained)
  have hdrained := Nat.not_lt.1 hleft
  rcases h.aligned.follows.read_served hserves h.aligned.accepted h.good_device h.aligned.room
    h.aligned.sectorSize_le with
    ⟨count, playhead, hread, hgood, hpassed, hle, hheld⟩ |
    ⟨sector, count, playhead, hread, hplanned, hmissing⟩
  · left
    obtain ⟨haligned, hnone, hskip⟩ := h.aligned.refilled hdrained hread
    refine ⟨_, ⟨haligned, hgood, rfl, ?_⟩, ?_, ?_, read_of_refilled hn hdrained hread hskip⟩
    · intro sector hsector
      simp only [TitleStream.refilled, hpassed, List.take_add, List.mem_append] at hsector
      rcases hsector with hbefore | hnew
      · exact h.passed_held sector hbefore
      · exact hheld sector hnew
    · rw [remaining_of_drained hdrained, takeWhile_drop hheld, sectorBytes_append]
      simp only [remaining, TitleStream.refilled, h.skip_eq, Nat.zero_min, hpassed,
        ByteArray.extract_zero_size]
    · intro hempty
      simp only [TitleStream.refilled, h.skip_eq, Nat.zero_min, Nat.le_zero] at hempty
      exact h.at_end hdrained (hnone.1 hempty)
  · right
    refine ⟨?_, ⟨sector, List.mem_of_getElem? hplanned, hmissing⟩, _, _,
      read_of_failed hn hdrained hread, rfl⟩
    rw [remaining_of_drained hdrained, takeWhile_drop_of_not hplanned hmissing, sectorBytes_nil]

theorem read_cases (hserves : SectorDevice.Serves contents held good)
    (h : s.Flows route held good) {n : Nat} (hn : n ≠ 0) :
    (∃ chunk s', read n s = .ok chunk s' ∧ chunk.1.size ≠ 0 ∧ s'.Flows route held good ∧
      s.remaining route contents held = chunk.1 ++ s'.remaining route contents held) ∨
    (s.remaining route contents held = .empty ∧
      (∀ sector ∈ plannedSectors route.segments, held sector) ∧
      ∃ chunk s', read n s = .ok chunk s' ∧ chunk.1.size = 0) ∨
    (s.remaining route contents held = .empty ∧
      (∃ sector ∈ plannedSectors route.segments, ¬ held sector) ∧
      ∃ e s', read n s = .error e s' ∧ e.kind = .unexpectedEof) := by
  rcases h.deliver_cases hserves hn with ⟨t, ht, hremaining, hend, hread⟩ | hfailed
  · by_cases hleft : t.taken < t.buffer.size
    · refine .inl ⟨_, _, hread, ?_, ht.delivered n, ?_⟩
      · have hcount := nextCount_pos hn hleft
        have hsize := size_next t n
        simp only [Chunk.slice, Chunk.widen]
        omega
      · rw [← hremaining]
        exact remaining_delivered hleft n
    · have hdrained := Nat.not_lt.1 hleft
      obtain ⟨hempty, hheld⟩ := hend hdrained
      refine .inr (.inl ⟨hempty, hheld, _, _, hread, ?_⟩)
      exact (size_next t n).trans (nextCount_of_drained hdrained)
  · exact .inr (.inr hfailed)

/-- Enough reads of at least one byte bring all that remains, and then the end or a failure. -/
theorem drain_eq (hserves : SectorDevice.Serves contents held good)
    (h : s.Flows route held good) {lengths : List Nat} (hpos : ∀ n ∈ lengths, n ≠ 0)
    (hlong : (s.remaining route contents held).size < lengths.length) :
    (drain s lengths = (s.remaining route contents held, .finished) ∧
      ∀ sector ∈ plannedSectors route.segments, held sector) ∨
    ((∃ e, drain s lengths = (s.remaining route contents held, .failed e) ∧
        e.kind = .unexpectedEof) ∧
      ∃ sector ∈ plannedSectors route.segments, ¬ held sector) := by
  induction lengths generalizing s with
  | nil => simp at hlong
  | cons n rest ih =>
    have hrest : ∀ m ∈ rest, m ≠ 0 := by
      intro m hm
      exact hpos m (List.mem_cons_of_mem _ hm)
    rcases h.read_cases hserves (hpos n (List.mem_cons_self ..)) with
      ⟨chunk, s', hread, hsome, hs', hsplit⟩ | ⟨hempty, hheld, chunk, s', hread, hnone⟩ |
      ⟨hempty, hmissing, e, s', hread, hkind⟩
    · rw [hsplit, ByteArray.size_append, List.length_cons] at hlong
      rw [hsplit, drain_of_some rest hread hsome]
      rcases ih hs' hrest (by omega) with ⟨hdrain, hheld⟩ | ⟨⟨e, hdrain, hkind⟩, hmissing⟩
      · exact .inl ⟨by rw [hdrain], hheld⟩
      · exact .inr ⟨⟨e, by rw [hdrain], hkind⟩, hmissing⟩
    · rw [hempty, drain_of_none rest hread hnone]
      exact .inl ⟨rfl, hheld⟩
    · rw [hempty, drain_of_error rest hread]
      exact .inr ⟨⟨e, rfl, hkind⟩, hmissing⟩

end Flows

/-- The bytes of the planned sectors in front of the first that is not held. -/
def heldBytes (contents : Nat → ByteArray) (held : Nat → Prop) [DecidablePred held]
    (route : Route) : ByteArray :=
  sectorBytes contents ((plannedSectors route.segments).takeWhile (held ·))

theorem heldBytes_eq (h : ∀ sector ∈ plannedSectors route.segments, held sector) :
    heldBytes contents held route = sectorBytes contents (plannedSectors route.segments) := by
  have hall : ∀ sector ∈ plannedSectors route.segments, decide (held sector) = true := by
    simpa using h
  rw [heldBytes, List.takeWhile_eq_self_iff.2 hall]

theorem size_heldBytes_le (hserves : SectorDevice.Serves contents held good)
    (hr : route.Accepted) {device : σ} (hgood : good device) :
    (heldBytes contents held route).size ≤ Playhead.lengthOf route.segments := by
  have huniform : ∀ sector ∈ (plannedSectors route.segments).takeWhile (held ·),
      (contents sector).size = sectorSize := by
    intro sector hsector
    have hplanned := (List.takeWhile_sublist _).subset hsector
    have hheld : held sector := by simpa using List.mem_takeWhile_imp hsector
    exact hserves.size_contents hgood (word_of_mem_plannedSectors hr hplanned) hheld
  rw [heldBytes, size_sectorBytes huniform, Playhead.lengthOf_eq hr]
  exact Nat.mul_le_mul_right _ (List.takeWhile_sublist _).length_le

/-- A fresh stream, read to its end in reads of any lengths but zero, brings the bytes of all planned
sectors, or those in front of the first that the device does not hold and then a failure. -/
theorem Fresh.drain {selection : DvdSelection} {video : σ}
    (h : s.Fresh selection route video) (hbuffer : selection.bufferSectors < UInt32.size)
    (hserves : SectorDevice.Serves contents held good) (hgood : good video) {lengths : List Nat}
    (hpos : ∀ n ∈ lengths, n ≠ 0) (hlong : s.length < lengths.length) :
    (OpticalDisc.drain s lengths = (heldBytes contents held route, .finished) ∧
      ∀ sector ∈ plannedSectors route.segments, held sector) ∨
    ((∃ e, OpticalDisc.drain s lengths = (heldBytes contents held route, .failed e) ∧
        e.kind = .unexpectedEof) ∧
      ∃ sector ∈ plannedSectors route.segments, ¬ held sector) := by
  have hpassed : s.playhead.sectorsPassed = 0 := by
    rw [h.playhead_eq, Playhead.sectorsPassed_ofRoute h.accepted]
  have hflows : s.Flows route held good :=
    ⟨h.aligned hbuffer, h.device_eq ▸ hgood, h.skip_eq, by simp [hpassed]⟩
  have hremaining : s.remaining route contents held = heldBytes contents held route := by
    have hdrained : s.buffer.size ≤ s.taken := by simp [h.buffer_eq]
    rw [remaining_of_drained hdrained, hpassed, List.drop_zero, heldBytes]
  have hsize := size_heldBytes_le hserves h.accepted hgood
  rw [← (h.aligned hbuffer).length_eq, ← hremaining] at hsize
  rw [← hremaining]
  exact hflows.drain_eq hserves hpos (hsize.trans_lt hlong)

end TitleStream

end OpticalDisc
