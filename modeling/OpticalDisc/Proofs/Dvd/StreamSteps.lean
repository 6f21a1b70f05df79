import OpticalDisc.Dvd.TitleStream
import OpticalDisc.Proofs.Dvd.PlayheadMoves
import OpticalDisc.Proofs.Storage.Requests

/-!
# Steps of a title stream

A stream keeps its position, the rest of its buffer, the bytes still to skip and its playhead in
step: `TitleStream.Aligned`. A read is one of three things: it delivers from the buffer, it fails, or
it refills the buffer, with nothing at the end, and delivers from that. A seek only moves the playhead
and leaves bytes to skip. All of them keep the stream aligned, so that any requests do.
-/

namespace OpticalDisc

namespace Playhead

variable {σ : Type} {p : Playhead σ} {route : Route}

theorem position_lt_length_iff (hr : route.Accepted) (hp : p.Follows route) :
    p.position < p.length ↔ p.sectorsPassed < (plannedSectors p.segments).length := by
  rw [hp.position_eq hr, hp.length_eq_sectors hr]
  exact Nat.mul_lt_mul_right (by decide)

theorem Follows.read_error_position [SectorDevice σ] (hr : route.Accepted) (hp : p.Follows route)
    {size : Nat} (hsize : sectorSize ≤ size) {e : Error} {p' : Playhead σ}
    (h : read size p = .error e p') :
    p'.Follows route ∧ p'.position = p.position ∧ p.position < p.length := by
  obtain ⟨device, rfl⟩ := hp.read_error hr hsize h
  refine ⟨(hp.settle hr).withDevice device, ?_, ?_⟩
  · calc
      Playhead.position { p.settle with device } = p.settle.position := rfl
      _ = sectorOffset p.settle.sectorsPassed := (hp.settle hr).position_eq hr
      _ = p.position := by rw [hp.sectorsPassed_settle hr, hp.position_eq hr]
  · rcases hp.settle_state hr with hstate | ⟨sector, hstate⟩
    · simp [read_of_finished hsize hstate] at h
    · have hlt := (hp.settle hr).sectorsPassed_lt hstate
      rw [hp.sectorsPassed_settle hr, ← hp.segments_eq] at hlt
      exact (position_lt_length_iff hr hp).2 hlt

theorem Follows.read_ok_position [SectorDevice σ] (hr : route.Accepted) (hp : p.Follows route)
    {size : Nat} (hroom : 0 < size / sectorSize % UInt32.size) {data : ByteArray}
    {p' : Playhead σ} (h : read size p = .ok data p') :
    p'.Follows route ∧ p'.position = p.position + data.size ∧
      (p.position < p.length → sectorSize ≤ data.size) ∧
      (p.length ≤ p.position → data = .empty) := by
  obtain ⟨hp', count, hsize, hpassed, hcount⟩ := hp.read_ok hr hroom h
  rw [← position_lt_length_iff hr hp] at hcount
  refine ⟨hp', ?_, ?_, ?_⟩
  · rw [hp'.position_eq hr, hpassed, sectorOffset_add, hsize, hp.position_eq hr]
  · intro hlt
    rw [hsize]
    exact Nat.le_mul_of_pos_left _ (hcount.2 hlt)
  · intro hle
    have hnone : count = 0 := by omega
    rw [hnone, sectorOffset, Nat.zero_mul] at hsize
    exact ByteArray.size_eq_zero_iff.1 hsize

end Playhead

namespace TitleStream

variable {σ : Type} {s s' : TitleStream σ} {route : Route}

def nextCount (s : TitleStream σ) (n : Nat) : Nat :=
  min n (s.buffer.size - s.taken)

theorem nextCount_le (s : TitleStream σ) (n : Nat) : s.nextCount n ≤ n :=
  Nat.min_le_left ..

def delivered (s : TitleStream σ) (count : Nat) : TitleStream σ :=
  { s with taken := s.taken + count, position := s.position + count }

def deliver (n : Nat) (s : TitleStream σ) : EStateM.Result IoError (TitleStream σ) (Chunk n) :=
  .ok ((Chunk.slice s.buffer s.taken (s.nextCount n)).widen (s.nextCount_le n))
    (s.delivered (s.nextCount n))

theorem nextCount_of_drained {n : Nat} (h : s.buffer.size ≤ s.taken) : s.nextCount n = 0 := by
  simp [nextCount, Nat.sub_eq_zero_of_le h]

theorem nextCount_pos {n : Nat} (hn : n ≠ 0) (h : s.taken < s.buffer.size) : 0 < s.nextCount n := by
  unfold nextCount
  omega

theorem size_next (s : TitleStream σ) (n : Nat) :
    (s.buffer.extract s.taken (s.taken + s.nextCount n)).size = s.nextCount n := by
  simp only [ByteArray.size_extract, nextCount]
  omega

theorem deliver_none_iff (s : TitleStream σ) (n : Nat) :
    (∃ chunk s', deliver n s = .ok chunk s' ∧ chunk.1.size = 0) ↔ s.nextCount n = 0 := by
  constructor
  · rintro ⟨chunk, s', hdeliver, hsize⟩
    simp only [deliver, EStateM.Result.ok.injEq] at hdeliver
    rw [← hdeliver.1] at hsize
    exact (size_next s n).symm.trans hsize
  · intro hnone
    exact ⟨_, _, rfl, (size_next s n).trans hnone⟩

/-- The stream with a new buffer, without the bytes to skip at its start. -/
def refilled (s : TitleStream σ) (playhead : Playhead σ) (buffer : ByteArray) : TitleStream σ :=
  { s with playhead, buffer, taken := min s.skip buffer.size, skip := 0 }

section Read

variable [SectorDevice σ] {n : Nat}

theorem read_zero : read 0 s = .ok (Chunk.empty 0) s :=
  rfl

theorem read_of_buffered (hn : n ≠ 0) (h : s.taken < s.buffer.size) :
    read n s = deliver n s := by
  simp only [read, if_neg hn]
  rw [refill, if_pos h]
  rfl

theorem read_of_failed (hn : n ≠ 0) (h : s.buffer.size ≤ s.taken) {e : Error}
    {playhead : Playhead σ} (hread : s.playhead.read s.capacity = .error e playhead) :
    read n s = .error e.toIo { s with playhead } := by
  simp only [read, if_neg hn]
  rw [refill, if_neg (Nat.not_lt.2 h), hread]

theorem read_of_refilled (hn : n ≠ 0) (h : s.buffer.size ≤ s.taken) {buffer : ByteArray}
    {playhead : Playhead σ} (hread : s.playhead.read s.capacity = .ok buffer playhead)
    (hskip : buffer.size ≠ 0 → s.skip < buffer.size) :
    read n s = deliver n (s.refilled playhead buffer) := by
  have hrefill : refill s = .ok () (s.refilled playhead buffer) := by
    rw [refill, if_neg (Nat.not_lt.2 h), hread]
    by_cases hempty : buffer.size = 0
    · exact if_pos hempty
    · have htaken : min s.skip buffer.size < buffer.size := by
        have := hskip hempty
        omega
      simp only [if_pos htaken, ite_self]
      rfl
  simp only [read, if_neg hn, hrefill]
  rfl

end Read

/-- What holds of a stream between any two requests. With bytes left in the buffer, they are those
in front of the playhead; else the playhead is at the sector of the position, or both have come to
the end. -/
structure Aligned (s : TitleStream σ) (route : Route) : Prop where
  accepted : route.Accepted
  follows : s.playhead.Follows route
  room : 0 < s.capacity / sectorSize % UInt32.size
  buffered : s.taken < s.buffer.size →
    s.skip = 0 ∧ s.position + (s.buffer.size - s.taken) = s.playhead.position
  beforeEnd : s.buffer.size ≤ s.taken → s.playhead.position < s.length →
    s.position = s.playhead.position + s.skip ∧ s.skip < sectorSize
  atEnd : s.buffer.size ≤ s.taken → s.length ≤ s.playhead.position → s.length ≤ s.position

namespace Aligned

theorem sectorSize_le (h : s.Aligned route) : sectorSize ≤ s.capacity := by
  by_contra hlt
  have hroom := h.room
  rw [Nat.div_eq_of_lt (Nat.not_le.1 hlt)] at hroom
  simp at hroom

theorem position_lt_of_buffered (h : s.Aligned route) (hleft : s.taken < s.buffer.size) :
    s.position < s.length := by
  have hpos := (h.buffered hleft).2
  have hle : s.playhead.position ≤ s.length := h.follows.position_le_length h.accepted
  omega

/-- With all of the buffer delivered, the position and the playhead are before the end together. -/
theorem position_lt_iff (h : s.Aligned route) (hdrained : s.buffer.size ≤ s.taken) :
    s.position < s.length ↔ s.playhead.position < s.length := by
  constructor
  · intro hlt
    by_contra hend
    have := h.atEnd hdrained (Nat.not_lt.1 hend)
    omega
  · intro hlt
    obtain ⟨hpos, hskip⟩ := h.beforeEnd hdrained hlt
    -- both are whole sectors, and less than one sector is skipped
    have hlength : s.length = sectorOffset (plannedSectors s.playhead.segments).length :=
      h.follows.length_eq_sectors h.accepted
    have hplayhead := h.follows.position_eq h.accepted
    simp only [sectorOffset] at hlength hplayhead
    rw [hlength, hplayhead] at hlt
    have hsectors := Nat.lt_of_mul_lt_mul_right hlt
    have hnext := Nat.mul_le_mul_right sectorSize hsectors
    rw [Nat.succ_mul] at hnext
    omega

theorem delivered (h : s.Aligned route) (n : Nat) :
    (s.delivered (s.nextCount n)).Aligned route := by
  by_cases hleft : s.taken < s.buffer.size
  · obtain ⟨hskip, hpos⟩ := h.buffered hleft
    have hcount : s.nextCount n ≤ s.buffer.size - s.taken := Nat.min_le_right _ _
    refine ⟨h.accepted, h.follows, h.room, ?_, ?_, ?_⟩
    · intro _
      refine ⟨hskip, ?_⟩
      simp only [TitleStream.delivered]
      omega
    · intro hdrained _
      have hsector : 0 < sectorSize := by decide
      simp only [TitleStream.delivered] at hdrained ⊢
      omega
    · intro hdrained hend
      simp only [TitleStream.delivered, length] at hdrained hend ⊢
      omega
  · -- an empty buffer delivers nothing
    rw [nextCount_of_drained (Nat.not_lt.1 hleft)]
    exact h

/-- A failed refill leaves the stream aligned, whatever it has left in the buffer, as long as none
of that counts as read. -/
theorem failed [SectorDevice σ] (h : s.Aligned route) (hdrained : s.buffer.size ≤ s.taken)
    {e : Error} {playhead : Playhead σ} (hread : s.playhead.read s.capacity = .error e playhead)
    {left : ByteArray} (hleft : left.size ≤ s.taken) :
    ({ s with playhead, buffer := left } : TitleStream σ).Aligned route := by
  obtain ⟨hp, hpos, -⟩ := h.follows.read_error_position h.accepted h.sectorSize_le hread
  have hlength : playhead.length = s.playhead.length := by
    rw [hp.length_eq, h.follows.length_eq]
  refine ⟨h.accepted, hp, h.room, ?_, ?_, ?_⟩
  · intro hlt
    simp only at hlt
    omega
  · intro _ hlt
    simp only [length, hpos, hlength] at hlt ⊢
    exact h.beforeEnd hdrained hlt
  · intro _ hend
    simp only [length, hpos, hlength] at hend ⊢
    exact h.atEnd hdrained hend

/-- A refill brings nothing at the end of the stream, and before the end more than it skips. -/
theorem refilled [SectorDevice σ] (h : s.Aligned route) (hdrained : s.buffer.size ≤ s.taken)
    {buffer : ByteArray} {playhead : Playhead σ}
    (hread : s.playhead.read s.capacity = .ok buffer playhead) :
    (s.refilled playhead buffer).Aligned route ∧ (buffer.size = 0 ↔ s.length ≤ s.position) ∧
      (buffer.size ≠ 0 → s.skip < buffer.size) := by
  obtain ⟨hp, hpos, hsome, hnone⟩ := h.follows.read_ok_position h.accepted h.room hread
  have hlength : playhead.length = s.playhead.length := by
    rw [hp.length_eq, h.follows.length_eq]
  have hiff := h.position_lt_iff hdrained
  by_cases hlt : s.playhead.position < s.length
  · obtain ⟨hposition, hskip⟩ := h.beforeEnd hdrained hlt
    have hsize := hsome hlt
    have hsector : 0 < sectorSize := by decide
    refine ⟨⟨h.accepted, hp, h.room, ?_, ?_, ?_⟩, ?_, ?_⟩
    · intro _
      refine ⟨rfl, ?_⟩
      simp only [TitleStream.refilled, hpos]
      omega
    · simp only [TitleStream.refilled]
      omega
    · simp only [TitleStream.refilled]
      omega
    · omega
    · omega
  · obtain rfl := hnone (Nat.not_lt.1 hlt)
    have hend : s.length ≤ s.position := Nat.not_lt.1 (hlt ∘ hiff.1)
    rw [ByteArray.size_empty, Nat.add_zero] at hpos
    refine ⟨⟨h.accepted, hp, h.room, ?_, ?_, ?_⟩, ?_, ?_⟩
    · simp [TitleStream.refilled]
    · intro _ hbefore
      simp only [TitleStream.refilled, length, hpos, hlength] at hbefore
      exact absurd hbefore hlt
    · intro _ _
      simp only [TitleStream.refilled, length, hlength]
      exact hend
    · simpa using hend
    · simp

/-- What a read of at least one byte does: it delivers from the buffer, it fails, or it refills the
buffer and delivers from that. -/
theorem read_cases [SectorDevice σ] (h : s.Aligned route) {n : Nat} (hn : n ≠ 0) :
    (s.taken < s.buffer.size ∧ read n s = deliver n s) ∨
      (s.buffer.size ≤ s.taken ∧ ∃ e playhead,
        s.playhead.read s.capacity = .error e playhead ∧
        read n s = .error e.toIo { s with playhead }) ∨
      (s.buffer.size ≤ s.taken ∧ ∃ buffer playhead,
        s.playhead.read s.capacity = .ok buffer playhead ∧
        read n s = deliver n (s.refilled playhead buffer)) := by
  by_cases hleft : s.taken < s.buffer.size
  · exact .inl ⟨hleft, read_of_buffered hn hleft⟩
  · have hdrained := Nat.not_lt.1 hleft
    cases hread : s.playhead.read s.capacity with
    | error e playhead =>
      exact .inr (.inl ⟨hdrained, e, playhead, rfl, read_of_failed hn hdrained hread⟩)
    | ok buffer playhead =>
      have hskip := (h.refilled hdrained hread).2.2
      exact .inr (.inr ⟨hdrained, buffer, playhead, rfl, read_of_refilled hn hdrained hread hskip⟩)

end Aligned

def sought (s : TitleStream σ) (position : Nat) : TitleStream σ :=
  let (reached, playhead) := s.playhead.seek position
  { s with playhead, position, buffer := .empty, taken := 0, skip := position - reached }

theorem seek_of_some {target : SeekTarget} {position : Nat}
    (h : target.resolve? s.position s.length = some position) :
    seek target s = .ok position (s.sought position) := by
  simp only [seek, h]
  rfl

theorem seek_of_none {target : SeekTarget} (h : target.resolve? s.position s.length = none) :
    seek target s = .error (.reported .invalidInput "seek before start of title") s := by
  simp only [seek, h]

namespace Aligned

theorem length_eq (h : s.Aligned route) : s.length = Playhead.lengthOf route.segments :=
  h.follows.length_eq

theorem sought (h : s.Aligned route) (position : Nat) : (s.sought position).Aligned route := by
  have hp := h.follows.seek h.accepted position
  have hreached := h.follows.position_seek h.accepted position
  have hlength := h.follows.length_seek h.accepted position
  have hbounds := h.follows.seek_bounds h.accepted position
  refine ⟨h.accepted, hp, h.room, ?_, ?_, ?_⟩
  · simp [TitleStream.sought]
  · intro _ hlt
    simp only [TitleStream.sought, length, hreached, hlength] at hlt ⊢
    split at hbounds
    · omega
    · omega
  · intro _ hend
    simp only [TitleStream.sought, length, hreached, hlength] at hend ⊢
    split at hbounds
    · omega
    · omega

theorem perform_of_delivered [SectorDevice σ] {t : TitleStream σ} {n : Nat}
    (h : read n s = deliver n t) :
    (ByteRequest.read n).perform s =
      (.bytes (t.buffer.extract t.taken (t.taken + t.nextCount n)), t.delivered (t.nextCount n)) := by
  have hread : SeekableBytes.read n s = deliver n t := h
  exact perform_read_of_ok hread

theorem perform [SectorDevice σ] (h : s.Aligned route) (request : ByteRequest) :
    (request.perform s).2.Aligned route := by
  cases request with
  | read n =>
    by_cases hn : n = 0
    · subst hn
      exact h
    · rcases h.read_cases hn with ⟨-, hread⟩ | ⟨hdrained, e, playhead, hfail, hread⟩ |
        ⟨hdrained, buffer, playhead, hrefill, hread⟩
      · rw [perform_of_delivered hread]
        exact h.delivered n
      · rw [perform_read_of_error hread]
        exact h.failed hdrained hfail hdrained
      · rw [perform_of_delivered hread]
        exact (h.refilled hdrained hrefill).1.delivered n
  | seek target =>
    cases hplace : target.resolve? s.position s.length with
    | none =>
      rw [perform_seek_of_error (seek_of_none hplace)]
      exact h
    | some position =>
      rw [perform_seek_of_ok (seek_of_some hplace)]
      exact h.sought position

theorem performAll [SectorDevice σ] (h : s.Aligned route) (requests : List ByteRequest) :
    (OpticalDisc.performAll s requests).2.Aligned route := by
  apply performAll_keeps (Aligned · route)
  · intro _ request hs
    exact Aligned.perform hs request
  · exact h

end Aligned

end TitleStream

end OpticalDisc
