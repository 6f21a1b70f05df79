import OpticalDisc.Proofs.Dvd.PlayheadContents
import OpticalDisc.Proofs.Dvd.StreamOpening
import OpticalDisc.Proofs.Storage.SectorReads

/-!
# Title streams as flat files

On a device that holds every planned sector, a title stream cannot be told from a plain file that
consists of the planned sectors in order, however it is read and sought and however few sectors the
device gives at a time.
-/

namespace OpticalDisc

namespace TitleStream

variable {δ σ : Type} {s t : TitleStream σ} {route : Route}
  {contents : Nat → ByteArray} {held : Nat → Prop} {good : σ → Prop}

def plannedBytes (contents : Nat → ByteArray) (route : Route) : ByteArray :=
  sectorBytes contents (plannedSectors route.segments)

/-- An aligned stream on a device in a good state, whose buffer is a part of the planned bytes that
its position lies in. -/
structure Shows (s : TitleStream σ) (route : Route) (contents : Nat → ByteArray)
    (good : σ → Prop) : Prop where
  aligned : s.Aligned route
  good_device : good s.playhead.device
  shows : s.taken < s.buffer.size → ∃ start, start + s.taken = s.position ∧
    s.buffer = (plannedBytes contents route).extract start (start + s.buffer.size)

theorem Shows.delivered (h : s.Shows route contents good) (n : Nat) :
    (s.delivered (s.nextCount n)).Shows route contents good where
  aligned := h.aligned.delivered n
  good_device := h.good_device
  shows hleft := by
    simp only [TitleStream.delivered] at hleft ⊢
    obtain ⟨start, hstart, hbuffer⟩ := h.shows (by omega)
    exact ⟨start, by omega, hbuffer⟩

theorem Shows.extract_next (h : s.Shows route contents good) (hleft : s.taken < s.buffer.size)
    (n : Nat) :
    s.buffer.extract s.taken (s.taken + s.nextCount n) =
      (plannedBytes contents route).extract s.position (s.position + s.nextCount n) := by
  obtain ⟨start, hstart, hbuffer⟩ := h.shows hleft
  have hcount : s.nextCount n ≤ s.buffer.size - s.taken := Nat.min_le_right _ _
  have hstop : min (start + (s.taken + s.nextCount n)) (start + s.buffer.size) =
      s.position + s.nextCount n := by omega
  conv_lhs => rw [hbuffer]
  rw [ByteArray.extract_extract, hstop, hstart]

theorem Shows.sought (h : s.Shows route contents good) (position : Nat) :
    (s.sought position).Shows route contents good where
  aligned := h.aligned.sought position
  good_device := by
    have hdevice := h.aligned.follows.device_seek h.aligned.accepted position
    exact hdevice ▸ h.good_device
  shows hleft := by simp [TitleStream.sought] at hleft

theorem Fresh.shows {selection : DvdSelection} {video : σ}
    (h : s.Fresh selection route video) (hbuffer : selection.bufferSectors < UInt32.size)
    (hgood : good s.playhead.device) : s.Shows route contents good where
  aligned := h.aligned hbuffer
  good_device := hgood
  shows hleft := by
    rw [h.buffer_eq, h.taken_eq] at hleft
    simp at hleft

variable [SectorDevice σ]

/-- What the refinement asks of a device: it serves fixed contents and holds every planned sector. -/
structure Supplies (route : Route) (contents : Nat → ByteArray) (held : Nat → Prop)
    (good : σ → Prop) : Prop where
  accepted : route.Accepted
  serves : SectorDevice.Serves contents held good
  holds {sector : Nat} : sector ∈ plannedSectors route.segments → held sector

namespace Supplies

theorem size_contents (h : Supplies route contents held good) {device : σ} (hgood : good device) :
    ∀ sector ∈ plannedSectors route.segments, (contents sector).size = sectorSize := by
  intro sector hsector
  exact h.serves.size_contents hgood (word_of_mem_plannedSectors h.accepted hsector)
    (h.holds hsector)

theorem size_plannedBytes (h : Supplies route contents held good) {device : σ}
    (hgood : good device) :
    (plannedBytes contents route).size = Playhead.lengthOf route.segments := by
  rw [plannedBytes, size_sectorBytes (h.size_contents hgood), Playhead.lengthOf_eq h.accepted]

end Supplies

namespace Shows

theorem length_eq (hs : Supplies route contents held good) (h : s.Shows route contents good) :
    s.length = (plannedBytes contents route).size := by
  rw [h.aligned.length_eq, hs.size_plannedBytes h.good_device]

/-- A refill succeeds and shows the planned bytes from the sector of the position on. -/
theorem refilled (hs : Supplies route contents held good) (h : s.Shows route contents good)
    (hdrained : s.buffer.size ≤ s.taken) :
    ∃ buffer playhead, s.playhead.read s.capacity = .ok buffer playhead ∧
      (s.refilled playhead buffer).Shows route contents good := by
  have hp := h.aligned.follows
  have hr := hs.accepted
  rcases hp.read_served hs.serves hr h.good_device h.aligned.room h.aligned.sectorSize_le with
    ⟨count, playhead, hread, hgood, -, hle, -⟩ | ⟨sector, -, -, -, hplanned, hmissing⟩
  · have huniform := hs.size_contents h.good_device
    have hplayhead := hp.position_eq hr
    have hwhole : sectorOffset (s.playhead.sectorsPassed + count) ≤
        (plannedBytes contents route).size := by
      rw [plannedBytes, size_sectorBytes huniform]
      exact Nat.mul_le_mul_right _ hle
    have hsize : ((plannedBytes contents route).extract s.playhead.position
        (sectorOffset (s.playhead.sectorsPassed + count))).size = sectorOffset count := by
      rw [ByteArray.size_extract, Nat.min_eq_left hwhole, sectorOffset_add, hplayhead]
      omega
    rw [← extract_sectorBytes huniform hle, ← hplayhead] at hread
    obtain ⟨haligned, hnone, -⟩ := h.aligned.refilled hdrained hread
    refine ⟨_, playhead, hread, haligned, hgood, ?_⟩
    intro hleft
    simp only [TitleStream.refilled, plannedBytes] at hleft hnone hsize ⊢
    have hbefore : s.playhead.position < s.length := by
      rw [← h.aligned.position_lt_iff hdrained]
      omega
    obtain ⟨hpos, -⟩ := h.aligned.beforeEnd hdrained hbefore
    refine ⟨s.playhead.position, by omega, ?_⟩
    rw [hsize, sectorOffset_add, hplayhead]
  · exact absurd (hs.holds (List.mem_of_getElem? hplanned)) hmissing

/-- A read delivers from the stream, refilled if all of its buffer has been delivered. The buffer
is still empty only at the end. -/
theorem read_delivers (hs : Supplies route contents held good) (h : s.Shows route contents good)
    {n : Nat} (hn : n ≠ 0) :
    ∃ t : TitleStream σ, t.Shows route contents good ∧ t.position = s.position ∧
      (t.buffer.size ≤ t.taken → s.length ≤ s.position) ∧ read n s = deliver n t := by
  by_cases hleft : s.taken < s.buffer.size
  · refine ⟨s, h, rfl, ?_, read_of_buffered hn hleft⟩
    intro hdrained
    exact absurd hleft (Nat.not_lt.2 hdrained)
  · have hdrained := Nat.not_lt.1 hleft
    obtain ⟨buffer, playhead, hread, ht⟩ := h.refilled hs hdrained
    obtain ⟨-, hnone, hskip⟩ := h.aligned.refilled hdrained hread
    refine ⟨_, ht, rfl, ?_, read_of_refilled hn hdrained hread hskip⟩
    simp only [TitleStream.refilled]
    omega

theorem position_add_le (hs : Supplies route contents held good) (h : s.Shows route contents good)
    (hleft : s.taken < s.buffer.size) (n : Nat) :
    s.position + s.nextCount n ≤ (plannedBytes contents route).size := by
  obtain ⟨-, hpos⟩ := h.aligned.buffered hleft
  have hcount : s.nextCount n ≤ s.buffer.size - s.taken := Nat.min_le_right _ _
  calc
    s.position + s.nextCount n ≤ s.playhead.position := by omega
    _ ≤ s.length := h.aligned.follows.position_le_length hs.accepted
    _ = (plannedBytes contents route).size := h.length_eq hs

theorem perform_read (hs : Supplies route contents held good) (h : s.Shows route contents good)
    (n : Nat) :
    FlatStep (plannedBytes contents route) s.position (.read n)
        ((ByteRequest.read n).perform s).1 ((ByteRequest.read n).perform s).2.position ∧
      ((ByteRequest.read n).perform s).2.Shows route contents good := by
  by_cases hn : n = 0
  · subst hn
    exact ⟨.noRoom, h⟩
  · obtain ⟨t, ht, hposition, hend, hread⟩ := h.read_delivers hs hn
    rw [Aligned.perform_of_delivered hread]
    refine ⟨?_, ht.delivered n⟩
    rw [← hposition]
    by_cases hleft : t.taken < t.buffer.size
    · rw [ht.extract_next hleft]
      exact .some (nextCount_pos hn hleft) (Nat.min_le_left _ _) (ht.position_add_le hs hleft n)
    · have hdrained := Nat.not_lt.1 hleft
      have hpast := hend hdrained
      rw [h.length_eq hs, ← hposition] at hpast
      rw [nextCount_of_drained hdrained, Nat.add_zero, ByteArray.extract_same]
      exact .atEnd hpast

theorem perform_seek (hs : Supplies route contents held good) (h : s.Shows route contents good)
    {target : SeekTarget} (hword : (ByteRequest.seek target).IsWord) :
    FlatStep (plannedBytes contents route) s.position (.seek target)
        ((ByteRequest.seek target).perform s).1 ((ByteRequest.seek target).perform s).2.position ∧
      ((ByteRequest.seek target).perform s).2.Shows route contents good := by
  have hlength := h.length_eq hs
  cases hplace : target.resolve? s.position s.length with
  | none =>
    rw [perform_seek_of_error (seek_of_none hplace)]
    rw [hlength] at hplace
    exact ⟨.of_resolve?_eq_none hword hplace _, h⟩
  | some position =>
    rw [perform_seek_of_ok (seek_of_some hplace)]
    rw [hlength] at hplace
    exact ⟨.of_resolve?_eq_some hword hplace, h.sought position⟩

theorem perform (hs : Supplies route contents held good) (h : s.Shows route contents good)
    {request : ByteRequest} (hword : request.IsWord) :
    FlatStep (plannedBytes contents route) s.position request (request.perform s).1
        (request.perform s).2.position ∧
      (request.perform s).2.Shows route contents good := by
  cases request with
  | read n => exact h.perform_read hs n
  | seek target => exact h.perform_seek hs hword

theorem performAll (hs : Supplies route contents held good) (h : s.Shows route contents good)
    {requests : List ByteRequest} (hwords : ∀ request ∈ requests, request.IsWord) :
    FlatRun (plannedBytes contents route) s.position requests
        (OpticalDisc.performAll s requests).1 (OpticalDisc.performAll s requests).2.position ∧
      (OpticalDisc.performAll s requests).2.Shows route contents good := by
  induction requests generalizing s with
  | nil => exact ⟨.nil, h⟩
  | cons request rest ih =>
    have hrest : ∀ later ∈ rest, later.IsWord := by
      intro later hlater
      exact hwords later (List.mem_cons_of_mem _ hlater)
    obtain ⟨hstep, hnext⟩ := h.perform hs (hwords request (List.mem_cons_self ..))
    obtain ⟨hrun, hlast⟩ := ih hnext hrest
    exact ⟨.cons hstep hrun, hlast⟩

end Shows

/-- Two sectors of video, the second of which plays again after both. -/
def repeatingDisc : TableDisc (StoredSectors MemoryStore) where
  manager := { titleSetCount := 1, titles := [{ titleSet := 1, titleInSet := 1 }] }
  titleSet :=
    { parts := [[⟨1, 1⟩]]
      chains := some #[{ programMap := [1], cells := [⟨0, 1, .none, {}⟩, ⟨1, 1, .none, {}⟩] }] }
  video := ⟨⟨.mk (Array.replicate 2048 7 ++ Array.replicate 2048 9), 0⟩⟩

end TitleStream

end OpticalDisc
