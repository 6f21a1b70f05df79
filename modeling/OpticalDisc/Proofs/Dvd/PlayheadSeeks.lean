import OpticalDisc.Proofs.Dvd.PlayheadAlike
import OpticalDisc.Proofs.Dvd.PlayheadWords

/-!
# Where a seek leads

A seek puts a playhead on the sector that holds the target, in the only segment that holds it,
wherever the playhead comes from. What it has done before is forgotten: only a finished playhead
keeps the segment that it was last in, and that can be seen neither in its answers nor in its state.
-/

namespace OpticalDisc

def Segment.Holds (segment : Segment) (position : Nat) : Prop :=
  segment.byteOffset ≤ position ∧ position < segment.byteOffset + segment.byteLength

/-- The sector in which a byte of the linear stream lies, if the segment holds it. -/
def Segment.sectorAt (segment : Segment) (position : Nat) : Nat :=
  segment.firstSector + (position - segment.byteOffset) / sectorSize

theorem Segment.first_le_sectorAt (segment : Segment) (position : Nat) :
    segment.firstSector ≤ segment.sectorAt position :=
  Nat.le_add_right _ _

theorem Segment.holds_iff_sectorAt_lt {segment : Segment} {position : Nat}
    (hle : segment.byteOffset ≤ position) (hplayable : segment.Playable) :
    segment.Holds position ↔ segment.sectorAt position < segment.endSector := by
  have hfirst := hplayable.first_lt
  have hinside : (position - segment.byteOffset) / sectorSize <
      segment.endSector - segment.firstSector ↔
      position - segment.byteOffset < segment.byteLength :=
    Nat.div_lt_iff_lt_mul (by decide)
  unfold Holds sectorAt
  omega

namespace Route

variable {route : Route}

theorem Accepted.end_le_byteOffset (hr : route.Accepted) {i j : Nat} {segment later : Segment}
    (hlt : i < j) (h : route.segments[i]? = some segment)
    (hlater : route.segments[j]? = some later) :
    segment.byteOffset + segment.byteLength ≤ later.byteOffset := by
  have hmono := Playhead.length_plannedSectors_take_mono route.segments (Nat.succ_le_of_lt hlt)
  rw [Playhead.length_plannedSectors_take_succ h] at hmono
  rw [hr.segments_inOrder.offset h, hr.segments_inOrder.offset hlater, Segment.byteLength,
    Nat.zero_add, Nat.zero_add, ← sectorOffset_add]
  exact Nat.mul_le_mul_right _ hmono

theorem Accepted.sectorStart_eq (hr : route.Accepted) {i position : Nat} {segment : Segment}
    (h : route.segments[i]? = some segment) (hle : segment.byteOffset ≤ position) :
    segment.byteOffset + sectorOffset ((position - segment.byteOffset) / sectorSize) =
      position - position % sectorSize := by
  have hoffset := hr.segments_inOrder.offset h
  simp only [Nat.zero_add, sectorOffset, sectorSize] at hoffset ⊢
  omega

theorem Accepted.index_eq_of_holds (hr : route.Accepted) {i j position : Nat}
    {segment other : Segment} (h : route.segments[i]? = some segment)
    (hother : route.segments[j]? = some other) (hholds : segment.Holds position)
    (hotherHolds : other.Holds position) : i = j := by
  obtain ⟨hstart, hstop⟩ := hholds
  obtain ⟨hotherStart, hotherStop⟩ := hotherHolds
  rcases Nat.lt_trichotomy i j with hlt | heq | hgt
  · have hend := hr.end_le_byteOffset hlt h hother
    omega
  · exact heq
  · have hend := hr.end_le_byteOffset hgt hother h
    omega

end Route

namespace Playhead

variable {σ : Type} {p q : Playhead σ} {route : Route}

/-- Before the end of the stream, a seek enters the segment that holds the target at its sector, and
reaches the start of that sector. -/
theorem Follows.seek_of_lt (hr : route.Accepted) (hp : p.Follows route) {position : Nat}
    (hlt : position < p.length) :
    ∃ i segment, p.segments[i]? = some segment ∧ segment.Holds position ∧
      p.seek position =
        (position - position % sectorSize, p.enter i segment (segment.sectorAt position)) := by
  rcases hp.seek_cases hr position with ⟨hle, -⟩ | ⟨-, i, segment, -, hsegment, hstart, hin, heq⟩
  · exact absurd hlt (Nat.not_lt.2 hle)
  · have hplanned := hp.segments_eq ▸ hsegment
    have hholds := (Segment.holds_iff_sectorAt_lt hstart (segment_playable hr hplanned)).2 hin
    refine ⟨i, segment, hsegment, hholds, ?_⟩
    rw [heq, hr.sectorStart_eq hplanned hstart]
    rfl

theorem seek_of_le {position : Nat} (hle : p.length ≤ position) :
    p.seek position = (p.length, { p with state := .finished }) :=
  if_pos hle

inductive MoveAnswer
  | bytes (data : ByteArray)
  | reached (position : Nat)
  | failed (error : Error)

section Observe

variable [SectorDevice σ]

def Move.answer (p : Playhead σ) : Move → MoveAnswer
  | .read size =>
    match p.read size with
    | .ok data _ => .bytes data
    | .error e _ => .failed e
  | .seek position => .reached (p.seek position).1

theorem answer_read_of_ok {size : Nat} {data : ByteArray} {p' : Playhead σ}
    (h : read size p = .ok data p') :
    (Move.read size).answer p = .bytes data ∧ (Move.read size).apply p = p' := by
  simp only [Move.answer, Move.apply, h, and_self]

theorem answer_read_of_error {size : Nat} {e : Error} {p' : Playhead σ}
    (h : read size p = .error e p') :
    (Move.read size).answer p = .failed e ∧ (Move.read size).apply p = p' := by
  simp only [Move.answer, Move.apply, h, and_self]

/-- The answers to moves in order, each with the state and the position after it. -/
def observe (p : Playhead σ) : List Move → List (MoveAnswer × State × Nat)
  | [] => []
  | move :: rest =>
    (move.answer p, (move.apply p).state, (move.apply p).position) :: observe (move.apply p) rest

end Observe

/-- On one route, seeks to the same position lead to the same sector. -/
theorem Follows.seek_agrees (hr : route.Accepted) (hp : p.Follows route) (hq : q.Follows route)
    (position : Nat) :
    (p.seek position).1 = (q.seek position).1 ∧
      (p.seek position).2.state = (q.seek position).2.state ∧
      (p.seek position).2.sectorsPassed = (q.seek position).2.sectorsPassed := by
  have hlength : p.length = q.length := by rw [hp.length_eq, hq.length_eq]
  have hagree : (p.seek position).1 = (q.seek position).1 ∧
      (p.seek position).2.state = (q.seek position).2.state := by
    by_cases hlt : position < p.length
    · obtain ⟨i, segment, hsegment, hholds, hseek⟩ := hp.seek_of_lt hr hlt
      obtain ⟨j, other, hother, hotherHolds, hotherSeek⟩ := hq.seek_of_lt hr (hlength ▸ hlt)
      rw [hp.segments_eq] at hsegment
      rw [hq.segments_eq] at hother
      -- only one segment holds the target
      obtain rfl := hr.index_eq_of_holds hsegment hother hholds hotherHolds
      obtain rfl := Option.some.inj (hsegment.symm.trans hother)
      rw [hseek, hotherSeek]
      exact ⟨rfl, rfl⟩
    · have hle := Nat.not_lt.1 hlt
      rw [seek_of_le hle, seek_of_le (hlength ▸ hle)]
      exact ⟨hlength, rfl⟩
  refine ⟨hagree.1, hagree.2, ?_⟩
  apply sectorOffset_injective
  rw [← (hp.seek hr position).position_eq hr, ← (hq.seek hr position).position_eq hr,
    hp.position_seek hr, hq.position_seek hr, hagree.1]

/-- Playheads that cannot be told apart, not even by their states. -/
structure Matches (p q : Playhead σ) (route : Route) : Prop extends Alike p q route where
  state_eq : p.state = q.state

namespace Matches

theorem refl (hp : p.Follows route) : p.Matches p route :=
  ⟨.refl hp, rfl⟩

theorem position_eq (hr : route.Accepted) (h : p.Matches q route) : p.position = q.position := by
  rw [h.left.position_eq hr, h.right.position_eq hr, h.passed_eq]

variable [SectorDevice σ]

theorem read (hr : route.Accepted) (h : p.Matches q route) (size : Nat) :
    (Move.read size).answer p = (Move.read size).answer q ∧
      ((Move.read size).apply p).Matches ((Move.read size).apply q) route := by
  by_cases hsize : size < sectorSize
  · obtain ⟨hanswer, hsame⟩ := answer_read_of_error (read_of_lt (p := p) hsize)
    obtain ⟨hanswer', hsame'⟩ := answer_read_of_error (read_of_lt (p := q) hsize)
    rw [hanswer, hanswer', hsame, hsame']
    exact ⟨rfl, h⟩
  · have hle := Nat.not_lt.1 hsize
    rcases h.settle_cases hr with ⟨hp, hq⟩ | ⟨⟨sector, hstate⟩, heq⟩
    · obtain ⟨hanswer, hnext⟩ := answer_read_of_ok (read_of_finished hle hp)
      obtain ⟨hanswer', hnext'⟩ := answer_read_of_ok (read_of_finished hle hq)
      rw [hanswer, hanswer', hnext, hnext']
      exact ⟨rfl, h.toAlike.settle hr, hp.trans hq.symm⟩
    · have hread : Playhead.read size q = Playhead.read size p := by
        rw [read_of_reading hle hstate, read_of_reading hle (heq ▸ hstate), heq]
      have hnext : (Move.read size).apply q = (Move.read size).apply p := by
        simp only [Move.apply, hread]
      rw [hnext]
      exact ⟨by simp only [Move.answer, hread], .refl (h.left.apply hr _)⟩

theorem perform (hr : route.Accepted) (h : p.Matches q route) (move : Move) :
    move.answer p = move.answer q ∧ (move.apply p).Matches (move.apply q) route := by
  cases move with
  | read size => exact h.read hr size
  | seek position =>
    obtain ⟨hreached, hstate, -⟩ := h.left.seek_agrees hr h.right position
    exact ⟨congrArg MoveAnswer.reached hreached, (h.toAlike.seek hr position).2, hstate⟩

theorem observe (hr : route.Accepted) (h : p.Matches q route) (moves : List Move) :
    p.observe moves = q.observe moves := by
  induction moves generalizing p q with
  | nil => rfl
  | cons move rest ih =>
    obtain ⟨hanswer, hnext⟩ := h.perform hr move
    simp only [Playhead.observe, hanswer, hnext.state_eq, hnext.position_eq hr, ih hnext]

end Matches

theorem Follows.matches_seek (hr : route.Accepted) (hp : p.Follows route) (hq : q.Follows route)
    (position : Nat) (device : σ) :
    Matches { (p.seek position).2 with device } { (q.seek position).2 with device } route := by
  obtain ⟨-, hstate, hpassed⟩ := hp.seek_agrees hr hq position
  have hleft := (hp.seek hr position).withDevice device
  have hright := (hq.seek hr position).withDevice device
  exact ⟨⟨hleft, hright, rfl, hpassed⟩, hstate⟩

/-- Whatever a playhead has done before, a seek from the end of the stream on finishes it, and one
before the end puts it on the sector that holds the target, in the only segment that does. Playheads
on one route that have been sought to the same position are then seen to do the same, as long as
their devices are in the same state. -/
theorem seek_from_anywhere [SectorDevice σ] {chainNumber : UInt16} {chain : ProgramChain}
    {program angle : Nat} (h : Route.ofChain chainNumber chain program angle = .ok route)
    (device otherDevice : σ) (moves otherMoves : List Move) (position : Nat) :
    let p := (ofRoute device route).after moves
    let q := (ofRoute otherDevice route).after otherMoves
    let sought := (p.seek position).2
    (p.length ≤ position →
      (p.seek position).1 = p.length ∧ sought.state = .finished ∧ sought.position = p.length) ∧
    (position < p.length →
      (p.seek position).1 = position - position % sectorSize ∧
      sought.position = position - position % sectorSize ∧
      ∃ i segment, route.segments[i]? = some segment ∧ segment.Holds position ∧
        (∀ j other, route.segments[j]? = some other → other.Holds position → j = i) ∧
        sought.place = ⟨i, segment.cell, segment.sectorAt position, segment.firstSector,
          segment.endSector, angle⟩ ∧
        sought.state = .reading (segment.sectorAt position) ∧
        segment.firstSector ≤ segment.sectorAt position ∧
        segment.sectorAt position < segment.endSector) ∧
    ∀ (next : σ) (later : List Move),
      observe { sought with device := next } later =
        observe { (q.seek position).2 with device := next } later := by
  intro p q sought
  obtain ⟨hr, -, hangle⟩ := Route.accepted_of_ofChain h
  have hp : p.Follows route := (follows_ofRoute hr device).after hr moves
  have hq : q.Follows route := (follows_ofRoute hr otherDevice).after hr otherMoves
  refine ⟨?_, ?_, ?_⟩
  · intro hle
    simp only [sought, seek_of_le hle, true_and]
    rfl
  · intro hlt
    obtain ⟨i, segment, hsegment, hholds, heq⟩ := hp.seek_of_lt hr hlt
    rw [hp.segments_eq] at hsegment
    have hin := (Segment.holds_iff_sectorAt_lt hholds.1 (segment_playable hr hsegment)).1 hholds
    have hreached : (p.seek position).1 = position - position % sectorSize := by rw [heq]
    refine ⟨hreached, (hp.position_seek hr position).trans hreached, i, segment, hsegment, hholds,
      ?_, ?_, ?_, segment.first_le_sectorAt position, hin⟩
    · intro j other hother hotherHolds
      exact hr.index_eq_of_holds hother hsegment hotherHolds hholds
    · simp only [sought, heq, ← hangle, ← hp.angle_eq]
      rfl
    · simp only [sought, heq]
      exact if_pos hin
  · intro next later
    exact (hp.matches_seek hr hq position next).observe hr later

/-- To the second cell that plays, from past the end and from inside the first one. -/
theorem seek_from_anywhere_twoAngles :
    let route : Route := ⟨1, twoAngles, [⟨1, 2⟩], 1, 0⟩
    let video := StoredSectors.mk (MemoryStore.mk (.mk (Array.replicate 4096 7)) 0)
    let p := (ofRoute video route).after [.read 4096, .seek 9000]
    let q := (ofRoute video route).after [.seek 100]
    Route.ofChain 1 twoAngles 1 1 = .ok route ∧ 5000 < p.length ∧ (p.seek 5000).1 = 4096 ∧
      observe { (p.seek 5000).2 with device := video } [.read 2048, .seek 0] =
        observe { (q.seek 5000).2 with device := video } [.read 2048, .seek 0] := by
  intro route video p q
  have h : Route.ofChain 1 twoAngles 1 1 = .ok route := rfl
  have hlength : p.length = lengthOf route.segments :=
    ((follows_ofRoute (Route.accepted_of_ofChain h).1 video).after
      (Route.accepted_of_ofChain h).1 _).length_eq
  have hlt : 5000 < p.length := by
    rw [hlength]
    decide +kernel
  obtain ⟨-, hbefore, hsame⟩ :=
    seek_from_anywhere h video video [.read 4096, .seek 9000] [.seek 100] 5000
  exact ⟨h, hlt, (hbefore hlt).1, hsame video _⟩

end Playhead

end OpticalDisc
