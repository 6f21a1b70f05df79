import OpticalDisc.Proofs.Dvd.PlayheadInvariant

/-!
# Reads and seeks of a playhead

What one read and one seek do to a playhead on an accepted route, whatever the device answers. A
failed read leaves the playhead settled where it stood. A read that succeeds moves it on by the
sectors that it returns, and returns none only at the end. A seek puts it on the sector that holds
the target. So the invariant holds after any moves.
-/

namespace OpticalDisc

namespace Playhead

variable {σ : Type} {p : Playhead σ} {route : Route}

def requestCount (p : Playhead σ) (size sector : Nat) : Nat :=
  min (size / sectorSize % UInt32.size) (p.place.endSector - sector)

def answered (p : Playhead σ) (sector count : Nat) :
    EStateM.Result Error σ (Sectors count) → EStateM.Result Error (Playhead σ) ByteArray
  | .error e device => .error e { p with device }
  | .ok blocks device =>
    if blocks.reported = 0 then .error (.nothingRead sector count) { p with device }
    else .ok blocks.data (moveTo { p with device } (sector + min blocks.reported count))

section Read

variable [SectorDevice σ] {size : Nat}

theorem read_of_finished (hsize : sectorSize ≤ size) (h : p.settle.state = .finished) :
    read size p = .ok .empty p.settle := by
  simp only [read, if_neg (Nat.not_lt.2 hsize), h]

theorem read_of_reading (hsize : sectorSize ≤ size) {sector : Nat}
    (h : p.settle.state = .reading sector) :
    read size p = p.settle.answered sector (p.settle.requestCount size sector)
      (SectorDevice.readSlice sector (p.settle.requestCount size sector)
        (p.settle.requestCount size sector * sectorSize) p.settle.device) := by
  simp only [read, if_neg (Nat.not_lt.2 hsize)]
  split
  · rename_i found hfound
    obtain rfl : found = sector := by simpa [hfound] using h
    rfl
  · rename_i hother
    exact absurd h (hother sector)

theorem read_of_lt (hsize : size < sectorSize) :
    read size p = .error (.bufferUnderflow sectorSize size) p := by
  simp only [read, if_pos hsize]

end Read

theorem answered_error {sector count : Nat}
    {answer : EStateM.Result Error σ (Sectors count)} {e : Error} {p' : Playhead σ}
    (h : p.answered sector count answer = .error e p') : ∃ device, p' = { p with device } := by
  unfold answered at h
  split at h
  · simp only [EStateM.Result.error.injEq] at h
    exact ⟨_, h.2.symm⟩
  · split at h
    · simp only [EStateM.Result.error.injEq] at h
      exact ⟨_, h.2.symm⟩
    · simp at h

theorem state_moveTo_ne_finished (p : Playhead σ) (sector : Nat) :
    (p.moveTo sector).state ≠ .finished := by
  simp only [moveTo]
  split <;> simp

namespace Follows

theorem answered_ok (hp : p.Follows route) {sector count : Nat}
    (hstate : p.state = .reading sector) (hcount : count ≤ p.place.endSector - sector)
    {answer : EStateM.Result Error σ (Sectors count)} {data : ByteArray} {p' : Playhead σ}
    (h : p.answered sector count answer = .ok data p') :
    p'.Follows route ∧ ∃ blocks device, answer = .ok blocks device ∧ 0 < blocks.reported ∧
      p'.device = device ∧ data = blocks.data ∧
      p'.sectorsPassed = p.sectorsPassed + min blocks.reported count := by
  obtain ⟨hsector, hlt⟩ := hp.reading hstate
  unfold answered at h
  split at h
  · simp at h
  · rename_i blocks device
    split at h
    · simp at h
    · rename_i hreported
      simp only [EStateM.Result.ok.injEq] at h
      obtain ⟨rfl, rfl⟩ := h
      have hmoved : (Playhead.moveTo { p with device }
          (sector + min blocks.reported count)).Follows route :=
        (hp.withDevice device).moveTo (by simp only; omega) (by simp only; omega)
      refine ⟨hmoved, blocks, device, rfl, Nat.pos_of_ne_zero hreported, rfl, rfl, ?_⟩
      have hfirst := hp.first_le
      rw [sectorsPassed_of_ne_finished (state_moveTo_ne_finished _ _),
        sectorsPassed_of_ne_finished (p := p) (by simp [hstate])]
      simp only [Playhead.moveTo]
      omega

variable [SectorDevice σ] {size : Nat}

theorem read_error (hr : route.Accepted) (hp : p.Follows route) (hsize : sectorSize ≤ size)
    {e : Error} {p' : Playhead σ} (h : read size p = .error e p') :
    ∃ device, p' = { p.settle with device } := by
  rcases hp.settle_state hr with hstate | ⟨sector, hstate⟩
  · simp [read_of_finished hsize hstate] at h
  · rw [read_of_reading hsize hstate] at h
    exact answered_error h

/-- A read that succeeds moves the playhead on by the sectors that it returns. It returns some
unless the playhead is at the end of the stream. -/
theorem read_ok (hr : route.Accepted) (hp : p.Follows route)
    (hroom : 0 < size / sectorSize % UInt32.size) {data : ByteArray} {p' : Playhead σ}
    (h : read size p = .ok data p') :
    p'.Follows route ∧ ∃ count, data.size = sectorOffset count ∧
      p'.sectorsPassed = p.sectorsPassed + count ∧
      (0 < count ↔ p.sectorsPassed < (plannedSectors p.segments).length) := by
  have hsize : sectorSize ≤ size := by
    by_contra hlt
    rw [Nat.div_eq_of_lt (Nat.not_le.1 hlt)] at hroom
    simp at hroom
  have hsettled := hp.settle hr
  have hpassed := hp.sectorsPassed_settle hr
  rcases hp.settle_state hr with hstate | ⟨sector, hstate⟩
  · rw [read_of_finished hsize hstate] at h
    simp only [EStateM.Result.ok.injEq] at h
    obtain ⟨rfl, rfl⟩ := h
    refine ⟨hsettled, 0, rfl, hpassed, ?_⟩
    have hend := sectorsPassed_finished hstate
    rw [hp.segments_settle hr] at hend
    omega
  · rw [read_of_reading hsize hstate] at h
    obtain ⟨hp', blocks, device, -, hreported, -, rfl, hmoved⟩ :=
      hsettled.answered_ok hstate (Nat.min_le_right _ _) h
    have hlt := (hsettled.reading hstate).2
    have hdrop := hsettled.drop_sectorsPassed hstate
    rw [hp.segments_settle hr, hpassed] at hdrop
    have hleft := congrArg List.length hdrop
    rw [List.length_drop, List.length_append, List.length_range'] at hleft
    refine ⟨hp', _, blocks.size_data, hpassed ▸ hmoved, ?_⟩
    omega

theorem read_follows (hr : route.Accepted) (hp : p.Follows route) (size : Nat) :
    match read size p with
    | .ok _ p' => p'.Follows route
    | .error _ p' => p'.Follows route := by
  by_cases hsize : size < sectorSize
  · rw [read_of_lt hsize]
    exact hp
  · have hsize := Nat.not_lt.1 hsize
    rcases hp.settle_state hr with hstate | ⟨sector, hstate⟩
    · rw [read_of_finished hsize hstate]
      exact hp.settle hr
    · rw [read_of_reading hsize hstate]
      split
      · rename_i data p' h
        exact ((hp.settle hr).answered_ok hstate (Nat.min_le_right _ _) h).1
      · rename_i e p' h
        obtain ⟨device, rfl⟩ := answered_error h
        exact (hp.settle hr).withDevice device

end Follows

namespace Follows

/-- What a seek does: from the end of the stream on the playhead finishes, and before the end it
enters the segment that holds the position, at the sector that holds it. -/
theorem seek_cases (hr : route.Accepted) (hp : p.Follows route) (position : Nat) :
    (p.length ≤ position ∧ p.seek position = (p.length, { p with state := .finished })) ∨
      (position < p.length ∧ ∃ i segment,
        (p.segments.takeWhile (·.byteOffset ≤ position)).length = i + 1 ∧
        p.segments[i]? = some segment ∧ segment.byteOffset ≤ position ∧
        segment.firstSector + (position - segment.byteOffset) / sectorSize < segment.endSector ∧
        p.seek position =
          (segment.byteOffset + sectorOffset ((position - segment.byteOffset) / sectorSize),
            p.enter i segment
              (segment.firstSector + (position - segment.byteOffset) / sectorSize))) := by
  by_cases hle : p.length ≤ position
  · exact .inl ⟨hle, if_pos hle⟩
  · have hlt := Nat.not_le.1 hle
    have horder : InOrder route 0 p.segments := hp.segments_eq ▸ hr.segments_inOrder
    obtain ⟨i, segment, hlength, hsegment, hstart, hstop⟩ :=
      horder.locate (Nat.zero_le position) (by
        rwa [Nat.zero_add, ← hp.length_eq_sectors hr])
    refine .inr ⟨hlt, i, segment, hlength, hsegment, hstart, ?_, ?_⟩
    · apply Nat.add_lt_of_lt_sub'
      rw [Nat.div_lt_iff_lt_mul (by decide)]
      unfold Segment.byteLength sectorOffset at hstop
      omega
    · simp only [seek, if_neg hle, hlength, Nat.add_sub_cancel, hsegment]

theorem seek (hr : route.Accepted) (hp : p.Follows route) (position : Nat) :
    (p.seek position).2.Follows route := by
  rcases hp.seek_cases hr position with ⟨-, heq⟩ | ⟨-, i, segment, -, hsegment, -, hin, heq⟩
  · rw [heq]
    exact hp.finish
  · rw [heq]
    exact hp.toOnRoute.enter (hp.segments_eq ▸ hsegment) (Nat.le_add_right _ _) hin.le

theorem length_seek (hr : route.Accepted) (hp : p.Follows route) (position : Nat) :
    (p.seek position).2.length = p.length := by
  rw [(hp.seek hr position).length_eq, hp.length_eq]

theorem device_seek (hr : route.Accepted) (hp : p.Follows route) (position : Nat) :
    (p.seek position).2.device = p.device := by
  rcases hp.seek_cases hr position with ⟨-, heq⟩ | ⟨-, i, segment, -, -, -, -, heq⟩
  · rw [heq]
  · rw [heq]
    rfl

theorem position_seek (hr : route.Accepted) (hp : p.Follows route) (position : Nat) :
    (p.seek position).2.position = (p.seek position).1 := by
  rcases hp.seek_cases hr position with ⟨-, heq⟩ | ⟨-, i, segment, -, hsegment, -, hin, heq⟩
  · rw [heq]
    rfl
  · rw [heq]
    simp only [Playhead.position, Playhead.enter, if_pos hin, hsegment]
    rw [Nat.add_sub_cancel_left]

/-- The target of a seek lies in the sector that the playhead is at afterwards, or past the end. -/
theorem seek_bounds (hr : route.Accepted) (hp : p.Follows route) (position : Nat) :
    if position < p.length then
      (p.seek position).1 ≤ position ∧ position < (p.seek position).1 + sectorSize
    else (p.seek position).1 = p.length := by
  rcases hp.seek_cases hr position with ⟨hle, heq⟩ | ⟨hlt, i, segment, -, -, hstart, -, heq⟩
  · rw [if_neg (Nat.not_lt.2 hle), heq]
  · rw [if_pos hlt, heq]
    have hdiv := Nat.div_add_mod (position - segment.byteOffset) sectorSize
    have hmod := Nat.mod_lt (position - segment.byteOffset) (show 0 < sectorSize by decide)
    simp only [sectorOffset, Nat.mul_comm _ sectorSize]
    omega

end Follows

/-- One use of a playhead. -/
inductive Move
  | read (size : Nat)
  | seek (position : Nat)
  deriving DecidableEq, Repr

/-- The playhead after a move, which may have failed. -/
def Move.apply [SectorDevice σ] (p : Playhead σ) : Move → Playhead σ
  | .read size =>
    match p.read size with
    | .ok _ p' => p'
    | .error _ p' => p'
  | .seek position => (p.seek position).2

def after [SectorDevice σ] (p : Playhead σ) (moves : List Move) : Playhead σ :=
  moves.foldl Move.apply p

theorem Follows.apply [SectorDevice σ] (hr : route.Accepted) (hp : p.Follows route)
    (move : Move) : (move.apply p).Follows route := by
  cases move with
  | read size =>
    have h := hp.read_follows hr size
    unfold Move.apply
    cases hread : p.read size with
    | ok data p' => simpa only [hread] using h
    | error e p' => simpa only [hread] using h
  | seek position => exact hp.seek hr position

theorem Follows.after [SectorDevice σ] (hr : route.Accepted) (hp : p.Follows route)
    (moves : List Move) : (p.after moves).Follows route := by
  induction moves generalizing p with
  | nil => exact hp
  | cons move rest ih => exact ih (hp.apply hr move)

end Playhead

end OpticalDisc
