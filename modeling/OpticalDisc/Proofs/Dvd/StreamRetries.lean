import OpticalDisc.Proofs.Dvd.PlayheadAlike
import OpticalDisc.Proofs.Dvd.StreamOpening

/-!
# Failed reads of a title stream

A failed read may have moved the playhead into the next segment and spoilt the part of the buffer
that has been delivered. Neither can be seen: streams that are `Alike` answer every request in the
same way and stay alike, so a failed read is as good as none. The main statement also says when a
read returns no bytes: at the end of the stream, and only there.
-/

namespace OpticalDisc

namespace TitleStream

variable {δ σ : Type} {s t : TitleStream σ} {route : Route}

/-- Two streams with the same position and the same bytes to come. -/
structure Alike (s t : TitleStream σ) (route : Route) : Prop where
  left : s.Aligned route
  right : t.Aligned route
  playhead : s.playhead.Alike t.playhead route
  capacity_eq : s.capacity = t.capacity
  position_eq : s.position = t.position
  skip_eq : s.skip = t.skip
  rest : (s.buffer = t.buffer ∧ s.taken = t.taken) ∨
    (s.buffer.size ≤ s.taken ∧ t.buffer.size ≤ t.taken)

namespace Alike

theorem length_eq (h : s.Alike t route) : s.length = t.length :=
  h.playhead.length_eq

theorem delivered (h : s.Alike t route) (hbuffer : s.buffer = t.buffer) (htaken : s.taken = t.taken)
    (n : Nat) : (s.delivered (s.nextCount n)).Alike (t.delivered (t.nextCount n)) route := by
  have hcount : s.nextCount n = t.nextCount n := by simp only [nextCount, hbuffer, htaken]
  refine ⟨h.left.delivered n, h.right.delivered n, h.playhead, h.capacity_eq, ?_, h.skip_eq, ?_⟩
  · simp only [TitleStream.delivered, h.position_eq, hcount]
  · left
    simp only [TitleStream.delivered, hbuffer, htaken, hcount, and_self]

variable [SectorDevice σ]

theorem failed (h : s.Alike t route) (hs : s.buffer.size ≤ s.taken) (ht : t.buffer.size ≤ t.taken)
    {e : Error} {p q : Playhead σ} (hp : s.playhead.read s.capacity = .error e p)
    (hq : t.playhead.read t.capacity = .error e q) (hpq : p.Alike q route) :
    ({ s with playhead := p } : TitleStream σ).Alike { t with playhead := q } route where
  left := h.left.failed hs hp hs
  right := h.right.failed ht hq ht
  playhead := hpq
  capacity_eq := h.capacity_eq
  position_eq := h.position_eq
  skip_eq := h.skip_eq
  rest := h.rest

theorem refilled (h : s.Alike t route) (hs : s.buffer.size ≤ s.taken)
    (ht : t.buffer.size ≤ t.taken) {buffer : ByteArray} {p q : Playhead σ}
    (hp : s.playhead.read s.capacity = .ok buffer p)
    (hq : t.playhead.read t.capacity = .ok buffer q) (hpq : p.Alike q route) :
    (s.refilled p buffer).Alike (t.refilled q buffer) route where
  left := (h.left.refilled hs hp).1
  right := (h.right.refilled ht hq).1
  playhead := hpq
  capacity_eq := h.capacity_eq
  position_eq := h.position_eq
  skip_eq := rfl
  rest := by
    left
    simp only [TitleStream.refilled, h.skip_eq, and_self]

theorem perform_delivered {s' t' : TitleStream σ} (h : s'.Alike t' route)
    (hbuffer : s'.buffer = t'.buffer) (htaken : s'.taken = t'.taken) {n : Nat}
    (hs : read n s = deliver n s') (ht : read n t = deliver n t') :
    ((ByteRequest.read n).perform s).1 = ((ByteRequest.read n).perform t).1 ∧
      ((ByteRequest.read n).perform s).2.Alike ((ByteRequest.read n).perform t).2 route := by
  rw [Aligned.perform_of_delivered hs, Aligned.perform_of_delivered ht]
  refine ⟨?_, h.delivered hbuffer htaken n⟩
  simp only [nextCount, hbuffer, htaken]

theorem perform_read (h : s.Alike t route) (n : Nat) :
    ((ByteRequest.read n).perform s).1 = ((ByteRequest.read n).perform t).1 ∧
      ((ByteRequest.read n).perform s).2.Alike ((ByteRequest.read n).perform t).2 route := by
  by_cases hn : n = 0
  · subst hn
    exact ⟨rfl, h⟩
  · by_cases hleft : s.taken < s.buffer.size
    · obtain ⟨hbuffer, htaken⟩ := h.rest.resolve_right fun hrest => Nat.not_lt.2 hrest.1 hleft
      have hright : t.taken < t.buffer.size := by rwa [← hbuffer, ← htaken]
      exact h.perform_delivered hbuffer htaken (read_of_buffered hn hleft)
        (read_of_buffered hn hright)
    · have hs := Nat.not_lt.1 hleft
      have ht : t.buffer.size ≤ t.taken := by
        rcases h.rest with ⟨hbuffer, htaken⟩ | ⟨-, ht⟩
        · rwa [← hbuffer, ← htaken]
        · exact ht
      rcases h.playhead.read h.left.accepted h.left.sectorSize_le with
        ⟨e, p, q, hp, hq, hpq⟩ | ⟨buffer, p, q, hp, hq, hpq⟩
      · rw [h.capacity_eq] at hq
        have hpread := read_of_failed hn hs hp
        have hqread := read_of_failed hn ht hq
        rw [perform_read_of_error hpread, perform_read_of_error hqread]
        exact ⟨rfl, h.failed hs ht hp hq hpq⟩
      · rw [h.capacity_eq] at hq
        have hpread := read_of_refilled hn hs hp (h.left.refilled hs hp).2.2
        have hqread := read_of_refilled hn ht hq (h.right.refilled ht hq).2.2
        refine perform_delivered (h.refilled hs ht hp hq hpq) rfl ?_ hpread hqread
        simp only [TitleStream.refilled, h.skip_eq]

theorem perform_seek (h : s.Alike t route) (target : SeekTarget) :
    ((ByteRequest.seek target).perform s).1 = ((ByteRequest.seek target).perform t).1 ∧
      ((ByteRequest.seek target).perform s).2.Alike ((ByteRequest.seek target).perform t).2
        route := by
  have hplace : target.resolve? s.position s.length = target.resolve? t.position t.length := by
    rw [h.position_eq, h.length_eq]
  cases hs : target.resolve? s.position s.length with
  | none =>
    rw [perform_seek_of_error (seek_of_none hs),
      perform_seek_of_error (seek_of_none (hplace.symm.trans hs))]
    exact ⟨rfl, h⟩
  | some position =>
    rw [perform_seek_of_ok (seek_of_some hs),
      perform_seek_of_ok (seek_of_some (hplace.symm.trans hs))]
    obtain ⟨hreached, hplayhead⟩ := h.playhead.seek h.left.accepted position
    refine ⟨rfl, h.left.sought position, h.right.sought position, hplayhead, h.capacity_eq, rfl,
      ?_, .inl ⟨rfl, rfl⟩⟩
    simp only [sought, hreached]

theorem perform (h : s.Alike t route) (request : ByteRequest) :
    (request.perform s).1 = (request.perform t).1 ∧
      (request.perform s).2.Alike (request.perform t).2 route := by
  cases request with
  | read n => exact h.perform_read n
  | seek target => exact h.perform_seek target

theorem performAll (h : s.Alike t route) (requests : List ByteRequest) :
    (OpticalDisc.performAll s requests).1 = (OpticalDisc.performAll t requests).1 ∧
      (OpticalDisc.performAll s requests).2.Alike (OpticalDisc.performAll t requests).2 route := by
  induction requests generalizing s t with
  | nil => exact ⟨rfl, h⟩
  | cons request rest ih =>
    obtain ⟨hanswer, hstep⟩ := h.perform request
    obtain ⟨hanswers, hrest⟩ := ih hstep
    refine ⟨?_, hrest⟩
    simp only [performAll_cons, hanswer, hanswers]

end Alike

namespace Aligned

theorem withDevice (h : s.Aligned route) (device : σ) :
    ({ s with playhead.device := device } : TitleStream σ).Aligned route where
  accepted := h.accepted
  follows := h.follows.withDevice device
  room := h.room
  buffered := h.buffered
  beforeEnd := h.beforeEnd
  atEnd := h.atEnd

variable [SectorDevice σ]

/-- A read brings no bytes at the end of the stream, and only there. -/
theorem read_none_iff (h : s.Aligned route) {n : Nat} (hn : n ≠ 0) :
    (∃ chunk s', read n s = .ok chunk s' ∧ chunk.1.size = 0) ↔ s.length ≤ s.position := by
  rcases h.read_cases hn with ⟨hleft, hread⟩ | ⟨hdrained, e, playhead, hfail, hread⟩ |
    ⟨hdrained, buffer, playhead, hrefill, hread⟩
  · have hcount := nextCount_pos hn hleft
    have hlt := h.position_lt_of_buffered hleft
    rw [hread, deliver_none_iff]
    omega
  · obtain ⟨-, -, hbefore⟩ := h.follows.read_error_position h.accepted h.sectorSize_le hfail
    have hlt := (h.position_lt_iff hdrained).2 hbefore
    simp only [hread, reduceCtorEq, false_and, exists_false, false_iff]
    omega
  · obtain ⟨-, hnone, hskip⟩ := h.refilled hdrained hrefill
    rw [hread, deliver_none_iff, ← hnone]
    simp only [nextCount, TitleStream.refilled]
    omega

/-- A failed read leaves a stream that is like the one before with the device afterwards, whatever
is left in the part of the buffer that has been delivered. -/
theorem alike_of_read_error (h : s.Aligned route) {n : Nat} {e : IoError} {s' : TitleStream σ}
    (hread : read n s = .error e s') {left : ByteArray} (hleft : left.size ≤ s'.taken) :
    ({ s' with buffer := left } : TitleStream σ).Alike
      { s with playhead.device := s'.playhead.device } route := by
  have hn : n ≠ 0 := by
    rintro rfl
    simp [read_zero] at hread
  rcases h.read_cases hn with ⟨-, hdeliver⟩ | ⟨hdrained, e', playhead, hfail, herror⟩ |
    ⟨-, buffer, playhead, -, hdeliver⟩
  · rw [hdeliver] at hread
    simp [deliver] at hread
  · rw [herror] at hread
    simp only [EStateM.Result.error.injEq] at hread
    obtain ⟨-, rfl⟩ := hread
    have hfollows := (h.follows.read_error_position h.accepted h.sectorSize_le hfail).1
    obtain ⟨device, hsettled⟩ := h.follows.read_error h.accepted h.sectorSize_le hfail
    refine ⟨h.failed hdrained hfail hleft, h.withDevice _,
      ⟨hfollows, h.follows.withDevice _, rfl, ?_⟩, rfl, rfl, rfl, .inr ⟨hleft, hdrained⟩⟩
    calc
      playhead.sectorsPassed = s.playhead.settle.sectorsPassed := by rw [hsettled]; rfl
      _ = s.playhead.sectorsPassed := h.follows.sectorsPassed_settle h.accepted
  · rw [hdeliver] at hread
    simp [deliver] at hread

end Aligned

/-- Whatever the device answers, a read into a buffer with room brings no bytes exactly at the end of
the stream. A read that fails leaves the position alone, and any requests after it are answered as
they are without it by the device in the state that it is left in. What `left` stands for is the part
of the buffer that has been delivered, which the failed read may have used. -/
theorem reads_survive_failures [DvdMedium δ σ] [SectorDevice σ] {selection : DvdSelection}
    {disc disc' : δ} {opened : TitleStream σ} (hopen : openTitle selection disc = .ok opened disc')
    (hbuffer : selection.bufferSectors < UInt32.size) (requests : List ByteRequest) {n : Nat}
    (hn : 0 < n) :
    let s := (performAll opened requests).2
    ((∃ chunk s', read n s = .ok chunk s' ∧ chunk.1.size = 0) ↔ s.length ≤ s.position) ∧
      ∀ e s', read n s = .error e s' →
        s'.position = s.position ∧
        ∀ left : ByteArray, left.size ≤ s'.taken → ∀ later : List ByteRequest,
          let failed := performAll { s' with buffer := left } later
          let spared := performAll { s with playhead.device := s'.playhead.device } later
          failed.1 = spared.1 ∧ failed.2.position = spared.2.position ∧
            failed.2.playhead.device = spared.2.playhead.device := by
  intro s
  obtain ⟨route, video, hfresh⟩ := fresh_of_openTitle hopen
  have hs : s.Aligned route := (hfresh.aligned hbuffer).performAll requests
  refine ⟨hs.read_none_iff (Nat.ne_of_gt hn), ?_⟩
  intro e s' hread
  have hempty : ByteArray.empty.size ≤ s'.taken := Nat.zero_le _
  refine ⟨(hs.alike_of_read_error hread hempty).position_eq, ?_⟩
  intro left hleft later
  obtain ⟨hanswers, halike⟩ := (hs.alike_of_read_error hread hleft).performAll later
  exact ⟨hanswers, halike.position_eq, halike.playhead.device_eq⟩

/-- A device that answers so many requests with one sector of zeros each, and then fails. -/
structure FailingDevice where
  answers : Nat
  deriving DecidableEq, Repr

instance : SectorDevice FailingDevice where
  readSectors _ count := fun device =>
    match device.answers with
    | 0 => .error (.io (.reported .other "unreadable")) device
    | answers + 1 =>
      .ok ⟨1, .mk (Array.replicate (min 1 count * sectorSize) 0), Array.size_replicate⟩ ⟨answers⟩

/-- A cell of one sector and one of two, on a device that fails at the last sector. -/
def failingDisc : TableDisc FailingDevice where
  manager := { titleSetCount := 1, titles := [{ titleSet := 1, titleInSet := 1 }] }
  titleSet :=
    { parts := [[⟨1, 1⟩]]
      chains := some #[{ programMap := [1], cells := [⟨0, 0, .none, {}⟩, ⟨0, 1, .none, {}⟩] }] }
  video := ⟨2⟩

/-- Two reads of a sector each, and one that fails. -/
theorem reads_survive_failures_failingDisc :
    ∃ opened disc' e s', openTitle {} failingDisc = .ok opened disc' ∧
      read 1 (performAll opened [.read 2048, .read 2048]).2 = .error e s' ∧
      s'.position = (performAll opened [.read 2048, .read 2048]).2.position := by
  have hfails :
      (match openTitle {} failingDisc with
        | .error .. => false
        | .ok opened _ =>
          match read 1 (performAll opened [.read 2048, .read 2048]).2 with
          | .error .. => true
          | .ok .. => false) = true := by
    decide +kernel
  cases hopen : openTitle {} failingDisc with
  | error e disc' => simp [hopen] at hfails
  | ok opened disc' =>
    cases hread : read 1 (performAll opened [.read 2048, .read 2048]).2 with
    | ok chunk s' => simp only [hopen, hread, Bool.false_eq_true] at hfails
    | error e s' =>
      have hsurvives := reads_survive_failures hopen (by decide) [.read 2048, .read 2048] Nat.one_pos
      exact ⟨opened, disc', e, s', rfl, hread, (hsurvives.2 e s' hread).1⟩

end TitleStream

end OpticalDisc
