import OpticalDisc.Proofs.CallRecords
import OpticalDisc.Proofs.Storage.FaultyStores
import OpticalDisc.Storage.Sectors

/-!
# Buffers filled from a store

A request for sectors seeks once and then reads on, over short reads and interruptions, until it has
what it wants or the store has come to its end. Only a seek that fails, or a read that fails otherwise
than by an interruption, ends it before, with that very failure.
-/

namespace OpticalDisc

variable {ρ : Type}

section Failures

variable [SeekableBytes ρ]

/-- Reading on from a store, with some bytes in hand already, comes to a read that fails with `e`, and
not by an interruption, and leaves the store as `left`. -/
inductive FillFails (wanted : Nat) (e : IoError) (left : ρ) : ByteArray → ρ → Prop
  | now {got : ByteArray} {store : ρ} (hlt : got.size < wanted)
    (hread : SeekableBytes.read (wanted - got.size) store = .error e left)
    (hkind : e.kind ≠ .interrupted) : FillFails wanted e left got store
  | brought {got : ByteArray} {store next : ρ} {chunk : Chunk (wanted - got.size)}
    (hlt : got.size < wanted)
    (hread : SeekableBytes.read (wanted - got.size) store = .ok chunk next)
    (hsome : chunk.1.size ≠ 0) (hrest : FillFails wanted e left (got ++ chunk.1) next) :
    FillFails wanted e left got store
  | interrupted {got : ByteArray} {store next : ρ} {cause : IoError} (hlt : got.size < wanted)
    (hread : SeekableBytes.read (wanted - got.size) store = .error cause next)
    (hkind : cause.kind = .interrupted) (hrest : FillFails wanted e left got next) :
    FillFails wanted e left got store

/-- A request for bytes fails: with its seek, or with a read at any point after it. -/
inductive RequestFails (offset wanted : Nat) (store : ρ) (e : IoError) (left : ρ) : Prop
  | seek (h : SeekableBytes.seek (.start offset) store = .error e left)
  | read {reached : Nat} {sought : ρ}
    (hseek : SeekableBytes.seek (.start offset) store = .ok reached sought)
    (h : FillFails wanted e left .empty sought)

end Failures

namespace StoredSectors

variable [ResumableBytes ρ] {content : ByteArray} {At : Nat → ρ → Prop}

section Fill

variable {wanted : Nat} {got : ByteArray} {store store' : ρ}

theorem fill_of_read (h : got.size < wanted) {chunk : Chunk (wanted - got.size)}
    (hread : SeekableBytes.read (wanted - got.size) store = .ok chunk store') :
    fill wanted got store =
      if chunk.1.size = 0 then .ok got store' else fill wanted (got ++ chunk.1) store' := by
  rw [fill, dif_pos h]
  split
  · rename_i found _ hfound
    obtain ⟨rfl, rfl⟩ := EStateM.Result.ok.inj (hread.symm.trans hfound)
    split <;> rfl
  · rename_i hfound
    exact absurd (hread.symm.trans hfound) (by simp)

theorem fill_of_error (h : got.size < wanted) {e : IoError}
    (hread : SeekableBytes.read (wanted - got.size) store = .error e store') :
    fill wanted got store =
      if e.kind = .interrupted then fill wanted got store' else .error e store' := by
  rw [fill, dif_pos h]
  split
  · rename_i hfound
    exact absurd (hread.symm.trans hfound) (by simp)
  · rename_i hfound
    obtain ⟨rfl, rfl⟩ := EStateM.Result.error.inj (hread.symm.trans hfound)
    split <;> rfl

theorem fill_of_fails {e : IoError} {left : ρ} (h : FillFails wanted e left got store) :
    fill wanted got store = .error e left := by
  induction h with
  | now hlt hread hkind => rw [fill_of_error hlt hread, if_neg hkind]
  | brought hlt hread hsome _ ih => rw [fill_of_read hlt hread, if_neg hsome, ih]
  | interrupted hlt hread hkind _ ih => rw [fill_of_error hlt hread, if_pos hkind, ih]

/-- Reading on fails, or it fills the request or gets all bytes up to the end. -/
theorem fill_cases (hresumes : SeekableBytes.Resumes content At) (wanted : Nat) {position : Nat}
    (got : ByteArray) (store : ρ) (hat : At position store) :
    (∃ e left, FillFails wanted e left got store ∧ ∃ reached, At reached left) ∨
      ∃ store' reached, At reached store' ∧ fill wanted got store =
        .ok (got ++ content.extract position (position + (wanted - got.size))) store' := by
  fun_induction fill wanted got store generalizing position with
  | case1 got store hlt chunk store' hread hnone =>
    -- the content has come to its end
    right
    obtain ⟨-, hsome, hat'⟩ := hresumes.read hat hread
    have hend : content.size ≤ position := by
      by_contra hbefore
      have := hsome (by omega) (by omega)
      omega
    have hrest : content.extract position (position + (wanted - got.size)) = .empty := by
      rw [ByteArray.extract_eq_empty_iff]
      omega
    refine ⟨store', _, hat', ?_⟩
    rw [hrest, ByteArray.append_empty]
  | case2 got store hlt chunk store' hread hsome ih =>
    obtain ⟨hchunk, -, hat'⟩ := hresumes.read hat hread
    rcases ih hat' with ⟨e, left, hfails, hleft⟩ | ⟨last, reached, hlast, hfill⟩
    · exact .inl ⟨e, left, .brought hlt hread hsome hfails, hleft⟩
    · refine .inr ⟨last, reached, hlast, ?_⟩
      have hle := chunk.2
      have hsize : position + chunk.1.size + (wanted - (got.size + chunk.1.size)) =
          position + (wanted - got.size) := by omega
      have hjoin : chunk.1 ++ content.extract (position + chunk.1.size)
            (position + (wanted - got.size)) =
          content.extract position (position + (wanted - got.size)) := by
        rw [@ByteArray.extract_eq_extract_append_extract content position _
          (position + chunk.1.size) (by omega) (by omega), ← hchunk]
      rw [hfill, ByteArray.size_append, hsize, ByteArray.append_assoc, hjoin]
  | case3 got store hlt e store' hread hkind ih =>
    rcases ih (hresumes.interrupted hat hread hkind) with
      ⟨cause, left, hfails, hleft⟩ | hfilled
    · exact .inl ⟨cause, left, .interrupted hlt hread hkind hfails, hleft⟩
    · exact .inr hfilled
  | case4 got store hlt e store' hread hkind =>
    exact .inl ⟨e, store', .now hlt hread hkind, hresumes.read_failed hat hread⟩
  | case5 got store hfull =>
    have hnone : wanted - got.size = 0 := Nat.sub_eq_zero_of_le (Nat.not_lt.1 hfull)
    refine .inr ⟨store, position, hat, ?_⟩
    rw [hnone, Nat.add_zero, ByteArray.extract_same, ByteArray.append_empty]

end Fill

theorem readBytes_of_fails {lba wanted : Nat} {s : StoredSectors ρ} {e : IoError} {left : ρ}
    (h : RequestFails (sectorOffset lba) wanted s.store e left) :
    readBytes lba wanted s = .error (.io e) ⟨left⟩ := by
  cases h with
  | seek hseek => simp only [readBytes, hseek]
  | read hseek hfails => simp only [readBytes, hseek, fill_of_fails hfails]

/-- A request fails, or it brings what the content has of the bytes that are wanted. -/
theorem readBytes_cases (hresumes : SeekableBytes.Resumes content At) (lba wanted : Nat)
    {position : Nat} {s : StoredSectors ρ} (hat : At position s.store) :
    (∃ e left, RequestFails (sectorOffset lba) wanted s.store e left ∧ ∃ reached, At reached left) ∨
      ∃ s' reached, At reached s'.store ∧ readBytes lba wanted s =
        .ok (content.extract (sectorOffset lba) (sectorOffset lba + wanted)) s' := by
  cases hseek : SeekableBytes.seek (.start (sectorOffset lba)) s.store with
  | error e left => exact .inl ⟨e, left, .seek hseek, hresumes.seek_failed hat hseek⟩
  | ok reached sought =>
    rcases fill_cases hresumes wanted .empty sought (hresumes.seek hat hseek) with
      ⟨e, left, hfails, hleft⟩ | ⟨store, last, hlast, hfill⟩
    · exact .inl ⟨e, left, .read hseek hfails, hleft⟩
    · refine .inr ⟨⟨store⟩, last, hlast, ?_⟩
      simp only [readBytes, hseek, hfill, ByteArray.empty_append, ByteArray.size_empty, Nat.sub_zero]

theorem readInto_of_error {lba count : Nat} {buffer : ByteArray} {s s' : StoredSectors ρ}
    {e : Error}
    (h : readBytes lba (min (count * sectorSize) buffer.size) s = .error e s') :
    readInto lba count buffer s = .error e s' := by
  simp only [readInto, bind, EStateM.bind, h]

theorem readInto_of_ok {lba count : Nat} {buffer bytes : ByteArray} {s s' : StoredSectors ρ}
    (h : readBytes lba (min (count * sectorSize) buffer.size) s = .ok bytes s') :
    readInto lba count buffer s =
      .ok (bytes.size / sectorSize, bytes ++ buffer.extract bytes.size buffer.size) s' := by
  simp only [readInto, bind, EStateM.bind, h]
  rfl

structure SectorCall where
  lba : Nat
  count : Nat
  buffer : ByteArray

/-- The store after calls, whatever they have come to. -/
def afterCalls (s : StoredSectors ρ) : List SectorCall → StoredSectors ρ
  | [] => s
  | call :: rest => afterCalls (stateAfter (readInto call.lba call.count call.buffer s)) rest

theorem at_stateAfter (hresumes : SeekableBytes.Resumes content At) (call : SectorCall)
    {position : Nat} {s : StoredSectors ρ} (hat : At position s.store) :
    ∃ reached, At reached (stateAfter (readInto call.lba call.count call.buffer s)).store := by
  rcases readBytes_cases hresumes call.lba (min (call.count * sectorSize) call.buffer.size) hat with
    ⟨e, left, hfails, hleft⟩ | ⟨s', reached, hat', hbytes⟩
  · rw [readInto_of_error (readBytes_of_fails hfails)]
    exact hleft
  · rw [readInto_of_ok hbytes]
    exact ⟨reached, hat'⟩

theorem at_afterCalls (hresumes : SeekableBytes.Resumes content At) (calls : List SectorCall)
    {position : Nat} {s : StoredSectors ρ} (hat : At position s.store) :
    ∃ reached, At reached (afterCalls s calls).store := by
  induction calls generalizing position s with
  | nil => exact ⟨position, hat⟩
  | cons call rest ih =>
    obtain ⟨reached, hreached⟩ := at_stateAfter hresumes call hat
    exact ih hreached

/-- After any calls, a call returns the first failure that is no interrupted read, if it comes to one.
Else it fills the buffer with the content from the sector on, as far as there is room, request and
content, leaves the rest of the buffer alone and counts the whole sectors. It makes no difference where
the store was: only how it answers the seek to the sector. -/
theorem readInto_fills (hresumes : SeekableBytes.Resumes content At) {start : StoredSectors ρ}
    {position : Nat} (hat : At position start.store) (earlier : List SectorCall) (lba count : Nat)
    (buffer : ByteArray) :
    let s := afterCalls start earlier
    let wanted := min (count * sectorSize) buffer.size
    let filled := min wanted (content.size - sectorOffset lba)
    (∀ e left, RequestFails (sectorOffset lba) wanted s.store e left →
      readInto lba count buffer s = .error (.io e) ⟨left⟩) ∧
    ((∀ e left, ¬ RequestFails (sectorOffset lba) wanted s.store e left) →
      ∃ s', readInto lba count buffer s = .ok (filled / sectorSize,
        content.extract (sectorOffset lba) (sectorOffset lba + filled) ++
          buffer.extract filled buffer.size) s') ∧
    ∀ other : StoredSectors ρ,
      SeekableBytes.seek (.start (sectorOffset lba)) other.store =
        SeekableBytes.seek (.start (sectorOffset lba)) s.store →
      readInto lba count buffer other = readInto lba count buffer s := by
  intro s wanted filled
  obtain ⟨reached, hreached⟩ := at_afterCalls hresumes earlier hat
  refine ⟨?_, ?_, ?_⟩
  · intro e left hfails
    exact readInto_of_error (readBytes_of_fails hfails)
  · intro hspared
    rcases readBytes_cases hresumes lba wanted hreached with
      ⟨e, left, hfails, -⟩ | ⟨s', -, -, hbytes⟩
    · exact absurd hfails (hspared e left)
    · have hsize : (content.extract (sectorOffset lba) (sectorOffset lba + wanted)).size =
          filled := by
        rw [ByteArray.size_extract]
        omega
      refine ⟨s', ?_⟩
      rw [readInto_of_ok hbytes, hsize, ← hsize, extract_size]
  · intro other hother
    simp only [readInto, readBytes, bind, EStateM.bind, hother]

theorem not_fillFails_of_script {wanted : Nat} {e : IoError} {left store : FaultyStore}
    {got : ByteArray} (hscript : store.script = []) : ¬ FillFails wanted e left got store := by
  intro hfails
  induction hfails with
  | now _ hread =>
    have hhead := (FaultyStore.read_eq_error hread).2.1
    simp [hscript] at hhead
  | brought _ hread _ _ ih =>
    simp only [SeekableBytes.read, FaultyStore.read, hscript] at hread
    obtain ⟨-, rfl⟩ := EStateM.Result.ok.inj hread
    exact ih rfl
  | interrupted _ hread =>
    have hhead := (FaultyStore.read_eq_error hread).2.1
    simp [hscript] at hhead

theorem not_requestFails_of_script {offset wanted : Nat} {e : IoError} {left store : FaultyStore}
    (hscript : store.script = []) : ¬ RequestFails offset wanted store e left := by
  rintro (hseek | ⟨hseek, hfails⟩)
  · simp [SeekableBytes.seek, FaultyStore.seek, SeekTarget.resolve?] at hseek
  · obtain ⟨-, hsought⟩ := FaultyStore.seek_eq_ok hseek
    exact not_fillFails_of_script (hsought ▸ hscript) hfails

/-- Bytes whose first reads are interrupted, short and broken off. -/
def brokenOff (content : ByteArray) : FaultyStore where
  content
  script := [some (.reported .interrupted "again"), none, some (.reported .other "unreadable")]

theorem requestFails_brokenOff {content : ByteArray} {offset wanted : Nat}
    (hinside : offset < content.size) (hwanted : 1 < wanted) :
    RequestFails offset wanted (brokenOff content) (.reported .other "unreadable")
      { content, position := content.size } := by
  have hone : (content.extract offset (offset + min (wanted - 0) 1)).size = 1 := by
    rw [ByteArray.size_extract]
    omega
  have hstart : (ByteArray.empty).size < wanted := by
    rw [ByteArray.size_empty]
    omega
  refine .read rfl (.interrupted hstart rfl rfl (.brought hstart rfl ?_ (.now ?_ rfl ?_)))
  · change (content.extract offset (offset + min (wanted - 0) 1)).size ≠ 0
    omega
  · change (ByteArray.empty ++ content.extract offset (offset + min (wanted - 0) 1)).size < wanted
    rwa [ByteArray.empty_append, hone]
  · decide

/-- A call for the sectors behind the first one fails after it has read a byte. The same call, made
again with the store left at its end, reads one sector and two bytes more. -/
theorem readInto_fills_brokenOff :
    let content : ByteArray := ⟨Array.replicate 2048 7⟩ ++ ⟨Array.replicate 2050 9⟩
    let buffer : ByteArray := ⟨Array.replicate 3000 0⟩
    let left : FaultyStore := { content, position := content.size }
    readInto 1 2 buffer ⟨brokenOff content⟩ =
        .error (.io (.reported .other "unreadable")) ⟨left⟩ ∧
      ∃ s', readInto 1 2 buffer ⟨left⟩ =
        .ok (1, ⟨Array.replicate 2050 9⟩ ++ buffer.extract 2050 3000) s' := by
  intro content buffer left
  have hfront : (⟨Array.replicate 2048 7⟩ : ByteArray).size = 2048 := Array.size_replicate
  have hrest : (⟨Array.replicate 2050 9⟩ : ByteArray).size = 2050 := Array.size_replicate
  have hsize : content.size = 4098 := by rw [ByteArray.size_append, hfront, hrest]
  have hbuffer : buffer.size = 3000 := Array.size_replicate
  have hoffset : sectorOffset 1 = 2048 := rfl
  have hbehind : content.extract 2048 (2048 + 2050) = ⟨Array.replicate 2050 9⟩ :=
    ByteArray.extract_append_eq_right hfront.symm (by rw [hfront, hrest])
  have hresumes := FaultyStore.resumes content
  have hat : FaultyStore.At content 0 (StoredSectors.mk (brokenOff content)).store := ⟨rfl, rfl⟩
  have hfails : RequestFails (sectorOffset 1) (min (2 * sectorSize) buffer.size)
      (brokenOff content) (.reported .other "unreadable") left := by
    rw [hoffset, hbuffer]
    exact requestFails_brokenOff (by rw [hsize]; decide) (by decide)
  have hfirst : readInto 1 2 buffer ⟨brokenOff content⟩ =
      .error (.io (.reported .other "unreadable")) ⟨left⟩ :=
    (readInto_fills hresumes hat [] 1 2 buffer).1 _ left hfails
  have hafter : afterCalls ⟨brokenOff content⟩ [⟨1, 2, buffer⟩] = ⟨left⟩ := by
    simp only [afterCalls, hfirst, stateAfter]
  have hagain := (readInto_fills hresumes hat [⟨1, 2, buffer⟩] 1 2 buffer).2.1
  simp only [hafter, hsize, hbuffer, hoffset] at hagain
  rw [← hbehind]
  exact ⟨hfirst, hagain fun e reached => not_requestFails_of_script rfl⟩

end StoredSectors

end OpticalDisc
