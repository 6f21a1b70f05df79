import OpticalDisc.Proofs.Storage.FilledBuffers
import OpticalDisc.Proofs.Storage.StoreContents

/-!
# Sectors of a store with contents

A store that reads fixed contents, asked for sectors, serves the whole sectors of those contents: the
reads go on over short answers and interruptions until the request is filled or the contents end.
-/

namespace OpticalDisc

def sectorIn (content : ByteArray) (sector : Nat) : ByteArray :=
  content.extract (sectorOffset sector) (sectorOffset (sector + 1))

/-- The sector lies in `content` as a whole. -/
def Fits (content : ByteArray) (sector : Nat) : Prop :=
  sectorOffset (sector + 1) ≤ content.size

instance (content : ByteArray) : DecidablePred (Fits content) := fun _ =>
  inferInstanceAs (Decidable (_ ≤ _))

theorem sectorOffset_le {m n : Nat} (h : m ≤ n) : sectorOffset m ≤ sectorOffset n :=
  Nat.mul_le_mul_right _ h

theorem size_sectorIn {content : ByteArray} {sector : Nat} (h : Fits content sector) :
    (sectorIn content sector).size = sectorSize := by
  simp only [Fits, sectorIn, ByteArray.size_extract, sectorOffset, sectorSize] at h ⊢
  omega

theorem sectorBytes_range' (content : ByteArray) (first count : Nat) :
    sectorBytes (sectorIn content) (List.range' first count) =
      content.extract (sectorOffset first) (sectorOffset (first + count)) := by
  induction count with
  | zero => simp
  | succ count ih =>
    have hle := sectorOffset_le (Nat.le_add_right first count)
    have hle' := sectorOffset_le (Nat.le_succ (first + count))
    rw [List.range'_concat, sectorBytes_append, ih, Nat.one_mul]
    simp only [sectorBytes, List.map_cons, List.map_nil, joinBytes_cons, joinBytes_nil,
      ByteArray.append_empty, sectorIn]
    exact (ByteArray.extract_eq_extract_append_extract _ hle hle').symm

theorem Sectors.ofBytes_extract (count : Nat) (bytes rest : ByteArray) :
    ofBytes count ((bytes ++ rest).extract 0 (bytes.size / sectorSize * sectorSize)) =
      ofBytes count bytes := by
  have hwhole : bytes.size / sectorSize * sectorSize ≤ bytes.size := Nat.div_mul_le_self ..
  have hcount : min (bytes.size / sectorSize) count * sectorSize ≤
      bytes.size / sectorSize * sectorSize := Nat.mul_le_mul_right _ (Nat.min_le_left ..)
  have hsize : (bytes.extract 0 (bytes.size / sectorSize * sectorSize)).size / sectorSize =
      bytes.size / sectorSize := by
    rw [ByteArray.size_extract, Nat.min_eq_left hwhole, Nat.sub_zero,
      Nat.mul_div_cancel _ (by decide)]
  simp only [extract_append_left hwhole, ofBytes, hsize, ByteArray.extract_extract, Nat.zero_add,
    Nat.min_eq_left hcount]

namespace StoredSectors

section Slices

variable {ρ : Type} [ResumableBytes ρ] {lba count room : Nat} {bytes : ByteArray}
  {s s' : StoredSectors ρ}

theorem readSlice_of_ok (h : readBytes lba (min (count * sectorSize) room) s = .ok bytes s') :
    readSlice lba count room s = .ok (Sectors.ofBytes count bytes) s' := by
  simp only [readSlice, bind, EStateM.bind, h]
  rfl

/-- The sectors that are read into a slice are the whole ones in front of a buffer as long as it. -/
theorem readSlice_eq_readInto (lba count : Nat) (buffer : ByteArray) :
    readSlice (ρ := ρ) lba count buffer.size = do
      let (whole, filled) ← readInto lba count buffer
      return Sectors.ofBytes count (filled.extract 0 (whole * sectorSize)) := by
  funext s
  simp only [readInto, bind, EStateM.bind]
  cases hbytes : readBytes lba (min (count * sectorSize) buffer.size) s with
  | error e s' => simp only [readSlice, bind, EStateM.bind, hbytes]
  | ok bytes s' =>
    rw [readSlice_of_ok hbytes]
    simp only [pure, EStateM.pure, Sectors.ofBytes_extract]

theorem readSectors_eq_readInto {buffer : ByteArray} (h : buffer.size = count * sectorSize) :
    readSectors (ρ := ρ) lba count = do
      let (whole, filled) ← readInto lba count buffer
      return Sectors.ofBytes count (filled.extract 0 (whole * sectorSize)) := by
  rw [readSectors, ← h, readSlice_eq_readInto]

end Slices

variable {ρ : Type} [ByteStore ρ] {content : ByteArray} {At : Nat → ρ → Prop}

theorem not_fillFails (hreads : ByteStore.Reads content At) {wanted position : Nat} {e : IoError}
    {left : ρ} {got : ByteArray} {store : ρ} (hat : At position store) :
    ¬ FillFails wanted e left got store := by
  intro hfails
  induction hfails generalizing position with
  | now _ hread hkind => exact hkind (hreads.kind_of_read_failed hat hread)
  | brought _ hread _ _ ih => exact ih (hreads.resumes.read hat hread).2.2
  | interrupted _ hread hkind _ ih => exact ih (hreads.resumes.interrupted hat hread hkind)

theorem not_requestFails (hreads : ByteStore.Reads content At) {offset wanted position : Nat}
    {e : IoError} {store left : ρ} (hat : At position store) :
    ¬ RequestFails offset wanted store e left := by
  rintro (hseek | ⟨hseek, hfails⟩)
  · obtain ⟨_, hsought, -⟩ := hreads.seek offset hat
    exact absurd (hsought.symm.trans hseek) (by simp)
  · exact not_fillFails hreads (hreads.resumes.seek hat hseek) hfails

theorem readBytes_reads (hreads : ByteStore.Reads content At) (lba wanted : Nat) {position : Nat}
    {s : StoredSectors ρ} (hat : At position s.store) :
    ∃ s' reached, At reached s'.store ∧ readBytes lba wanted s =
      .ok (content.extract (sectorOffset lba) (sectorOffset lba + wanted)) s' := by
  rcases readBytes_cases hreads.resumes lba wanted hat with ⟨e, left, hfails, -⟩ | hbytes
  · exact absurd hfails (not_requestFails hreads hat)
  · exact hbytes

theorem reported_bounds (content : ByteArray) {lba count : Nat} (hcount : 0 < count) :
    let bytes := content.extract (sectorOffset lba) (sectorOffset lba + count * sectorSize)
    (0 < bytes.size / sectorSize ↔ Fits content lba) ∧
      ∀ sector ∈ List.range' lba (min (bytes.size / sectorSize) count), Fits content sector := by
  simp only [ByteArray.size_extract, Fits, sectorOffset, sectorSize]
  refine ⟨by omega, ?_⟩
  intro sector hsector
  rw [List.mem_range'_1] at hsector
  omega

/-- The sectors of a store with contents are the whole sectors of the contents. -/
theorem serves (hreads : ByteStore.Reads content At) :
    SectorDevice.Serves (sectorIn content) (Fits content)
      (fun s : StoredSectors ρ => ∃ position, At position s.store) where
  answer {s lba count} hat hcount _ := by
    obtain ⟨position, hat⟩ := hat
    obtain ⟨s', reached, hat', hbytes⟩ := readBytes_reads hreads lba (count * sectorSize) hat
    obtain ⟨hreported, hfits⟩ := @reported_bounds content lba count hcount
    refine ⟨Sectors.ofBytes count (content.extract (sectorOffset lba)
      (sectorOffset lba + count * sectorSize)), s', ?_, ⟨reached, hat'⟩, hreported, hfits, ?_⟩
    · exact readSlice_of_ok (by rwa [Nat.min_self])
    · have hle := sectorOffset_le (Nat.min_le_right ((content.extract (sectorOffset lba)
        (sectorOffset lba + count * sectorSize)).size / sectorSize) count)
      rw [sectorBytes_range']
      simp only [Sectors.ofBytes, ByteArray.extract_extract, Nat.add_zero]
      congr 1
      simp only [sectorOffset, Nat.add_mul] at hle ⊢
      omega

end StoredSectors

end OpticalDisc
