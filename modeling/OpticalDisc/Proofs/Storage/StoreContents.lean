import OpticalDisc.Files.OpenFile
import OpticalDisc.Proofs.Storage.FaultyStores

/-!
# Stores with contents

A store reads some bytes when each of its reads brings the next of them, at least one before their
end, or is interrupted and changes nothing. Bytes in memory and open files read their content, and
joined stores read the contents of their parts one after the other.
-/

namespace OpticalDisc

variable {ρ : Type}

theorem MemoryStore.seek_eq_ok {target : SeekTarget} {store store' : MemoryStore} {reached : Nat}
    (h : MemoryStore.seek target store = .ok reached store') :
    target.resolve? store.position store.content.size = some reached ∧
      store' = { store with position := reached } := by
  unfold MemoryStore.seek at h
  split at h
  · rename_i position hposition
    simp only [EStateM.Result.ok.injEq] at h
    obtain ⟨rfl, rfl⟩ := h
    exact ⟨hposition, rfl⟩
  · simp at h

variable [ByteStore ρ]

/-- A store in one of the states `At position` reads `content` from the position on. -/
structure ByteStore.Reads (content : ByteArray) (At : Nat → ρ → Prop) : Prop where
  read {position : Nat} {store : ρ} (n : Nat) : At position store →
    (∃ chunk store', SeekableBytes.read n store = .ok chunk store' ∧
      chunk.1 = content.extract position (position + chunk.1.size) ∧
      (0 < n → position < content.size → 0 < chunk.1.size) ∧
      At (position + chunk.1.size) store') ∨
    (∃ e store', SeekableBytes.read n store = .error e store' ∧ e.kind = .interrupted ∧
      At position store')
  seek {position : Nat} {store : ρ} (target : Nat) : At position store →
    ∃ store', SeekableBytes.seek (.start target) store = .ok target store' ∧ At target store'
  measure {position length : Nat} {store store' : ρ} : At position store →
    SeekableBytes.seek (.fromEnd 0) store = .ok length store' →
    length = content.size ∧ At length store'

def MemoryStore.At (content : ByteArray) (position : Nat) (store : MemoryStore) : Prop :=
  store.content = content ∧ store.position = position

theorem MemoryStore.reads (content : ByteArray) :
    ByteStore.Reads content (MemoryStore.At content) where
  read {position store} n hat := by
    obtain ⟨rfl, rfl⟩ := hat
    refine .inl ⟨Chunk.slice store.content store.position n, _, rfl, ?_, ?_, rfl, rfl⟩
    · exact (extract_size _ _ _).symm
    · simp only [Chunk.slice, ByteArray.size_extract]
      omega
  seek target hat := ⟨_, rfl, hat.1, rfl⟩
  measure hat h := by
    obtain ⟨hlength, rfl⟩ := seek_eq_ok h
    have hsize := congrArg ByteArray.size hat.1
    exact ⟨(SeekTarget.eq_of_resolve?_end hlength).trans hsize, hat.1, rfl⟩

/-- An open file, behind a position. -/
def OpenFile.At (content : ByteArray) (position : Nat) (file : OpenFile) : Prop :=
  MemoryStore.At content position file.bytes

theorem OpenFile.onBytes_of_ok {α : Type} {action : EStateM IoError MemoryStore α}
    {file : OpenFile} {bytes : MemoryStore} {a : α} (h : action file.bytes = .ok a bytes) :
    onBytes action file = .ok a { file with bytes } := by
  simp only [onBytes, h]

theorem OpenFile.seek_of_resolve? {target : SeekTarget} {file : OpenFile} {position : Nat}
    (h : target.resolve? file.bytes.position file.bytes.content.size = some position) :
    SeekableBytes.seek target file =
      .ok position { file with bytes := { file.bytes with position } } := by
  refine onBytes_of_ok ?_
  simp only [SeekableBytes.seek, MemoryStore.seek, h]

theorem OpenFile.reads (content : ByteArray) : ByteStore.Reads content (OpenFile.At content) where
  read n hat := by
    rcases (MemoryStore.reads content).read n hat with
      ⟨chunk, bytes, hread, hchunk, hsome, hat'⟩ | ⟨e, bytes, hread, -⟩
    · exact .inl ⟨chunk, _, onBytes_of_ok hread, hchunk, hsome, hat'⟩
    · simp [SeekableBytes.read, MemoryStore.read] at hread
  seek target hat := by
    obtain ⟨bytes, hseek, hat'⟩ := (MemoryStore.reads content).seek target hat
    exact ⟨_, onBytes_of_ok hseek, hat'⟩
  measure hat h := (MemoryStore.reads content).measure hat (onBytes_ok h)

section Reads

variable {content : ByteArray} {At : Nat → ρ → Prop}

/-- Such a store carries its content, and only interruptions make its reads fail. -/
theorem ByteStore.Reads.resumes (hreads : ByteStore.Reads content At) :
    SeekableBytes.Resumes content At where
  read {position n store store' chunk} hat h := by
    rcases hreads.read n hat with ⟨_, _, hread, hchunk⟩ | ⟨_, _, hread, -⟩
    · obtain ⟨rfl, rfl⟩ := EStateM.Result.ok.inj (hread.symm.trans h)
      exact hchunk
    · exact absurd (hread.symm.trans h) (by simp)
  read_failed {position n store store' e} hat h := by
    rcases hreads.read n hat with ⟨_, _, hread, -⟩ | ⟨_, _, hread, -, hat'⟩
    · exact absurd (hread.symm.trans h) (by simp)
    · obtain ⟨-, rfl⟩ := EStateM.Result.error.inj (hread.symm.trans h)
      exact ⟨position, hat'⟩
  seek {position target reached store store'} hat h := by
    obtain ⟨_, hseek, hat'⟩ := hreads.seek target hat
    obtain ⟨-, rfl⟩ := EStateM.Result.ok.inj (hseek.symm.trans h)
    exact hat'
  seek_failed {position target store store' e} hat h := by
    obtain ⟨_, hseek, -⟩ := hreads.seek target hat
    exact absurd (hseek.symm.trans h) (by simp)
  measure := hreads.measure
  interrupted {position n store store' e} hat h _ := by
    rcases hreads.read n hat with ⟨_, _, hread, -⟩ | ⟨_, _, hread, -, hat'⟩
    · exact absurd (hread.symm.trans h) (by simp)
    · obtain ⟨-, rfl⟩ := EStateM.Result.error.inj (hread.symm.trans h)
      exact hat'

theorem ByteStore.Reads.kind_of_read_failed (hreads : ByteStore.Reads content At)
    {position n : Nat} {store store' : ρ} {e : IoError} (hat : At position store)
    (h : SeekableBytes.read n store = .error e store') : e.kind = .interrupted := by
  rcases hreads.read n hat with ⟨_, _, hread, -⟩ | ⟨_, _, hread, hkind, -⟩
  · exact absurd (hread.symm.trans h) (by simp)
  · obtain ⟨rfl, -⟩ := EStateM.Result.error.inj (hread.symm.trans h)
    exact hkind

theorem StorePart.kind_of_readAt_failed (hreads : ByteStore.Reads content At) {position : Nat}
    {part : StorePart ρ} {n offset : Nat} {e : IoError} {store : ρ} (hat : At position part.store)
    (h : part.readAt n offset = .error e store) : e.kind = .interrupted := by
  obtain ⟨sought, hseek, hsought⟩ := hreads.seek offset hat
  simp only [readAt, hseek] at h
  split at h
  · rename_i hread
    obtain ⟨rfl, -⟩ := EStateM.Result.error.inj h
    exact hreads.kind_of_read_failed hsought hread
  · simp at h

end Reads

namespace JoinedStore

variable {At : ByteArray → Nat → ρ → Prop}

theorem reads (hreads : ∀ content, ByteStore.Reads content (At content))
    (contents : List ByteArray) :
    ByteStore.Reads (joinBytes contents) (JoinedStore.At At contents) where
  read {position s} n hat := by
    have hcarries : ∀ content, SeekableBytes.Carries content (At content) :=
      fun content => (hreads content).resumes.toCarries
    have hall := hat.2
    rcases s.read_cases n with ⟨-, hread⟩ | ⟨before, part, after, hlocates, hcase⟩
    · exact .inl ⟨_, _, hread, (carries hcarries contents).read hat hread⟩
    · rcases hcase with ⟨chunk, store, -, hread⟩ | ⟨e, store, hfailed, hread⟩
      · exact .inl ⟨_, _, hread, (carries hcarries contents).read hat hread⟩
      · refine .inr ⟨e, _, hread, ?_, hat.1, readAt_located_failed hcarries hall hlocates hfailed⟩
        rw [hlocates.parts_eq] at hall
        obtain ⟨_, content, _, -, -, hpart, -⟩ := exists_contents_of_append hall
        obtain ⟨-, _, hpart⟩ := hpart
        exact StorePart.kind_of_readAt_failed (hreads content) hpart hfailed
  seek target hat := ⟨_, rfl, rfl, hat.2⟩
  measure := (carries (fun content => (hreads content).resumes.toCarries) contents).measure

theorem join_of_size_lt {files : List OpenFile}
    (h : ∀ file ∈ files, file.bytes.content.size < UInt64.size) : ∃ s, join files = .ok s := by
  apply exists_join
  intro file hfile
  have hend := @SeekTarget.resolve?_end file.bytes.position _ (h file hfile)
  exact ⟨_, _, OpenFile.seek_of_resolve? hend⟩

end JoinedStore

end OpticalDisc
