import OpticalDisc.Storage.ByteStore

/-!
# Bytes in memory

A byte array behind a position. Reads past the end give nothing.
-/

namespace OpticalDisc

structure MemoryStore where
  content : ByteArray
  position : Nat := 0

namespace MemoryStore

def read (n : Nat) : EStateM IoError MemoryStore (Chunk n) := fun s =>
  let chunk := Chunk.slice s.content s.position n
  .ok chunk { s with position := s.position + chunk.1.size }

def seek (target : SeekTarget) : EStateM IoError MemoryStore Nat := fun s =>
  match target.resolve? s.position s.content.size with
  | some position => .ok position { s with position }
  | none =>
    .error (.reported .invalidInput "invalid seek to a negative or overflowing position") s

instance : ByteStore MemoryStore where
  read := read
  seek := seek
  patience _ := 0
  read_interrupted h _ := by simp [read] at h
  seek_interrupted {target s s' e} h hk := by
    unfold seek at h
    split at h
    · simp at h
    · simp only [EStateM.Result.error.injEq] at h
      simp [← h.1, IoError.kind] at hk
  seek_patience _ := Nat.le_refl 0

end MemoryStore

end OpticalDisc
