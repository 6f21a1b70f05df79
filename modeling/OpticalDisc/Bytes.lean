/-!
# Bytes

Reading words out of byte arrays. A position past the end reads as zero; readers that must refuse
such positions check the bounds first.
-/

namespace OpticalDisc

/-- At most `n` bytes, as one read into a buffer of `n` bytes delivers them. -/
abbrev Chunk (n : Nat) := { bytes : ByteArray // bytes.size ≤ n }

namespace Chunk

def empty (n : Nat) : Chunk n := ⟨.empty, by simp⟩

/-- The bytes of `bytes` from `start` on, up to `n` of them. -/
def slice (bytes : ByteArray) (start n : Nat) : Chunk n :=
  ⟨bytes.extract start (start + n), by simp; omega⟩

/-- The same bytes for a larger buffer. -/
def widen {m n : Nat} (chunk : Chunk m) (h : m ≤ n) : Chunk n :=
  ⟨chunk.1, Nat.le_trans chunk.2 h⟩

end Chunk

def byteAt (bytes : ByteArray) (pos : Nat) : UInt8 :=
  if h : pos < bytes.size then bytes[pos] else 0

/-- The big-endian number in the `width` bytes from `pos` on. -/
def natAt (bytes : ByteArray) (pos : Nat) : (width : Nat) → Nat
  | 0 => 0
  | width + 1 => natAt bytes pos width * 256 + (byteAt bytes (pos + width)).toNat

def word16At (bytes : ByteArray) (pos : Nat) : UInt16 :=
  UInt16.ofNat (natAt bytes pos 2)

def word32At (bytes : ByteArray) (pos : Nat) : UInt32 :=
  UInt32.ofNat (natAt bytes pos 4)

theorem byteAt_append_left (a b : ByteArray) {pos : Nat} (h : pos < a.size) :
    byteAt (a ++ b) pos = byteAt a pos := by
  have h' : pos < (a ++ b).size := by simp; omega
  simp only [byteAt, h, h', dite_true]
  exact ByteArray.getElem_append_left h

theorem natAt_append_left (a b : ByteArray) (pos width : Nat) (h : pos + width ≤ a.size) :
    natAt (a ++ b) pos width = natAt a pos width := by
  induction width with
  | zero => rfl
  | succ width ih =>
    simp only [natAt]
    rw [ih (by omega), byteAt_append_left a b (by omega)]

end OpticalDisc
