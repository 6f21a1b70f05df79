import OpticalDisc.Storage.ByteStore

/-!
# Sectors

DVD and Blu-ray address their data in sectors of 2048 bytes. A `SectorDevice` reads whole sectors
by number; `StoredSectors` is the device that any byte store makes.

Failures surface as they are, and nothing is padded; only an interrupted read goes on.
-/

namespace OpticalDisc

def sectorSize : Nat := 2048

/-- The byte position of a sector. -/
def sectorOffset (lba : Nat) : Nat :=
  lba * sectorSize

/-- The answer to a request for `count` sectors: how many sectors the device reports, and the bytes
of those that were asked for. -/
structure Sectors (count : Nat) where
  reported : Nat
  data : ByteArray
  size_data : data.size = min reported count * sectorSize

namespace Sectors

/-- The whole sectors in `bytes`. -/
def ofBytes (count : Nat) (bytes : ByteArray) : Sectors count where
  reported := bytes.size / sectorSize
  data := bytes.extract 0 (min (bytes.size / sectorSize) count * sectorSize)
  size_data := by
    have h1 : min (bytes.size / sectorSize) count * sectorSize ≤
        bytes.size / sectorSize * sectorSize := Nat.mul_le_mul_right _ (Nat.min_le_left ..)
    have h2 := Nat.div_mul_le_self bytes.size sectorSize
    simp only [ByteArray.size_extract]
    omega

end Sectors

/-- A medium read by sector number. -/
class SectorDevice (σ : Type) where
  /-- Reads up to `count` sectors from `lba` on: fewer on a short read, none past the end. -/
  readSectors (lba count : Nat) : EStateM Error σ (Sectors count)
  /-- The same into a slice of `room` bytes, which a device need not look at. -/
  readSlice (lba count room : Nat) : EStateM Error σ (Sectors count) := readSectors lba count
  /-- The size in bytes, if the device can tell. -/
  size? : StateM σ (Option Nat) := pure none

/-- Bytes read by sectors. -/
structure StoredSectors (ρ : Type) where
  store : ρ

namespace StoredSectors

variable {ρ : Type} [ResumableBytes ρ]

/-- An interruption leads to a state with fewer of them to come. -/
local instance : WellFoundedRelation ρ := ⟨_, ResumableBytes.interruptions_end⟩

/-- Reads on until `got` holds `wanted` bytes or the store ends, over any interruptions. -/
def fill (wanted : Nat) (got : ByteArray) (store : ρ) : EStateM.Result IoError ρ ByteArray :=
  if _hw : got.size < wanted then
    match _hr : SeekableBytes.read (wanted - got.size) store with
    | .ok chunk store' =>
      if _hc : chunk.1.size = 0 then .ok got store' else fill wanted (got ++ chunk.1) store'
    | .error e store' =>
      if _hk : e.kind = .interrupted then fill wanted got store' else .error e store'
  else .ok got store
termination_by (wanted - got.size, store)
decreasing_by
  · apply Prod.Lex.left
    simp only [ByteArray.size_append]
    omega
  · apply Prod.Lex.right
    exact ⟨_, _, _hr, _hk⟩

/-- Up to `wanted` bytes from the start of sector `lba` on. -/
def readBytes (lba wanted : Nat) : EStateM Error (StoredSectors ρ) ByteArray := fun s =>
  match SeekableBytes.seek (.start (sectorOffset lba)) s.store with
  | .error e store => .error (.io e) { store }
  | .ok _ store =>
    match fill wanted .empty store with
    | .error e store => .error (.io e) { store }
    | .ok bytes store => .ok bytes { store }

/-- Reads `count` sectors into `buffer`, as far as it has room. Returns the number of whole sectors
read and the buffer afterwards, whose remaining bytes stay as they were. -/
def readInto (lba count : Nat) (buffer : ByteArray) :
    EStateM Error (StoredSectors ρ) (Nat × ByteArray) := do
  let bytes ← readBytes lba (min (count * sectorSize) buffer.size)
  return (bytes.size / sectorSize, bytes ++ buffer.extract bytes.size buffer.size)

/-- Reads `count` sectors, as far as `room` bytes can hold them. -/
def readSlice (lba count room : Nat) : EStateM Error (StoredSectors ρ) (Sectors count) := do
  return Sectors.ofBytes count (← readBytes lba (min (count * sectorSize) room))

def readSectors (lba count : Nat) : EStateM Error (StoredSectors ρ) (Sectors count) :=
  readSlice lba count (count * sectorSize)

/-- Seeks to the end and back; a store that refuses to be sought has no known size. -/
def size? : StateM (StoredSectors ρ) (Option Nat) := fun s =>
  match SeekableBytes.seek (.current 0) s.store with
  | .error _ store => (none, { store })
  | .ok position store =>
    match SeekableBytes.seek (.fromEnd 0) store with
    | .error _ store => (none, { store })
    | .ok length store =>
      match SeekableBytes.seek (.start position) store with
      | .error _ store => (none, { store })
      | .ok _ store => (some length, { store })

instance : SectorDevice (StoredSectors ρ) where
  readSectors := readSectors
  readSlice := readSlice
  size? := size?

end StoredSectors

end OpticalDisc
