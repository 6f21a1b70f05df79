import OpticalDisc.Error
import OpticalDisc.Bytes

/-!
# Byte stores

What a medium must offer to be read: sequential reads from a position that seeks can move. The
operations act on the state of the medium and keep the new state when they fail.

Positions are 64-bit words, so a seek whose target falls outside `0 .. 2 ^ 64 - 1` has no target.
-/

namespace OpticalDisc

/-- Where a seek is measured from. -/
inductive SeekTarget
  | start (position : Nat)
  | current (offset : Int)
  | fromEnd (offset : Int)
  deriving DecidableEq, Repr

/-- The position `offset` away from `base`, if there is one. -/
def positionAt? (base : Nat) (offset : Int) : Option Nat :=
  let target := (base : Int) + offset
  if 0 ≤ target ∧ target < UInt64.size then some target.toNat else none

/-- The absolute position of a target, for a store of `length` bytes read up to `position`. -/
def SeekTarget.resolve? (position length : Nat) : SeekTarget → Option Nat
  | start target => some target
  | current offset => positionAt? position offset
  | fromEnd offset => positionAt? length offset

/-- Bytes behind a movable position. -/
class SeekableBytes (ρ : Type) where
  /-- Up to `n` bytes from the position on; none at the end. -/
  read (n : Nat) : EStateM IoError ρ (Chunk n)
  /-- Moves the position and returns where it is now. -/
  seek (target : SeekTarget) : EStateM IoError ρ Nat

/-- Bytes whose readers may be interrupted, but not forever: reads that are tried again come to an
answer. -/
class ResumableBytes (ρ : Type) extends SeekableBytes ρ where
  interruptions_end : WellFounded fun later earlier : ρ =>
    ∃ n e, read n earlier = .error e later ∧ e.kind = .interrupted

/-- A store that may interrupt its readers, but not forever: each interruption uses up patience,
and only a read that delivers may restore it. -/
class ByteStore (ρ : Type) extends SeekableBytes ρ where
  /-- Bounds the interruptions in a row from this state on. -/
  patience : ρ → Nat
  read_interrupted {n : Nat} {store store' : ρ} {e : IoError} :
    read n store = .error e store' → e.kind = .interrupted → patience store' < patience store
  seek_interrupted {target : SeekTarget} {store store' : ρ} {e : IoError} :
    seek target store = .error e store' → e.kind = .interrupted →
      patience store' < patience store
  seek_patience {target : SeekTarget} {store store' : ρ} {position : Nat} :
    seek target store = .ok position store' → patience store' ≤ patience store

instance {ρ : Type} [ByteStore ρ] : ResumableBytes ρ where
  interruptions_end :=
    Subrelation.wf (fun ⟨_, _, hread, hkind⟩ => ByteStore.read_interrupted hread hkind)
      (measure ByteStore.patience).wf

/-- A stream that may know its length. -/
class StreamedBytes (ι : Type) extends SeekableBytes ι where
  size? : ι → Option Nat

theorem positionAt?_of_mem {base : Nat} {offset : Int} (h0 : 0 ≤ base + offset)
    (h1 : base + offset < UInt64.size) :
    positionAt? base offset = some ((base : Int) + offset).toNat := by
  unfold positionAt?
  exact if_pos ⟨h0, h1⟩

end OpticalDisc
