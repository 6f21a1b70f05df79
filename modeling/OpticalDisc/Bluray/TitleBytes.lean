import OpticalDisc.Bluray.Medium

/-!
# Blu-ray titles as byte streams

The selected title of a disc as a byte stream. The disc joins the clips itself, so a read is one
read of the disc, and a seek one seek to the absolute position.
-/

namespace OpticalDisc

/-- The selected title of a disc. -/
structure TitleBytes (β : Type) where
  disc : β

namespace TitleBytes

variable {β : Type} [BlurayMedium β]

def read (n : Nat) : EStateM IoError (TitleBytes β) (Chunk n) := fun s =>
  match BlurayMedium.read n s.disc with
  | .ok chunk disc => .ok chunk { disc }
  | .error e disc => .error e.toIo { disc }

/-- The absolute position of a target. -/
def resolve (target : SeekTarget) (disc : β) : Except IoError Nat :=
  let outside := IoError.reported .invalidInput "seek before start of title"
  match target with
  | .start position => .ok position
  | .current offset => (positionAt? (BlurayMedium.position disc) offset).elim (.error outside) .ok
  | .fromEnd offset =>
    match BlurayMedium.length? disc with
    | none => .error (Error.unsupported "seek from end: title size unknown").toIo
    | some length => (positionAt? length offset).elim (.error outside) .ok

def seek (target : SeekTarget) : EStateM IoError (TitleBytes β) Nat := fun s =>
  match resolve target s.disc with
  | .error e => .error e s
  | .ok position =>
    match BlurayMedium.seek position s.disc with
    | .ok reached disc => .ok reached { disc }
    | .error e disc => .error e.toIo { disc }

instance : StreamedBytes (TitleBytes β) where
  read := read
  seek := seek
  size? s := BlurayMedium.length? s.disc

end TitleBytes

end OpticalDisc
