import OpticalDisc.Error
import OpticalDisc.Storage.Sectors
import OpticalDisc.Text.Number

/-!
# Index files

The tables of a DVD lie in files of big-endian words. A file starts with an identifier, and words
at fixed offsets give the sectors at which its tables start. Whatever lies past the end of the file
is a corrupt index.
-/

namespace OpticalDisc

structure IndexFile where
  /-- The name that messages use. -/
  name : String
  data : ByteArray

namespace IndexFile

/-- The largest size of an index file: 8 MiB. -/
def maxSize : Nat := 8 * 1024 * 1024

/-- Refuses contents that are too large for an index file. -/
def checkSize (data : ByteArray) : Except Error ByteArray :=
  if data.size ≤ maxSize then .ok data
  else .error (.corruptIndex s!"IFO larger than {maxSize} bytes")

variable (file : IndexFile)

/-- The `length` bytes from `offset` on. -/
def range (offset length : Nat) : Except Error ByteArray :=
  if offset + length ≤ file.data.size then .ok (file.data.extract offset (offset + length))
  else
    let place := Text.markedHex offset
    .error (.corruptIndex
      s!"{file.name}: {length} bytes at offset {place} exceed file size {file.data.size}")

def byte (offset : Nat) : Except Error UInt8 := do
  return byteAt (← file.range offset 1) 0

def word16 (offset : Nat) : Except Error UInt16 := do
  return word16At (← file.range offset 2) 0

def word32 (offset : Nat) : Except Error UInt32 := do
  return word32At (← file.range offset 4) 0

/-- Refuses a file that does not start with the identifier. -/
def requireIdentifier (identifier : String) : Except Error Unit := do
  let found ← file.range 0 identifier.utf8ByteSize
  if found.data = identifier.toUTF8.data then return ()
  else throw (.corruptIndex s!"{file.name}: missing {identifier} identifier")

/-- The offset of the table whose sector is stored at `pointer`; sector zero means no table. -/
def table? (pointer : Nat) : Except Error (Option Nat) := do
  let sector := (← file.word32 pointer).toNat
  if sector = 0 then return none
  else if sectorOffset sector < file.data.size then return some (sectorOffset sector)
  else
    let place := Text.markedHex pointer
    throw (.corruptIndex s!"{file.name}: table pointer at {place} (sector {sector}) outside file")

end IndexFile

end OpticalDisc
