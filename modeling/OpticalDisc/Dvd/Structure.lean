import OpticalDisc.PlaybackTime

/-!
# The tables of a DVD

A video manager lists the titles of the disc. Each title belongs to a title set, whose chapters
point into program chains: ordered lists of cells, which are ranges of sectors in the title set's
video files. Numbers keep the width they have on disc.
-/

namespace OpticalDisc

/-- One entry of the disc's title table. -/
structure TitleRecord where
  playbackType : UInt8 := 0
  angleCount : UInt8 := 0
  partCount : UInt16 := 0
  parentalMask : UInt16 := 0
  /-- The title set that holds the title, from one. -/
  titleSet : UInt8 := 0
  /-- The number of the title in its title set, from one. -/
  titleInSet : UInt8 := 0
  /-- Where the title set starts on disc. -/
  startSector : UInt32 := 0
  deriving DecidableEq, Repr

structure VideoManager where
  titleSetCount : UInt16
  titles : List TitleRecord
  deriving DecidableEq, Repr

/-- Where a cell stands in a block of camera angles. -/
inductive AngleRole
  /-- Outside of any block. -/
  | none
  | member
  /-- The last member of its block. -/
  | last
  deriving DecidableEq, Repr

namespace AngleRole

/-- The role that a cell's block mode and block type name: type 1 is an angle block, and mode 3
its last cell. -/
def ofModeAndType (mode type : Nat) : AngleRole :=
  if type ≠ 1 then none
  else if mode = 3 then last
  else member

def inBlock : AngleRole → Bool
  | none => false
  | member | last => true

end AngleRole

/-- A range of sectors in the video files of a title set, both ends included. -/
structure Cell where
  firstSector : UInt32
  lastSector : UInt32
  role : AngleRole := .none
  time : PlaybackTime := {}
  deriving DecidableEq, Repr

namespace Cell

/-- The largest sector number. -/
def maxSector : Nat := UInt32.size - 1

variable (cell : Cell)

/-- The sector after the last one, held to the range of sector numbers. -/
def endSector : Nat :=
  min (cell.lastSector.toNat + 1) maxSector

def sectorCount : Nat :=
  cell.endSector - cell.firstSector.toNat

end Cell

structure ProgramChain where
  time : PlaybackTime := {}
  /-- The entry cell of each program, from one. -/
  programMap : List UInt8
  cells : List Cell
  deriving DecidableEq, Repr

/-- A chapter entry point: a program of a program chain, both from one. -/
structure PartOfTitle where
  chain : UInt16
  program : UInt16
  deriving DecidableEq, Repr

structure TitleSet where
  /-- The chapters of each title. -/
  parts : List (List PartOfTitle)
  /-- The program chains, unless the title set has no table of them. -/
  chains : Option (Array ProgramChain)
  deriving DecidableEq, Repr

/-- The element with a number counted from one. -/
def numbered? {α : Type} (list : List α) (number : Nat) : Option α :=
  match number with
  | 0 => none
  | i + 1 => list[i]?

namespace TitleSet

variable (set : TitleSet)

def partsOfTitle? (title : Nat) : Option (List PartOfTitle) :=
  numbered? set.parts title

/-- The program chain with a number counted from one. -/
def chain? (number : Nat) : Option ProgramChain :=
  match number with
  | 0 => none
  | i + 1 => do (← set.chains)[i]?

/-- The first chapter of a title. -/
def firstPart? (title : Nat) : Option PartOfTitle := do
  (← set.partsOfTitle? title).head?

end TitleSet

end OpticalDisc
