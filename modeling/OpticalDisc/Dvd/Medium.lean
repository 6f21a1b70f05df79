import OpticalDisc.Dvd.Route

/-!
# DVD media and their titles

A `DvdMedium` gives access to the tables and the video of a disc. Scanning it reads every title set
that some title refers to, once, in ascending order, and makes the catalog.
-/

namespace OpticalDisc

/-- Read access to a DVD whose video is read from devices of type `σ`. -/
class DvdMedium (δ : Type) (σ : outParam Type) where
  /-- The name of the volume, if it has one. -/
  volumeName? : δ → Option String
  openManager : EStateM Error δ VideoManager
  openTitleSet (number : Nat) : EStateM Error δ TitleSet
  /-- The video files of a title set, as one device. -/
  openVideo (number : Nat) : EStateM Error δ σ

/-- The title sets of a disc that have been read, by number. -/
abbrev TitleSets := List (Nat × TitleSet)

namespace VideoManager

variable (manager : VideoManager)

/-- Whether a title refers to this title set. -/
def refersTo (number : Nat) : Bool :=
  manager.titles.any (·.titleSet.toNat = number)

/-- The title sets that titles refer to, as far as the disc has them, in ascending order. -/
def referencedSets : List Nat :=
  (List.range' 1 (min manager.titleSetCount.toNat 255)).filter manager.refersTo

/-- The chain that a title starts in, if its tables can be followed. -/
def chainOf? (sets : TitleSets) (entry : TitleRecord) : Option ProgramChain := do
  let set ← sets.lookup entry.titleSet.toNat
  let first ← set.firstPart? entry.titleInSet.toNat
  set.chain? first.chain.toNat

/-- The titles of one set that can be played, by their index. -/
def playableIn (sets : TitleSets) (number : Nat) : List Nat :=
  manager.titles.zipIdx.filterMap fun (entry, index) =>
    if entry.titleSet.toNat = number ∧ (chainOf? sets entry).isSome then some index else none

/-- The catalog entry of a title. A title that cannot be followed is listed without a duration. -/
def titleOf (sets : TitleSets) (entry : TitleRecord) (index : Nat) : Title :=
  let chain? := chainOf? sets entry
  { index
    duration := chain?.elim 0 (·.time.ticks)
    chapterCount := entry.partCount.toNat
    unitCount := chain?.elim 0 (·.cells.length)
    angleCount := entry.angleCount.toNat
    reference := .dvd entry.titleSet.toNat entry.titleInSet.toNat }

/-- The catalog of a disc with these title sets. Only titles that can be followed are candidates,
title set by title set; of titles that are equally long in whole seconds the last one wins. -/
def catalog (sets : TitleSets) : Catalog where
  titles := (manager.titles.zipIdx.map fun (entry, index) => titleOf sets entry index).toArray
  candidates := sets.flatMap fun (number, _) => manager.playableIn sets number
  tieRule := .last
  precision := .wholeSeconds

end VideoManager

namespace DvdMedium

variable {δ σ : Type} [DvdMedium δ σ]

/-- Reads the title sets that titles refer to. A title set that cannot be opened fails the scan. -/
def openSets (manager : VideoManager) : EStateM Error δ TitleSets :=
  manager.referencedSets.mapM fun number => do
    return (number, ← openTitleSet number)

/-- The catalog of a disc, made without opening any title. -/
def scan : EStateM Error δ Catalog := do
  let manager ← openManager
  return manager.catalog (← openSets manager)

end DvdMedium

end OpticalDisc
