import OpticalDisc.Catalog
import OpticalDisc.Dvd.Structure
import OpticalDisc.Storage.Sectors

/-!
# Routes through a program chain

A program chain lists its cells in playing order, but the cells of an angle block are alternatives:
only the one of the chosen angle plays. A `Route` is a chain whose cells and blocks have been
checked, with an angle and the cell to start from. Its `segments` are the cells that play, in order,
with their places in the linear stream.
-/

namespace OpticalDisc

/-- Consecutive cells that are alternatives of each other, both ends included. -/
structure AngleBlock where
  first : Nat
  last : Nat
  deriving DecidableEq, Repr

namespace AngleBlock

def width (block : AngleBlock) : Nat :=
  block.last - block.first + 1

def contains (block : AngleBlock) (cell : Nat) : Bool :=
  block.first ≤ cell && cell ≤ block.last

end AngleBlock

/-- Refuses a cell whose range of sectors is empty or ends at the very last sector number. -/
def Cell.check (cell : Cell) (index : Nat) : Except Error Unit :=
  let first := cell.firstSector.toNat
  let last := cell.lastSector.toNat
  if last = maxSector then
    .error (.corruptIndex s!"cell {index + 1} ends at sector {last}, past the addressable range")
  else if last < first then
    .error (.corruptIndex
      s!"cell {index + 1} ends at sector {last} before it starts at {first}")
  else .ok ()

/-- Checks `cells`, the first of which has this index, and finds their angle blocks. `start?` is the
first cell of a block that is still to end. -/
def angleBlocks (index : Nat) (start? : Option Nat) : List Cell → Except Error (List AngleBlock)
  | [] =>
    match start? with
    | none => .ok []
    | some start =>
      .error (.corruptIndex s!"angle block at cell {start + 1} runs past end of chain")
  | cell :: rest => do
    cell.check index
    match cell.role, start? with
    | .none, none => angleBlocks (index + 1) none rest
    | .none, some start =>
      throw (.corruptIndex
        s!"angle block at cell {start + 1} not terminated before cell {index + 1}")
    | .member, _ => angleBlocks (index + 1) (some (start?.getD index)) rest
    | .last, _ =>
      return ⟨start?.getD index, index⟩ :: (← angleBlocks (index + 1) none rest)

/-- The index of the cell at which a program starts, whatever the angle. -/
def ProgramChain.entryCell (chain : ProgramChain) (program : Nat) : Except Error Nat :=
  match numbered? chain.programMap program with
  | none =>
    .error (.corruptIndex
      s!"program {program} outside program map (1..={chain.programMap.length})")
  | some number =>
    if 1 ≤ number.toNat ∧ number.toNat ≤ chain.cells.length then .ok (number.toNat - 1)
    else
      .error (.corruptIndex
        s!"program {program} entry cell {number.toNat} outside chain (1..={chain.cells.length})")

/-- A choice of angle that some block has no member for. -/
def AngleBlock.tooNarrow (block : AngleBlock) (angle : Nat) : Error :=
  .outOfRange "angle" angle block.width

/-- A checked program chain with an angle and an entry cell. -/
structure Route where
  chainNumber : UInt16
  chain : ProgramChain
  blocks : List AngleBlock
  angle : Nat
  entry : Nat
  deriving DecidableEq, Repr

/-- One cell of a route, in its place in the linear stream. -/
structure Segment where
  /-- The index of the cell in its chain. -/
  cell : Nat
  firstSector : Nat
  /-- The sector after the last one. -/
  endSector : Nat
  byteOffset : Nat
  /-- In 90 kHz ticks. -/
  startTime : Nat
  deriving DecidableEq, Repr

def Segment.byteLength (segment : Segment) : Nat :=
  sectorOffset (segment.endSector - segment.firstSector)

/-- The block that holds a cell. -/
def blockOf? (blocks : List AngleBlock) (cell : Nat) : Option AngleBlock :=
  blocks.find? (·.contains cell)

/-- The cell that plays instead of `cell` at an angle, counted from the start of its block. -/
def atAngle (blocks : List AngleBlock) (angle cell : Nat) : Except Error Nat :=
  match blockOf? blocks cell with
  | none => .ok cell
  | some block =>
    if block.first + angle ≤ block.last then .ok (block.first + angle)
    else .error (block.tooNarrow angle)

namespace Route

/-- The route through a chain that starts at a program. Every block has to be wide enough for the
angle, also those that are not played. -/
def ofChain (chainNumber : UInt16) (chain : ProgramChain) (program angle : Nat) :
    Except Error Route := do
  let blocks ← angleBlocks 0 none chain.cells
  if let some block := blocks.find? (·.width ≤ angle) then
    throw (block.tooNarrow angle)
  let entry ← atAngle blocks angle (← chain.entryCell program)
  return { chainNumber, chain, blocks, angle, entry }

/-- The route of a title from its first chapter on. -/
def ofTitle (set : TitleSet) (title angle : Nat) : Except Error Route :=
  match set.partsOfTitle? title with
  | none =>
    .error (.corruptIndex
      s!"VTS title {title} outside part-of-title table (1..={set.parts.length})")
  | some [] => .error (.corruptIndex s!"VTS title {title} has no chapters")
  | some (first :: _) =>
    match set.chain? first.chain.toNat with
    | none =>
      .error (.corruptIndex
        s!"VTS title {title} references missing program chain {first.chain.toNat}")
    | some chain => ofChain first.chain chain first.program.toNat angle

variable (route : Route)

/-- The cell after the block of `cell`, or after `cell` itself outside of any block. -/
def following (cell : Nat) : Nat :=
  match blockOf? route.blocks cell with
  | some block => block.last + 1
  | none => cell + 1

/-- The cell that plays after `cell`. A block is entered at the chosen angle. -/
def next? (cell : Nat) : Option Nat :=
  if cell < route.chain.cells.length then
    let following := route.following cell
    match route.chain.cells[following]? with
    | none => none
    | some target => some (if target.role.inBlock then following + route.angle else following)
  else none

theorem lt_following (cell : Nat) : cell < route.following cell := by
  unfold following
  split
  · rename_i block h
    have := List.find?_some h
    simp only [AngleBlock.contains, Bool.and_eq_true, decide_eq_true_eq] at this
    omega
  · omega

theorem lt_of_next? {cell next : Nat} (h : route.next? cell = some next) : cell < next := by
  have := route.lt_following cell
  grind [next?]

/-- The segments from a cell on, when the stream has come to `byteOffset` and `startTime`. -/
def segmentsFrom (cell byteOffset startTime : Nat) : List Segment :=
  match _hc : route.chain.cells[cell]? with
  | none => []
  | some c =>
    let segment : Segment :=
      { cell, firstSector := c.firstSector.toNat, endSector := c.endSector, byteOffset, startTime }
    segment ::
      match _hn : route.next? cell with
      | none => []
      | some next =>
        segmentsFrom next (byteOffset + segment.byteLength) (startTime + c.time.ticks)
termination_by route.chain.cells.length - cell
decreasing_by
  have := route.lt_of_next? _hn
  have := (List.getElem?_eq_some_iff.1 _hc).1
  omega

/-- The cells that play, in order from the entry cell. -/
def segments : List Segment :=
  route.segmentsFrom route.entry 0 0

/-- The cell that plays at the start of a chapter, if the chapter belongs to this chain. -/
def chapterCell? (part : PartOfTitle) : Option Nat :=
  if part.chain = route.chainNumber then do
    let cell ← (route.chain.entryCell part.program.toNat).toOption
    (atAngle route.blocks route.angle cell).toOption
  else none

/-- When a cell starts to play, if it is one of these segments. -/
def startTime? (segments : List Segment) (cell : Nat) : Option Nat :=
  (segments.find? (·.cell = cell)).map (·.startTime)

/-- Chapters that reach from their start to the next one's, the last to `finish`, and never end
before they start. -/
def closeChapters (finish : Nat) : List (Nat × Nat) → List Chapter
  | [] => []
  | (index, start) :: rest =>
    let stop := max (rest.head?.elim finish (·.2)) start
    { index, start := signedWord start, finish := signedWord stop, timeBase := .disc } ::
      closeChapters finish rest

/-- The chapters that this route plays, in the time base of the disc, for a title that ends at
`finish`. Chapters keep their index among all parts of the title. -/
def chapters (parts : List PartOfTitle) (finish : Nat) : List Chapter :=
  let segments := route.segments
  closeChapters finish (parts.zipIdx.filterMap fun (part, index) => do
    return (index, ← startTime? segments (← route.chapterCell? part)))

end Route

end OpticalDisc
