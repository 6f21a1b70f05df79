import OpticalDisc.Proofs.Dvd.AngleBlocks

/-!
# Accepted routes and their segments

A route that the check lets pass never leaves its chain: the cell after any cell is a cell again. Its
segments are therefore linked twice over, by the chain and by their place in the list, and they lie
one behind the other in the linear stream. `InOrder` says both.
-/

namespace OpticalDisc

/-- A route whose blocks are those of its chain, all wide enough for the angle, and whose entry is a
cell of the chain. -/
structure Route.Accepted (route : Route) : Prop where
  blocks_eq : angleBlocks 0 none route.chain.cells = .ok route.blocks
  wide {block : AngleBlock} : block ∈ route.blocks → block.first + route.angle ≤ block.last
  entry_lt : route.entry < route.chain.cells.length

theorem ProgramChain.entryCell_lt {chain : ProgramChain} {program cell : Nat}
    (h : chain.entryCell program = .ok cell) : cell < chain.cells.length := by
  unfold entryCell at h
  split at h
  · simp at h
  · split at h
    · simp only [Except.ok.injEq] at h
      omega
    · simp at h

theorem atAngle_lt {cells : List Cell} {blocks : List AngleBlock} {angle cell target : Nat}
    (hspans : ∀ block ∈ blocks, block.Spans cells) (hcell : cell < cells.length)
    (h : atAngle blocks angle cell = .ok target) : target < cells.length := by
  unfold atAngle at h
  split at h
  · simp only [Except.ok.injEq] at h
    omega
  · rename_i block hblock
    have hlast := lt_length_of_roleAt? (hspans block (List.mem_of_find?_eq_some hblock)).last
    split at h
    · simp only [Except.ok.injEq] at h
      omega
    · simp at h

namespace Route

theorem accepted_of_ofChain {chainNumber : UInt16} {chain : ProgramChain} {program angle : Nat}
    {route : Route} (h : ofChain chainNumber chain program angle = .ok route) :
    route.Accepted ∧ route.chain = chain ∧ route.angle = angle := by
  unfold ofChain at h
  cases hblocks : angleBlocks 0 none chain.cells with
  | error e => simp [hblocks, bind, Except.bind] at h
  | ok blocks =>
    have hspans := angleBlocks_spans rfl (openRun_none _ _) hblocks
    simp only [hblocks, bind, Except.bind] at h
    cases hnarrow : blocks.find? (·.width ≤ angle) with
    | some block => simp [hnarrow, throw, throwThe, MonadExceptOf.throw] at h
    | none =>
      have hwide : ∀ block ∈ blocks, block.first + angle ≤ block.last := by
        intro block hblock
        have hwidth : angle < block.width := by
          simpa using List.find?_eq_none.1 hnarrow block hblock
        have hle := (hspans block hblock).first_le
        unfold AngleBlock.width at hwidth
        omega
      cases hcell : chain.entryCell program with
      | error e => simp [hnarrow, hcell] at h
      | ok cell =>
        cases hentry : atAngle blocks angle cell with
        | error e => simp [hnarrow, hcell, hentry] at h
        | ok entry =>
          obtain rfl : ⟨chainNumber, chain, blocks, angle, entry⟩ = route := by
            simpa [hnarrow, hcell, hentry, pure, Except.pure] using h
          have hlt := atAngle_lt hspans (ProgramChain.entryCell_lt hcell) hentry
          exact ⟨⟨hblocks, fun hb => hwide _ hb, hlt⟩, rfl, rfl⟩

theorem accepted_of_ofTitle {set : TitleSet} {title angle : Nat} {route : Route}
    (h : ofTitle set title angle = .ok route) : route.Accepted := by
  unfold ofTitle at h
  split at h
  · simp at h
  · simp at h
  · split at h
    · simp at h
    · exact (accepted_of_ofChain h).1

variable {route : Route}

theorem Accepted.playable (hr : route.Accepted) {index : Nat} {cell : Cell}
    (h : route.chain.cells[index]? = some cell) : cell.Playable :=
  playable_of_angleBlocks hr.blocks_eq cell (List.mem_of_getElem? h)

theorem Accepted.spans (hr : route.Accepted) {block : AngleBlock} (h : block ∈ route.blocks) :
    block.Spans route.chain.cells :=
  angleBlocks_spans rfl (openRun_none _ _) hr.blocks_eq block h

/-- The cell before the one that follows `cell` is no member that its block goes on behind. -/
theorem Accepted.not_member_before_following (hr : route.Accepted) {cell : Nat}
    {block : AngleBlock} (hblock : block ∈ route.blocks) (hlt : block.first < route.following cell)
    (hle : route.following cell ≤ block.last) : False := by
  cases hown : blockOf? route.blocks cell with
  | some own =>
    simp only [following, hown] at hlt hle
    have hlast := (hr.spans (List.mem_of_find?_eq_some hown)).last
    have hmember := (hr.spans hblock).member (i := own.last) (by omega) (by omega)
    simp [hlast] at hmember
  | none =>
    simp only [following, hown] at hlt hle
    have hout := List.find?_eq_none.1 hown block hblock
    rw [AngleBlock.contains_iff] at hout
    omega

theorem Accepted.first_eq_following (hr : route.Accepted) {cell : Nat} {block : AngleBlock}
    (hblock : block ∈ route.blocks) (hin : block.contains (route.following cell) = true) :
    block.first = route.following cell := by
  obtain ⟨hfirst, hlast⟩ := AngleBlock.contains_iff.1 hin
  rcases hfirst.lt_or_eq with hlt | heq
  · exact (hr.not_member_before_following hblock hlt hlast).elim
  · exact heq

theorem Accepted.next?_lt_length (hr : route.Accepted) {cell next : Nat}
    (h : route.next? cell = some next) : next < route.chain.cells.length := by
  unfold next? at h
  split at h
  · simp only at h
    split at h
    · simp at h
    · rename_i target htarget
      obtain rfl := Option.some.inj h
      split
      · rename_i hin
        obtain ⟨block, hblock, hcontains⟩ :=
          exists_contains_of_angleBlocks rfl hr.blocks_eq (Nat.zero_le _) htarget hin
        have hfirst := hr.first_eq_following hblock hcontains
        have hwide := hr.wide hblock
        have hlast := lt_length_of_roleAt? (hr.spans hblock).last
        omega
      · exact (List.getElem?_eq_some_iff.1 htarget).1
  · simp at h

end Route

def Segment.sectors (segment : Segment) : List Nat :=
  List.range' segment.firstSector (segment.endSector - segment.firstSector)

/-- The sectors of segments, in the order in which they play. -/
def plannedSectors (segments : List Segment) : List Nat :=
  segments.flatMap (·.sectors)

@[simp] theorem plannedSectors_nil : plannedSectors [] = [] := rfl

@[simp] theorem plannedSectors_cons (segment : Segment) (rest : List Segment) :
    plannedSectors (segment :: rest) = segment.sectors ++ plannedSectors rest := rfl

@[simp] theorem plannedSectors_append (front rest : List Segment) :
    plannedSectors (front ++ rest) = plannedSectors front ++ plannedSectors rest :=
  List.flatMap_append

@[simp] theorem Segment.length_sectors (segment : Segment) :
    segment.sectors.length = segment.endSector - segment.firstSector :=
  List.length_range'

theorem Segment.byteLength_eq (segment : Segment) :
    segment.byteLength = sectorOffset segment.sectors.length := by
  simp [Segment.byteLength]

theorem sectorOffset_add (m n : Nat) :
    sectorOffset (m + n) = sectorOffset m + sectorOffset n :=
  Nat.add_mul m n sectorSize

/-- A segment has at least one sector and ends inside the range of sector numbers. -/
structure Segment.Playable (segment : Segment) : Prop where
  first_lt : segment.firstSector < segment.endSector
  end_le : segment.endSector ≤ Cell.maxSector

/-- Segments that lie without gaps in the linear stream from `byteOffset` on, and whose cells follow
each other on the route up to its end. -/
structure InOrder (route : Route) (byteOffset : Nat) (segments : List Segment) : Prop where
  playable {segment : Segment} : segment ∈ segments → segment.Playable
  offset {i : Nat} {segment : Segment} : segments[i]? = some segment →
    segment.byteOffset = byteOffset + sectorOffset (plannedSectors (segments.take i)).length
  next {i : Nat} {segment : Segment} : segments[i]? = some segment →
    route.next? segment.cell = segments[i + 1]?.map (·.cell)

theorem InOrder.cons {route : Route} {byteOffset : Nat} {segment : Segment}
    {rest : List Segment} (hplay : segment.Playable) (hoffset : segment.byteOffset = byteOffset)
    (hnext : route.next? segment.cell = rest.head?.map (·.cell))
    (h : InOrder route (byteOffset + segment.byteLength) rest) :
    InOrder route byteOffset (segment :: rest) where
  playable hmem := by
    rcases List.mem_cons.1 hmem with rfl | hmem
    · exact hplay
    · exact h.playable hmem
  offset {i later} hi := by
    cases i with
    | zero =>
      obtain rfl : segment = later := by simpa using hi
      simpa [sectorOffset] using hoffset
    | succ i =>
      have hlater := @h.offset i later (by simpa using hi)
      rw [segment.byteLength_eq] at hlater
      simp only [List.take_succ_cons, plannedSectors_cons, List.length_append, sectorOffset_add]
      omega
  next {i later} hi := by
    cases i with
    | zero =>
      obtain rfl : segment = later := by simpa using hi
      simpa [List.head?_eq_getElem?] using hnext
    | succ i => simpa using @h.next i later (by simpa using hi)

theorem InOrder.tail {route : Route} {byteOffset : Nat} {segment : Segment} {rest : List Segment}
    (h : InOrder route byteOffset (segment :: rest)) :
    InOrder route (byteOffset + segment.byteLength) rest where
  playable hmem := h.playable (List.mem_cons_of_mem _ hmem)
  offset {i later} hi := by
    have hlater := @h.offset (i + 1) later (by simpa using hi)
    simp only [List.take_succ_cons, plannedSectors_cons, List.length_append, sectorOffset_add]
      at hlater
    rw [segment.byteLength_eq]
    omega
  next {i later} hi := by
    simpa using @h.next (i + 1) later (by simpa using hi)

theorem InOrder.byteOffset_head {route : Route} {byteOffset : Nat} {segment : Segment}
    {rest : List Segment} (h : InOrder route byteOffset (segment :: rest)) :
    segment.byteOffset = byteOffset := by
  simpa [sectorOffset] using @h.offset 0 segment rfl

/-- The last of the segments that start at or before a position of the stream is the one that holds
it. -/
theorem InOrder.locate {route : Route} {segments : List Segment} {byteOffset position : Nat}
    (h : InOrder route byteOffset segments) (hle : byteOffset ≤ position)
    (hlt : position < byteOffset + sectorOffset (plannedSectors segments).length) :
    ∃ i segment, (segments.takeWhile (·.byteOffset ≤ position)).length = i + 1 ∧
      segments[i]? = some segment ∧ segment.byteOffset ≤ position ∧
      position < segment.byteOffset + segment.byteLength := by
  induction segments generalizing byteOffset with
  | nil => simp [sectorOffset] at hlt; omega
  | cons segment rest ih =>
    have hhead := h.byteOffset_head
    have hstarted : segment.byteOffset ≤ position := by omega
    by_cases hin : position < byteOffset + segment.byteLength
    · -- the rest starts behind the position
      refine ⟨0, segment, ?_, rfl, by omega, by omega⟩
      cases rest with
      | nil => simp [hstarted]
      | cons next rest =>
        have hnext := h.tail.byteOffset_head
        have hlater : ¬ next.byteOffset ≤ position := by omega
        simp [hstarted, hlater]
    · rw [plannedSectors_cons, List.length_append, sectorOffset_add, ← segment.byteLength_eq] at hlt
      obtain ⟨i, found, hlength, hfound, hbounds⟩ := ih h.tail (by omega) (by omega)
      refine ⟨i + 1, found, ?_, by simpa using hfound, hbounds⟩
      simp [hstarted, hlength]

theorem Cell.endSector_eq {cell : Cell} (h : cell.Playable) :
    cell.endSector = cell.lastSector.toNat + 1 := by
  have := h.last_lt
  unfold Cell.endSector
  omega

namespace Route

variable {route : Route}

theorem segmentsFrom_eq {cell byteOffset startTime : Nat} {c : Cell}
    (hc : route.chain.cells[cell]? = some c) :
    route.segmentsFrom cell byteOffset startTime =
      ⟨cell, c.firstSector.toNat, c.endSector, byteOffset, startTime⟩ ::
        match route.next? cell with
        | none => []
        | some next =>
          route.segmentsFrom next
            (byteOffset + sectorOffset (c.endSector - c.firstSector.toNat))
            (startTime + c.time.ticks) := by
  rw [segmentsFrom]
  split
  · simp_all
  · rename_i d hd
    obtain rfl := Option.some.inj (hc.symm.trans hd)
    simp only [Segment.byteLength]
    split <;> simp_all

theorem head?_segmentsFrom {cell byteOffset startTime : Nat}
    (hcell : cell < route.chain.cells.length) :
    (route.segmentsFrom cell byteOffset startTime).head?.map (·.cell) = some cell := by
  rw [segmentsFrom_eq (List.getElem?_eq_getElem hcell)]
  rfl

theorem Accepted.segmentsFrom_inOrder (hr : route.Accepted) {cell byteOffset startTime : Nat}
    (hcell : cell < route.chain.cells.length) :
    InOrder route byteOffset (route.segmentsFrom cell byteOffset startTime) := by
  have hc := List.getElem?_eq_getElem hcell
  have hplay := hr.playable hc
  have hsegment : Segment.Playable
      ⟨cell, route.chain.cells[cell].firstSector.toNat, route.chain.cells[cell].endSector,
        byteOffset, startTime⟩ := by
    have := hplay.first_le
    have := hplay.last_lt
    constructor <;> simp only [Cell.endSector_eq hplay] <;> omega
  rw [segmentsFrom_eq hc]
  cases hnext : route.next? cell with
  | none =>
    refine InOrder.cons hsegment rfl (by simp [hnext]) ⟨?_, ?_, ?_⟩ <;> simp
  | some next =>
    have hlt := hr.next?_lt_length hnext
    refine InOrder.cons hsegment rfl ?_ (hr.segmentsFrom_inOrder hlt)
    rw [hnext, head?_segmentsFrom hlt]
termination_by route.chain.cells.length - cell
decreasing_by
  have := route.lt_of_next? hnext
  omega

/-- The segments of an accepted route fill the linear stream from its start, in playing order. -/
theorem Accepted.segments_inOrder (hr : route.Accepted) : InOrder route 0 route.segments :=
  hr.segmentsFrom_inOrder hr.entry_lt

theorem Accepted.segments_ne_nil (hr : route.Accepted) : route.segments ≠ [] := by
  have h := @head?_segmentsFrom route route.entry 0 0 hr.entry_lt
  rintro hnil
  simp [segments] at hnil
  simp [hnil] at h

end Route

end OpticalDisc
