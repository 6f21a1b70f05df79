import OpticalDisc.Proofs.Dvd.CanonicalCells
import OpticalDisc.Proofs.Dvd.PlayheadInvariant

/-!
# The plan of a route

The segments of an accepted route are the canonical cells from its entry on, each once and in order.
They lie one behind the other, in bytes and in playing time, without gaps.
-/

namespace OpticalDisc

def Segment.sectorCount (segment : Segment) : Nat :=
  segment.endSector - segment.firstSector

theorem length_plannedSectors (segments : List Segment) :
    (plannedSectors segments).length = (segments.map (·.sectorCount)).sum := by
  induction segments with
  | nil => rfl
  | cons segment rest ih =>
    rw [plannedSectors_cons, List.length_append, Segment.length_sectors, ih, List.map_cons,
      List.sum_cons, Segment.sectorCount]

namespace ProgramChain

def ticksOf (chain : ProgramChain) (segment : Segment) : Nat :=
  chain.cells[segment.cell]?.elim 0 (·.time.ticks)

/-- The segment is a cell of the chain, with its sectors. -/
def Carries (chain : ProgramChain) (segment : Segment) : Prop :=
  ∃ cell, chain.cells[segment.cell]? = some cell ∧
    segment.firstSector = cell.firstSector.toNat ∧ segment.endSector = cell.lastSector.toNat + 1

end ProgramChain

namespace Route

variable {route : Route}

/-- The segments are the canonical cells from `index` on, and the first starts at `startTime`. -/
structure PlansFrom (route : Route) (index startTime : Nat) (segments : List Segment) : Prop where
  increasing : (segments.map (·.cell)).Pairwise (· < ·)
  mem_iff {i : Nat} : i ∈ segments.map (·.cell) ↔
    Canonical route.chain.cells route.angle i ∧ index ≤ i
  carries {segment : Segment} : segment ∈ segments → route.chain.Carries segment
  startTime_eq {i : Nat} {segment : Segment} : segments[i]? = some segment →
    segment.startTime = startTime + ((segments.take i).map route.chain.ticksOf).sum

theorem PlansFrom.last {segment : Segment} (hcarries : route.chain.Carries segment)
    (hcanonical : Canonical route.chain.cells route.angle segment.cell)
    (hend : ∀ i, Canonical route.chain.cells route.angle i → i ≤ segment.cell) :
    route.PlansFrom segment.cell segment.startTime [segment] where
  increasing := List.pairwise_singleton ..
  mem_iff {i} := by
    simp only [List.map_cons, List.map_nil, List.mem_singleton]
    constructor
    · rintro rfl
      exact ⟨hcanonical, le_rfl⟩
    · rintro ⟨hi, hle⟩
      exact le_antisymm (hend i hi) hle
  carries hmem := List.mem_singleton.1 hmem ▸ hcarries
  startTime_eq {i later} hi := by
    cases i with
    | zero =>
      obtain rfl : segment = later := by simpa using hi
      simp
    | succ i => simp at hi

/-- A plan from the next canonical cell on becomes one from this cell on. -/
theorem PlansFrom.cons {segment : Segment} {rest : List Segment} {next : Nat}
    (hcarries : route.chain.Carries segment)
    (hcanonical : Canonical route.chain.cells route.angle segment.cell)
    (hlt : segment.cell < next)
    (hnext : ∀ i, Canonical route.chain.cells route.angle i → segment.cell < i → next ≤ i)
    (h : route.PlansFrom next (segment.startTime + route.chain.ticksOf segment) rest) :
    route.PlansFrom segment.cell segment.startTime (segment :: rest) where
  increasing := by
    rw [List.map_cons, List.pairwise_cons]
    refine ⟨?_, h.increasing⟩
    intro i hi
    exact hlt.trans_le (h.mem_iff.1 hi).2
  mem_iff {i} := by
    rw [List.map_cons, List.mem_cons, h.mem_iff]
    constructor
    · rintro (rfl | ⟨hi, hle⟩)
      · exact ⟨hcanonical, le_rfl⟩
      · exact ⟨hi, hlt.le.trans hle⟩
    · rintro ⟨hi, hle⟩
      rcases hle.eq_or_lt with heq | hafter
      · exact .inl heq.symm
      · exact .inr ⟨hi, hnext i hi hafter⟩
  carries hmem := by
    rcases List.mem_cons.1 hmem with rfl | hmem
    · exact hcarries
    · exact h.carries hmem
  startTime_eq {i later} hi := by
    cases i with
    | zero =>
      obtain rfl : segment = later := by simpa using hi
      simp
    | succ i =>
      rw [h.startTime_eq (by simpa using hi), List.take_succ_cons, List.map_cons, List.sum_cons]
      omega

/-- From a canonical cell on, the walk through the chain plans every canonical cell. -/
theorem Accepted.plansFrom (hr : route.Accepted) {index byteOffset startTime : Nat}
    (hcanonical : Canonical route.chain.cells route.angle index) :
    route.PlansFrom index startTime (route.segmentsFrom index byteOffset startTime) := by
  have hlt := hcanonical.lt_length
  have hcell := List.getElem?_eq_getElem hlt
  have hcarries : route.chain.Carries ⟨index, route.chain.cells[index].firstSector.toNat,
      route.chain.cells[index].endSector, byteOffset, startTime⟩ :=
    ⟨_, hcell, rfl, Cell.endSector_eq (hr.playable hcell)⟩
  rw [segmentsFrom_eq hcell]
  cases hnext : route.next? index with
  | none =>
    refine PlansFrom.last hcarries hcanonical ?_
    intro i hi
    by_contra hbehind
    have hle := hr.following_le hcanonical hi (Nat.lt_of_not_le hbehind)
    have hend := lt_following_of_next?_eq_none hlt hnext hi
    omega
  | some next =>
    obtain ⟨hnextCanonical, -, hfirst⟩ := hr.next?_eq_some hnext
    refine PlansFrom.cons hcarries hcanonical (route.lt_of_next? hnext) ?_ ?_
    · intro i hi hbehind
      exact hfirst i hi (hr.following_le hcanonical hi hbehind)
    · simp only [ProgramChain.ticksOf, hcell, Option.elim_some]
      exact hr.plansFrom hnextCanonical
termination_by route.chain.cells.length - index
decreasing_by
  have := route.lt_of_next? hnext
  omega

theorem Accepted.byteOffset_eq (hr : route.Accepted) {i : Nat} {segment : Segment}
    (h : route.segments[i]? = some segment) :
    segment.byteOffset = sectorSize * ((route.segments.take i).map (·.sectorCount)).sum := by
  rw [hr.segments_inOrder.offset h, Nat.zero_add, length_plannedSectors, sectorOffset, Nat.mul_comm]

theorem Accepted.byteOffset_succ (hr : route.Accepted) {i : Nat} {segment later : Segment}
    (h : route.segments[i]? = some segment) (hlater : route.segments[i + 1]? = some later) :
    later.byteOffset = segment.byteOffset + segment.byteLength := by
  rw [hr.segments_inOrder.offset hlater, hr.segments_inOrder.offset h,
    Playhead.length_plannedSectors_take_succ h, sectorOffset_add, Segment.byteLength]
  omega

theorem Accepted.byteOffset_lt (hr : route.Accepted) {i j : Nat} {segment later : Segment}
    (hlt : i < j) (h : route.segments[i]? = some segment)
    (hlater : route.segments[j]? = some later) : segment.byteOffset < later.byteOffset := by
  have hfirst := (Playhead.segment_playable hr h).first_lt
  have hmono := Playhead.length_plannedSectors_take_mono route.segments (Nat.succ_le_of_lt hlt)
  rw [Playhead.length_plannedSectors_take_succ h] at hmono
  rw [hr.segments_inOrder.offset h, hr.segments_inOrder.offset hlater]
  simp only [sectorOffset, sectorSize]
  omega

theorem PlansFrom.length_le {index startTime : Nat} {segments : List Segment}
    (h : route.PlansFrom index startTime segments) :
    segments.length ≤ route.chain.cells.length := by
  have hsubset : segments.map (·.cell) ⊆ List.range route.chain.cells.length := by
    intro i hi
    exact List.mem_range.2 (h.mem_iff.1 hi).1.lt_length
  have hle := (h.increasing.nodup.subperm hsubset).length_le
  rwa [List.length_map, List.length_range] at hle

/-- The segments of a route are the canonical cells from its entry on, each once and in increasing order.
Each names the cell that the next one holds, until none is left; each has the sectors of its cell, at
least one, and lies behind the bytes and the playing time of those before it. So they start at
increasing bytes, each where the one before ends, and the last ends where the stream does. -/
theorem segments_linearise {chainNumber : UInt16} {chain : ProgramChain} {program angle : Nat}
    (h : ofChain chainNumber chain program angle = .ok route) {σ : Type} (device : σ) :
    (route.segments.map (·.cell)).Pairwise (· < ·) ∧
    (∀ index, index ∈ route.segments.map (·.cell) ↔
      Canonical chain.cells angle index ∧ route.entry ≤ index) ∧
    route.segments.head?.map (·.cell) = some route.entry ∧
    route.segments.length ≤ chain.cells.length ∧
    (∀ i segment, route.segments[i]? = some segment →
      route.next? segment.cell = route.segments[i + 1]?.map (·.cell) ∧
      chain.Carries segment ∧ 0 < segment.sectorCount ∧
      segment.byteOffset = sectorSize * ((route.segments.take i).map (·.sectorCount)).sum ∧
      segment.startTime = ((route.segments.take i).map chain.ticksOf).sum) ∧
    (route.segments.map (·.byteOffset)).Pairwise (· < ·) ∧
    (∀ i segment later, route.segments[i]? = some segment → route.segments[i + 1]? = some later →
      later.byteOffset = segment.byteOffset + segment.byteLength) ∧
    ∃ last, route.segments.getLast? = some last ∧
      last.byteOffset + last.byteLength = (Playhead.ofRoute device route).length := by
  have hcanonical := canonical_entry_of_ofChain h
  obtain ⟨hr, rfl, rfl⟩ := accepted_of_ofChain h
  have hplan : route.PlansFrom route.entry 0 route.segments := hr.plansFrom hcanonical
  have horder := hr.segments_inOrder
  refine ⟨hplan.increasing, fun index => hplan.mem_iff, head?_segmentsFrom hr.entry_lt,
    hplan.length_le, ?_, ?_, fun i segment later => hr.byteOffset_succ, ?_⟩
  · intro i segment hsegment
    have hmem := List.mem_of_getElem? hsegment
    have hplayable := horder.playable hmem
    refine ⟨horder.next hsegment, hplan.carries hmem, ?_, hr.byteOffset_eq hsegment, ?_⟩
    · exact Nat.sub_pos_of_lt hplayable.first_lt
    · rw [hplan.startTime_eq hsegment, Nat.zero_add]
  · rw [List.pairwise_map, List.pairwise_iff_getElem]
    intro i j hi hj hlt
    exact hr.byteOffset_lt hlt (List.getElem?_eq_getElem hi) (List.getElem?_eq_getElem hj)
  · have hlast := List.getLast?_eq_some_getLast hr.segments_ne_nil
    refine ⟨_, hlast, ?_⟩
    rw [(Playhead.follows_ofRoute hr device).length_eq, Playhead.lengthOf, hlast]

/-- Two blocks of two angles side by side between single cells, and a program that starts in the middle
of the first. -/
def sideBySide : ProgramChain where
  programMap := [3]
  cells := [⟨0, 0, .none, {}⟩, ⟨1, 2, .member, {}⟩, ⟨3, 3, .last, { second := 1 }⟩,
    ⟨4, 4, .member, {}⟩, ⟨5, 9, .last, { second := 2 }⟩, ⟨7, 7, .none, {}⟩]

/-- At the first angle, the entry is the first block's first cell, and one cell of each block plays. -/
theorem segments_linearise_sideBySide :
    ofChain 1 sideBySide 1 0 = .ok ⟨1, sideBySide, [⟨1, 2⟩, ⟨3, 4⟩], 0, 1⟩ ∧
      ∀ index, index ∈ (segments ⟨1, sideBySide, [⟨1, 2⟩, ⟨3, 4⟩], 0, 1⟩).map (·.cell) ↔
        Canonical sideBySide.cells 0 index ∧ 1 ≤ index :=
  have h : ofChain 1 sideBySide 1 0 = .ok ⟨1, sideBySide, [⟨1, 2⟩, ⟨3, 4⟩], 0, 1⟩ := rfl
  ⟨h, (segments_linearise h ()).2.1⟩

end Route

end OpticalDisc
