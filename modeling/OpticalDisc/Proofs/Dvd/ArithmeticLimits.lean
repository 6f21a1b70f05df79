import OpticalDisc.Proofs.PlaybackSeconds
import OpticalDisc.Proofs.TimeConversion
import OpticalDisc.Proofs.Dvd.ChapterTimeline
import OpticalDisc.Proofs.Dvd.FolderVideo
import OpticalDisc.Proofs.Dvd.IndexTables
import OpticalDisc.Proofs.Dvd.PlayheadWords
import OpticalDisc.Proofs.Dvd.TitleChoice
import OpticalDisc.Settings

/-!
# Arithmetic limits of a parsed disc

A chain on disc counts its cells in one byte, a cell has no more sectors than there are sector
numbers, and no playback time comes to a week. So the sums along a plan stay far below their words,
whatever the bytes of a disc are, and so do the times that are told in a time base which a user can
set. The guarded operations stop where a step leaves its word; none of them does.
-/

namespace OpticalDisc

open Playhead (word? difference? word?_of_lt difference?_of_le)

theorem word?_bind {α : Type} {limit n : Nat} (h : n < limit) (next : Nat → Option α) :
    (word? limit n).bind next = next n := by
  rw [word?_of_lt h, Option.bind_some]

namespace ProgramChain

theorem length_of_decodeCells {file : IndexFile} {base count : Nat} {cells : List Cell}
    (h : decodeCells file base count = .ok cells) : cells.length = count := by
  unfold decodeCells at h
  split at h
  · rename_i hzero
    obtain rfl := Except.ok.inj h
    exact hzero.symm
  · obtain ⟨offset, -, h⟩ := except_bind_eq_ok_iff.1 h
    dsimp only at h
    split at h
    · simp [throw, throwThe, MonadExceptOf.throw, bind, Except.bind] at h
    · obtain ⟨bytes, -, h⟩ := except_bind_eq_ok_iff.1 h
      obtain rfl := Except.ok.inj h
      rw [List.length_map, List.length_range]

theorem length_cells_of_decode {file : IndexFile} {base : Nat} {chain : ProgramChain}
    (h : decode file base = .ok chain) : chain.cells.length ≤ 255 := by
  simp only [decode, except_bind_eq_ok_iff] at h
  obtain ⟨_, -, cellCount, -, _, -, _, -, cells, hcells, heq⟩ := h
  obtain rfl := Except.ok.inj heq
  have hcount := cellCount.toNat_lt
  rw [length_of_decodeCells hcells]
  omega

end ProgramChain

namespace TitleSet

theorem length_cells_of_decodeChains {file : IndexFile} {base : Nat} {chains : Array ProgramChain}
    (h : decodeChains file base = .ok chains) : ∀ chain ∈ chains, chain.cells.length ≤ 255 := by
  simp only [decodeChains, except_bind_eq_ok_iff] at h
  obtain ⟨_, -, list, hlist, heq⟩ := h
  obtain rfl := Except.ok.inj heq
  intro chain hchain
  apply forall_mem_of_mapM_eq_ok (p := fun chain => chain.cells.length ≤ 255) hlist
  · intro i chain hread
    obtain ⟨_, -, hdecode⟩ := except_bind_eq_ok_iff.1 hread
    exact ProgramChain.length_cells_of_decode hdecode
  · exact List.mem_toArray.1 hchain

theorem length_cells_of_chainTable {file : IndexFile} {chains : Array ProgramChain}
    (h : chainTable file = .ok (some chains)) : ∀ chain ∈ chains, chain.cells.length ≤ 255 := by
  obtain ⟨base?, -, h⟩ := except_bind_eq_ok_iff.1 h
  cases base? with
  | none => cases h
  | some base =>
    obtain ⟨found, hfound, heq⟩ := except_bind_eq_ok_iff.1 h
    obtain rfl := Option.some.inj (Except.ok.inj heq)
    exact length_cells_of_decodeChains hfound

theorem length_cells_of_decode {data : ByteArray} {set : TitleSet} (h : decode data = .ok set)
    {number : Nat} {chain : ProgramChain} (hchain : set.chain? number = some chain) :
    chain.cells.length ≤ 255 := by
  simp only [decode_eq, except_bind_eq_ok_iff] at h
  obtain ⟨_, -, parts, -, chains?, hchains, heq⟩ := h
  obtain rfl := Except.ok.inj heq
  cases number with
  | zero => cases hchain
  | succ i =>
    obtain ⟨chains, rfl, hfound⟩ := Option.bind_eq_some_iff.1 hchain
    exact length_cells_of_chainTable hchains chain (Array.mem_of_getElem? hfound)

end TitleSet

namespace PlaybackTime

variable (t : PlaybackTime)

/-- The ticks of a week, which no playback time comes to, whatever its digits are. -/
def tickLimit : Nat := 7 * 24 * 3600 * discClock

theorem ticks_lt_tickLimit : t.ticks < tickLimit := by
  have hdiv := t.ticks_div
  have hseconds := t.seconds_le
  have hframes := t.frameSeconds_le
  unfold discClock at hdiv
  unfold tickLimit discClock
  omega

theorem ticks_le_limit : t.ticks ≤ 255 * tickLimit :=
  t.ticks_lt_tickLimit.le.trans (Nat.le_mul_of_pos_left _ (by decide))

def guardedTicks : Option Nat := do
  let hours ← word? UInt64.size (packedDecimal t.hour.toNat * 3600)
  let minutes ← word? UInt64.size (packedDecimal t.minute.toNat * 60)
  let whole ← word? UInt64.size (hours + minutes)
  let seconds ← word? UInt64.size (whole + packedDecimal t.second.toNat)
  let base ← word? UInt64.size (seconds * discClock)
  match t.frameRate? with
  | some (num, den) => do
    let frames ← word? UInt64.size (packedDecimal (t.frame.toNat % 64) * discClock)
    let scaled ← word? UInt64.size (frames * den)
    word? UInt64.size (base + scaled / num)
  | none => some base

theorem guardedTicks_eq : t.guardedTicks = some t.ticks := by
  have hhour := packedDecimal_le t.hour.toNat_lt
  have hminute := packedDecimal_le t.minute.toNat_lt
  have hsecond := packedDecimal_le t.second.toNat_lt
  have hframes : packedDecimal (t.frame.toNat % 64) ≤ 45 := t.frames_le
  have hword {n : Nat} (hn : n < 2 ^ 64) (next : Nat → Option Nat) :
      (word? UInt64.size n).bind next = next n := word?_bind hn next
  have hlast {n : Nat} (hn : n < 2 ^ 64) : word? UInt64.size n = some n := word?_of_lt hn
  unfold guardedTicks ticks seconds discClock
  rcases t.frameRate?_cases with hrate | hrate | hrate <;>
    simp (disch := omega) only [hrate, hword, Option.bind_eq_bind]
  · exact hlast (by omega)
  · exact hlast (by omega)

end PlaybackTime

def Cell.byteLimit : Nat := sectorOffset Cell.maxSector

namespace Route

variable (route : Route)

/-- The segments of a walk in machine words: the length of a segment is a difference of 32-bit words,
and bytes and ticks add up to 64-bit words, also behind the last segment. A cell outside of the chain
stops the walk. -/
def guardedSegmentsFrom (cell byteOffset startTime : Nat) : Option (List Segment) :=
  match _hc : route.chain.cells[cell]? with
  | none => none
  | some c => do
    let sectors ← difference? c.endSector c.firstSector.toNat
    let bytes ← word? UInt64.size (sectorOffset sectors)
    let nextByte ← word? UInt64.size (byteOffset + bytes)
    let ticks ← c.time.guardedTicks
    let nextTime ← word? UInt64.size (startTime + ticks)
    let segment : Segment :=
      { cell, firstSector := c.firstSector.toNat, endSector := c.endSector, byteOffset, startTime }
    match _hn : route.next? cell with
    | none => some [segment]
    | some next => return segment :: (← guardedSegmentsFrom next nextByte nextTime)
termination_by route.chain.cells.length - cell
decreasing_by
  have := route.lt_of_next? _hn
  have := (List.getElem?_eq_some_iff.1 _hc).1
  omega

/-- A walk that has come to `cell` by single cells has spent no more than these have at most. -/
structure WithinBudget (cell byteOffset startTime : Nat) : Prop where
  bytes_le : byteOffset ≤ cell * Cell.byteLimit
  ticks_le : startTime ≤ cell * PlaybackTime.tickLimit

theorem withinBudget_zero (cell : Nat) : WithinBudget cell 0 0 :=
  ⟨Nat.zero_le _, Nat.zero_le _⟩

end Route

theorem Cell.bytes_le_byteLimit (cell : Cell) :
    sectorOffset (cell.endSector - cell.firstSector.toNat) ≤ byteLimit := by
  have hend : cell.endSector ≤ maxSector := Nat.min_le_right ..
  apply Nat.mul_le_mul_right
  omega

namespace Route

section Budget

variable {cell next byteOffset startTime : Nat}

/-- One cell further, what may be spent has grown by one cell or more. -/
theorem spend_le {spent cost limit : Nat} (hspent : spent ≤ cell * limit) (hcost : cost ≤ limit)
    (hlt : cell < next) : spent + cost ≤ next * limit :=
  calc spent + cost
      ≤ cell * limit + limit := Nat.add_le_add hspent hcost
    _ = (cell + 1) * limit := (Nat.succ_mul ..).symm
    _ ≤ next * limit := Nat.mul_le_mul_right _ hlt

theorem WithinBudget.step (h : WithinBudget cell byteOffset startTime) (c : Cell)
    (hlt : cell < next) : WithinBudget next
      (byteOffset + sectorOffset (c.endSector - c.firstSector.toNat))
      (startTime + c.time.ticks) where
  bytes_le := spend_le h.bytes_le c.bytes_le_byteLimit hlt
  ticks_le := spend_le h.ticks_le c.time.ticks_lt_tickLimit.le hlt

theorem WithinBudget.bounds (h : WithinBudget cell byteOffset startTime) (hle : cell ≤ 255) :
    byteOffset ≤ 255 * Cell.byteLimit ∧ startTime ≤ 255 * PlaybackTime.tickLimit := by
  constructor
  · exact h.bytes_le.trans (Nat.mul_le_mul_right _ hle)
  · exact h.ticks_le.trans (Nat.mul_le_mul_right _ hle)

end Budget

theorem byteLimit_lt : 255 * Cell.byteLimit < UInt64.size := by decide

theorem tickLimit_lt : 255 * PlaybackTime.tickLimit < UInt64.size := by decide

variable {route : Route}

theorem guardedSegmentsFrom_of_words {cell byteOffset startTime : Nat} {c : Cell}
    (hc : route.chain.cells[cell]? = some c) (hplayable : c.Playable)
    (hbytes : byteOffset + sectorOffset (c.endSector - c.firstSector.toNat) < UInt64.size)
    (hticks : startTime + c.time.ticks < UInt64.size) :
    route.guardedSegmentsFrom cell byteOffset startTime =
      match route.next? cell with
      | none => some [⟨cell, c.firstSector.toNat, c.endSector, byteOffset, startTime⟩]
      | some next =>
        (route.guardedSegmentsFrom next
          (byteOffset + sectorOffset (c.endSector - c.firstSector.toNat))
          (startTime + c.time.ticks)).map
          (⟨cell, c.firstSector.toNat, c.endSector, byteOffset, startTime⟩ :: ·) := by
  have hfirst : c.firstSector.toNat ≤ c.endSector := by
    rw [Cell.endSector_eq hplayable]
    exact Nat.le_succ_of_le hplayable.first_le
  rw [guardedSegmentsFrom]
  split
  · simp_all
  · rename_i d hd
    obtain rfl := Option.some.inj (hc.symm.trans hd)
    simp only [difference?_of_le hfirst, Option.bind_eq_bind, Option.bind_some,
      word?_bind ((Nat.le_add_left _ _).trans_lt hbytes), word?_bind hbytes,
      PlaybackTime.guardedTicks_eq, word?_bind hticks]
    split
    · rename_i hnext
      rw [hnext]
    · rename_i next hnext
      rw [hnext]
      exact Option.map_eq_bind.symm

/-- No step of a walk through a chain of at most 255 cells leaves its words. The budget carries the
induction: every step goes on by a cell or more, and spends no more than one cell may. -/
theorem Accepted.guardedSegmentsFrom_eq (hr : route.Accepted) {cell byteOffset startTime : Nat}
    (hlength : route.chain.cells.length ≤ 255) (hlt : cell < route.chain.cells.length)
    (hbudget : WithinBudget cell byteOffset startTime) :
    route.guardedSegmentsFrom cell byteOffset startTime =
      some (route.segmentsFrom cell byteOffset startTime) := by
  have hc := List.getElem?_eq_getElem hlt
  -- the sums behind the last cell are words as well, although no segment starts there
  have hstep := hbudget.step route.chain.cells[cell] cell.lt_succ_self
  obtain ⟨hbytes, hticks⟩ := hstep.bounds (by omega)
  rw [guardedSegmentsFrom_of_words hc (hr.playable hc) (hbytes.trans_lt byteLimit_lt)
    (hticks.trans_lt tickLimit_lt), segmentsFrom_eq hc]
  cases hnext : route.next? cell with
  | none => rfl
  | some next =>
    have hbefore := route.lt_of_next? hnext
    dsimp only
    rw [hr.guardedSegmentsFrom_eq hlength (hr.next?_lt_length hnext) (hbudget.step _ hbefore)]
    rfl
termination_by route.chain.cells.length - cell
decreasing_by omega

theorem Accepted.withinBudget_of_mem (hr : route.Accepted) {cell byteOffset startTime : Nat}
    (hlt : cell < route.chain.cells.length) (hbudget : WithinBudget cell byteOffset startTime)
    {segment : Segment} (hmem : segment ∈ route.segmentsFrom cell byteOffset startTime) :
    segment.cell < route.chain.cells.length ∧
      WithinBudget segment.cell segment.byteOffset segment.startTime := by
  have hc := List.getElem?_eq_getElem hlt
  rw [segmentsFrom_eq hc] at hmem
  rcases List.mem_cons.1 hmem with rfl | hmem
  · exact ⟨hlt, hbudget⟩
  · cases hnext : route.next? cell with
    | none => simp [hnext] at hmem
    | some next =>
      have hbefore := route.lt_of_next? hnext
      rw [hnext] at hmem
      exact hr.withinBudget_of_mem (hr.next?_lt_length hnext) (hbudget.step _ hbefore) hmem
termination_by route.chain.cells.length - cell
decreasing_by omega

def guardedSegments (route : Route) : Option (List Segment) :=
  route.guardedSegmentsFrom route.entry 0 0

end Route

def guardedLengthOf (segments : List Segment) : Option Nat :=
  match segments.getLast? with
  | none => some 0
  | some segment => do
    let sectors ← difference? segment.endSector segment.firstSector
    let bytes ← word? UInt64.size (sectorOffset sectors)
    word? UInt64.size (segment.byteOffset + bytes)

def signedWord? (n : Nat) : Option Int :=
  if (n : Int) ≤ maxWord then some n else none

theorem signedWord?_of_le {n : Nat} (h : (n : Int) ≤ maxWord) : signedWord? n = some (n : Int) :=
  if_pos h

namespace Route

def guardedCloseChapters (finish : Nat) : List (Nat × Nat) → Option (List Chapter)
  | [] => some []
  | (index, start) :: rest => do
    let stop := max (rest.head?.elim finish (·.2)) start
    let start ← signedWord? start
    let stop ← signedWord? stop
    return { index, start, finish := stop, timeBase := .disc } ::
      (← guardedCloseChapters finish rest)

theorem guardedCloseChapters_eq {finish : Nat} {starts : List (Nat × Nat)}
    (h : TimesFit finish starts) :
    guardedCloseChapters finish starts = some (closeChapters finish starts) := by
  induction starts with
  | nil => rfl
  | cons first rest ih =>
    obtain ⟨index, start⟩ := first
    obtain ⟨hfinish, hstarts⟩ := h
    obtain ⟨hstart, hrest⟩ := List.forall_mem_cons.1 hstarts
    have hfit : TimesFit finish rest := ⟨hfinish, hrest⟩
    have hstop := hfit.stop_le hstart 0
    rw [← List.head?_eq_getElem?] at hstop
    simp only [guardedCloseChapters, closeChapters, signedWord?_of_le hstart, signedWord_of_le hstart,
      signedWord?_of_le hstop, signedWord_of_le hstop, ih hfit, Option.bind_eq_bind,
      Option.bind_some, Option.pure_def]

def guardedChapters (route : Route) (parts : List PartOfTitle) (finish : Nat) :
    Option (List Chapter) := do
  let segments ← route.guardedSegments
  guardedCloseChapters finish (parts.zipIdx.filterMap fun (part, index) => do
    return (index, ← startTime? segments (← route.chapterCell? part)))

end Route

def Chapter.guardedInBase (chapter : Chapter) (base : TimeBase) : Option Chapter := do
  let start ← TimeBase.guardedConvert chapter.start chapter.timeBase base
  let finish ← TimeBase.guardedConvert chapter.finish chapter.timeBase base
  return { chapter with start, finish, timeBase := base }

/-- The times of a title of 255 cells can be told in every fraction of a second that is a 32-bit
word. -/
theorem guardedConvert_disc {value : Int} {den : Nat} (hvalue : 0 ≤ value)
    (hle : value ≤ (255 * PlaybackTime.tickLimit : Nat)) (hden : 0 < den)
    (hlt : den < UInt32.size) :
    TimeBase.guardedConvert value .disc ⟨1, den⟩ = some (TimeBase.convert value .disc ⟨1, den⟩) ∧
      IsNearest (TimeBase.exactTicks value .disc ⟨1, den⟩)
        (TimeBase.convert value .disc ⟨1, den⟩) := by
  have hbase : TimeBase.Positive ⟨1, den⟩ := ⟨Int.one_pos, Int.natCast_pos.2 hden⟩
  have hproduct : |value * 1 * den| ≤ (255 * PlaybackTime.tickLimit : Nat) * UInt32.size := by
    rw [mul_one, abs_of_nonneg (Int.mul_nonneg hvalue (Int.natCast_nonneg den))]
    apply mul_le_mul hle _ (Int.natCast_nonneg den) (Int.natCast_nonneg _)
    exact_mod_cast hlt.le
  apply TimeBase.guardedConvert_eq TimeBase.positive_disc hbase
  · apply (add_le_add_left hproduct _).trans_lt
    dsimp only
    decide
  · dsimp only
    decide
  · apply hproduct.trans
    dsimp only
    decide

namespace Route

def guardedDuration (route : Route) (base : TimeBase) : Option Int := do
  let ticks ← route.chain.time.guardedTicks
  TimeBase.guardedConvert (← signedWord? ticks) .disc base

/-- No step on a route, or in what is told of it in a time base, leaves its machine word, and what is
told is rounded to the nearest tick. -/
structure WithinLimits (route : Route) (base : TimeBase) : Prop where
  segments_eq : route.guardedSegments = some route.segments
  length_eq : guardedLengthOf route.segments = some (Playhead.lengthOf route.segments)
  length_le : Playhead.lengthOf route.segments ≤ 255 * (2 ^ 32 - 1) * 2048
  startTime_le {segment : Segment} : segment ∈ route.segments → (segment.startTime : Int) ≤ maxWord
  ticks_le : (route.chain.time.ticks : Int) ≤ maxWord
  chapters_eq (parts : List PartOfTitle) :
    route.guardedChapters parts route.chain.time.ticks =
      some (route.chapters parts route.chain.time.ticks)
  told {parts : List PartOfTitle} {chapter : Chapter} :
    chapter ∈ route.chapters parts route.chain.time.ticks →
      chapter.guardedInBase base = some (chapter.inBase base) ∧
      IsNearest (TimeBase.exactTicks chapter.start .disc base) (chapter.inBase base).start ∧
      IsNearest (TimeBase.exactTicks chapter.finish .disc base) (chapter.inBase base).finish
  duration_eq : route.guardedDuration base =
    some (TimeBase.convert route.chain.time.ticks .disc base)
  duration_nearest : IsNearest (TimeBase.exactTicks route.chain.time.ticks .disc base)
    (TimeBase.convert route.chain.time.ticks .disc base)

variable {route : Route}

theorem Accepted.totalTicks_le (hr : route.Accepted)
    (hentry : Canonical route.chain.cells route.angle route.entry)
    (hlength : route.chain.cells.length ≤ 255) :
    route.totalTicks ≤ 255 * PlaybackTime.tickLimit := by
  have hplan : route.PlansFrom route.entry 0 route.segments := hr.plansFrom hentry
  have hall : ∀ ticks ∈ route.segments.map route.chain.ticksOf, ticks ≤ PlaybackTime.tickLimit := by
    intro ticks hticks
    obtain ⟨segment, -, rfl⟩ := List.mem_map.1 hticks
    unfold ProgramChain.ticksOf
    cases route.chain.cells[segment.cell]? with
    | none => exact Nat.zero_le _
    | some cell => exact cell.time.ticks_lt_tickLimit.le
  calc route.totalTicks
      ≤ (route.segments.map route.chain.ticksOf).length * PlaybackTime.tickLimit :=
        List.sum_le_card_nsmul _ _ hall
    _ ≤ 255 * PlaybackTime.tickLimit := by
        rw [List.length_map]
        exact Nat.mul_le_mul_right _ (hplan.length_le.trans hlength)

theorem Accepted.end_le (hr : route.Accepted) (hlength : route.chain.cells.length ≤ 255)
    {segment : Segment} (hmem : segment ∈ route.segments) :
    segment.byteOffset + segment.byteLength ≤ 255 * Cell.byteLimit := by
  obtain ⟨hlt, hbudget⟩ := hr.withinBudget_of_mem hr.entry_lt (withinBudget_zero _) hmem
  have hend := (hr.segments_inOrder.playable hmem).end_le
  have hbytes : segment.byteLength ≤ Cell.byteLimit := Nat.mul_le_mul_right _ (by omega)
  exact spend_le hbudget.bytes_le hbytes (hlt.trans_le hlength)

theorem Accepted.guardedLengthOf_eq (hr : route.Accepted)
    (hlength : route.chain.cells.length ≤ 255) :
    guardedLengthOf route.segments = some (Playhead.lengthOf route.segments) ∧
      Playhead.lengthOf route.segments ≤ 255 * Cell.byteLimit := by
  unfold guardedLengthOf Playhead.lengthOf
  cases hlast : route.segments.getLast? with
  | none => exact ⟨rfl, Nat.zero_le _⟩
  | some segment =>
    have hmem := List.mem_of_getLast? hlast
    have hfirst := (hr.segments_inOrder.playable hmem).first_lt.le
    have hend := hr.end_le hlength hmem
    have hword := hend.trans_lt byteLimit_lt
    refine ⟨?_, hend⟩
    simp only [difference?_of_le hfirst, Option.bind_eq_bind, Option.bind_some]
    rw [← Segment.byteLength, word?_bind ((Nat.le_add_left _ _).trans_lt hword), word?_of_lt hword]

theorem tickLimit_le : ((255 * PlaybackTime.tickLimit : Nat) : Int) ≤ maxWord := by decide

section Chapters

variable {parts : List PartOfTitle} {chapter : Chapter}

theorem Accepted.timesFit_of_length (hr : route.Accepted)
    (hentry : Canonical route.chain.cells route.angle route.entry)
    (hlength : route.chain.cells.length ≤ 255) (parts : List PartOfTitle) :
    TimesFit route.chain.time.ticks (route.chapterStarts parts) := by
  apply hr.timesFit hentry (PlaybackTime.ticks_le _)
  exact (Int.ofNat_le.2 (hr.totalTicks_le hentry hlength)).trans tickLimit_le

theorem Accepted.chapter_bounds (hr : route.Accepted)
    (hentry : Canonical route.chain.cells route.angle route.entry)
    (hlength : route.chain.cells.length ≤ 255)
    (hmem : chapter ∈ route.chapters parts route.chain.time.ticks) :
    chapter.timeBase = .disc ∧ 0 ≤ chapter.start ∧ chapter.start ≤ chapter.finish ∧
      chapter.finish ≤ (255 * PlaybackTime.tickLimit : Nat) := by
  have hfit := hr.timesFit_of_length hentry hlength parts
  have hbase := hfit.timeBase_eq hmem
  have hle := hfit.start_le hmem
  have htotal := hr.totalTicks_le hentry hlength
  have hstarts : ∀ p ∈ route.chapterStarts parts, p.2 ≤ 255 * PlaybackTime.tickLimit := by
    intro p hp
    exact (hr.start_le_totalTicks hentry parts p hp).trans htotal
  have hticks := route.chain.time.ticks_le_limit
  obtain ⟨i, hi⟩ := List.getElem?_of_mem hmem
  obtain ⟨start, hstart, hstartEq, hfinishEq, -⟩ := hfit.closed hi
  refine ⟨hbase, ?_, hle, ?_⟩
  · rw [hstartEq]
    exact Int.natCast_nonneg _
  · rw [hfinishEq]
    apply max_le
    · exact Int.ofNat_le.2 (hstarts _ (List.mem_of_getElem? hstart))
    · apply Int.ofNat_le.2
      exact next_of_forall (p := fun time => time ≤ 255 * PlaybackTime.tickLimit) hticks hstarts
        (i + 1)

end Chapters

/-- The limits are out of reach on a chain of at most 255 cells, in every fraction of a second that is
a 32-bit word. -/
theorem Accepted.withinLimits (hr : route.Accepted)
    (hentry : Canonical route.chain.cells route.angle route.entry)
    (hlength : route.chain.cells.length ≤ 255) {den : Nat} (hden : 0 < den)
    (hlt : den < UInt32.size) : route.WithinLimits ⟨1, den⟩ := by
  have hsegments : route.guardedSegments = some route.segments :=
    hr.guardedSegmentsFrom_eq hlength hr.entry_lt (withinBudget_zero _)
  obtain ⟨hguarded, hle⟩ := hr.guardedLengthOf_eq hlength
  have hticks := Int.ofNat_le.2 route.chain.time.ticks_le_limit
  have hduration := guardedConvert_disc (Int.natCast_nonneg _) hticks hden hlt
  constructor
  case segments_eq => exact hsegments
  case length_eq => exact hguarded
  case length_le => exact hle.trans (by decide)
  case startTime_le =>
    intro segment hmem
    obtain ⟨hcell, hbudget⟩ := hr.withinBudget_of_mem hr.entry_lt (withinBudget_zero _) hmem
    exact (Int.ofNat_le.2 (hbudget.bounds (by omega)).2).trans tickLimit_le
  case ticks_le => exact PlaybackTime.ticks_le _
  case chapters_eq =>
    intro parts
    rw [guardedChapters, hsegments]
    exact guardedCloseChapters_eq (hr.timesFit_of_length hentry hlength parts)
  case told =>
    intro parts chapter hmem
    obtain ⟨hbase, hstart, hstop, hfinish⟩ := hr.chapter_bounds hentry hlength hmem
    have hstartTold := guardedConvert_disc hstart (hstop.trans hfinish) hden hlt
    have hfinishTold := guardedConvert_disc (hstart.trans hstop) hfinish hden hlt
    simp only [Chapter.guardedInBase, Chapter.inBase, hbase, hstartTold.1, hfinishTold.1,
      Option.bind_eq_bind, Option.bind_some, Option.pure_def, true_and]
    exact ⟨hstartTold.2, hfinishTold.2⟩
  case duration_eq =>
    have hword := PlaybackTime.ticks_le route.chain.time
    rw [guardedDuration, PlaybackTime.guardedTicks_eq, Option.bind_eq_bind, Option.bind_some,
      signedWord?_of_le hword, Option.bind_eq_bind, Option.bind_some, hduration.1]
  case duration_nearest => exact hduration.2

end Route

/-- The routes that a title set has: from the first chapter of a title, or from any program of one of
its chains, under any number. -/
inductive TitleSet.Resolves (set : TitleSet) : Route → Prop
  | title {title angle : Nat} {route : Route} (h : Route.ofTitle set title angle = .ok route) :
    Resolves set route
  | program {index program angle : Nat} {number : UInt16} {chain : ProgramChain} {route : Route}
    (hchain : set.chain? index = some chain)
    (h : Route.ofChain number chain program angle = .ok route) : Resolves set route

theorem TitleSet.Resolves.exists_ofChain {set : TitleSet} {route : Route} (h : set.Resolves route) :
    ∃ (index program : Nat) (number : UInt16), set.chain? index = some route.chain ∧
      Route.ofChain number route.chain program route.angle = .ok route := by
  cases h with
  | title h =>
    obtain ⟨number, program, hchain, hroute⟩ := Route.exists_ofChain_of_ofTitle h
    obtain ⟨-, -, rfl⟩ := Route.accepted_of_ofChain hroute
    exact ⟨number.toNat, program, number, hchain, hroute⟩
  | @program index program _ number _ _ hchain h =>
    obtain ⟨-, rfl, rfl⟩ := Route.accepted_of_ofChain h
    exact ⟨index, program, number, hchain, h⟩

theorem Settings.timeBaseDen_pos {settings : Settings} (h : settings.fault? = none) :
    0 < settings.output.timeBaseDen := by
  apply Nat.pos_of_ne_zero
  intro hzero
  simp only [fault?, hzero, if_true] at h
  split at h
  · cases h
  · grind

/-- On the routes of a title set that has been read, from whatever bytes, no arithmetic limit is
reached: not by the bytes and ticks of a plan, not by the times of chapters, and not when durations
and chapters are told in the time base of faultless settings. -/
theorem TitleSet.limits_out_of_reach {data : ByteArray} {set : TitleSet} {route : Route}
    {settings : Settings} (hset : decode data = .ok set) (hroute : set.Resolves route)
    (hvalid : settings.fault? = none) (hword : settings.output.timeBaseDen < UInt32.size) :
    route.WithinLimits settings.output.timeBase := by
  obtain ⟨index, program, number, hchain, hroute⟩ := hroute.exists_ofChain
  apply (Route.accepted_of_ofChain hroute).1.withinLimits
  · exact Route.canonical_entry_of_ofChain hroute
  · exact length_cells_of_decode hset hchain
  · exact Settings.timeBaseDen_pos hvalid
  · exact hword

/-- The one title of a title set with two sectors of video, in microseconds. -/
theorem TitleSet.limits_out_of_reach_split :
    ∃ route, decode DiscFolder.splitTitleSet.encode = .ok DiscFolder.splitTitleSet ∧
      DiscFolder.splitTitleSet.Resolves route ∧ ({} : Settings).fault? = none ∧
      ({} : Settings).output.timeBaseDen < UInt32.size ∧ route.WithinLimits .micros := by
  have hroute : Route.ofTitle DiscFolder.splitTitleSet 1 0 =
    .ok ⟨1, ⟨{}, [1], [⟨0, 1, .none, {}⟩]⟩, [], 0, 0⟩ := rfl
  have hvalid : ({} : Settings).fault? = none := by decide
  have hword : ({} : Settings).output.timeBaseDen < UInt32.size := by decide
  exact ⟨_, DiscFolder.decode_splitTitleSet, .title hroute, hvalid, hword,
    limits_out_of_reach DiscFolder.decode_splitTitleSet (.title hroute) hvalid hword⟩

end OpticalDisc
