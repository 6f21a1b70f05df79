import OpticalDisc.Proofs.Dvd.LinearPlan

/-!
# Chapters on the timeline of a route

A part of the title leads to a cell of the played chain, or nowhere. It is a chapter when that cell is
not before the entry of the route, and starts when the segments before the cell have played. Chapters
reach up to the next one, so that they tile the timeline when they come in its order.
-/

namespace OpticalDisc

/-- The cell that plays at an angle in place of the one at `index`: the cell itself outside of every
run, and in a run the one that the angle names. -/
def PlaysFor (cells : List Cell) (angle index target : Nat) : Prop :=
  (roleAt? cells index = some .none ∧ target = index) ∨
    ∃ block : AngleBlock, block.IsRun cells ∧ block.contains index = true ∧
      target = block.first + angle

theorem ProgramChain.entryCell_eq_ok_iff {chain : ProgramChain} {program cell : Nat} :
    chain.entryCell program = .ok cell ↔ ∃ number, 1 ≤ program ∧
      chain.programMap[program - 1]? = some number ∧ 1 ≤ number.toNat ∧
      number.toNat ≤ chain.cells.length ∧ cell = number.toNat - 1 := by
  cases program with
  | zero => simp [entryCell, numbered?]
  | succ i =>
    simp only [entryCell, numbered?, Nat.add_sub_cancel]
    cases chain.programMap[i]? with
    | none => simp
    | some number =>
      by_cases hcell : 1 ≤ number.toNat ∧ number.toNat ≤ chain.cells.length
      · simp [hcell, eq_comm]
      · simp only [if_neg hcell, reduceCtorEq, Option.some.injEq, false_iff]
        rintro ⟨_, -, rfl, hone, hle, -⟩
        exact hcell ⟨hone, hle⟩

namespace Route

variable {route : Route}

theorem Accepted.atAngle_eq_ok_iff (hr : route.Accepted) {index target : Nat}
    (hlt : index < route.chain.cells.length) :
    atAngle route.blocks route.angle index = .ok target ↔
      PlaysFor route.chain.cells route.angle index target := by
  unfold atAngle PlaysFor
  cases hblock : blockOf? route.blocks index with
  | none =>
    have hsingle := hr.single_of_blockOf? hlt hblock
    simp only [Except.ok.injEq]
    constructor
    · rintro rfl
      exact .inl ⟨hsingle, rfl⟩
    · rintro (⟨-, rfl⟩ | ⟨block, hrun, hcontains, -⟩)
      · rfl
      · exact absurd hsingle (hrun.not_single hcontains)
  | some block =>
    obtain ⟨hrun, hcontains⟩ := hr.isRun_of_blockOf? hblock
    have hwide := hr.wide (hr.mem_blocks_iff.2 hrun)
    simp only [if_pos hwide, Except.ok.injEq]
    constructor
    · rintro rfl
      exact .inr ⟨block, hrun, hcontains, rfl⟩
    · rintro (⟨hsingle, -⟩ | ⟨own, hown, hcontains', rfl⟩)
      · exact absurd hsingle (hrun.not_single hcontains)
      · rw [hrun.eq_of_contains hown hcontains hcontains']

/-- The part names the played chain, a program of its map and through it a cell of the chain, and
`cell` plays in place of that. -/
def LeadsTo (route : Route) (part : PartOfTitle) (cell : Nat) : Prop :=
  part.chain = route.chainNumber ∧ 1 ≤ part.program.toNat ∧
    ∃ number, route.chain.programMap[part.program.toNat - 1]? = some number ∧
      1 ≤ number.toNat ∧ number.toNat ≤ route.chain.cells.length ∧
      PlaysFor route.chain.cells route.angle (number.toNat - 1) cell

theorem Accepted.chapterCell?_eq_some_iff (hr : route.Accepted) {part : PartOfTitle} {cell : Nat} :
    route.chapterCell? part = some cell ↔ route.LeadsTo part cell := by
  have hoption {α : Type} {x : Except Error α} {a : α} : x.toOption = some a ↔ x = .ok a := by
    cases x <;> simp [Except.toOption]
  unfold chapterCell? LeadsTo
  by_cases hchain : part.chain = route.chainNumber
  · simp only [hchain, if_true, true_and, bind, Option.bind_eq_some_iff, hoption,
      ProgramChain.entryCell_eq_ok_iff]
    constructor
    · rintro ⟨_, ⟨number, hprogram, hnumber, hone, hle, rfl⟩, hangle⟩
      exact ⟨hprogram, number, hnumber, hone, hle, (hr.atAngle_eq_ok_iff (by omega)).1 hangle⟩
    · rintro ⟨hprogram, number, hnumber, hone, hle, hplays⟩
      exact ⟨_, ⟨number, hprogram, hnumber, hone, hle, rfl⟩,
        (hr.atAngle_eq_ok_iff (by omega)).2 hplays⟩
  · simp [hchain]

theorem Accepted.canonical_of_leadsTo (hr : route.Accepted) {part : PartOfTitle} {cell : Nat}
    (h : route.LeadsTo part cell) : Canonical route.chain.cells route.angle cell := by
  obtain ⟨-, -, number, -, hone, hle, hplays⟩ := h
  have hlt : number.toNat - 1 < route.chain.cells.length := by omega
  exact hr.canonical_of_atAngle hlt ((hr.atAngle_eq_ok_iff hlt).2 hplays)

/-- The playing time of the segments of cells before this one, in 90 kHz ticks. -/
def ticksBefore (route : Route) (cell : Nat) : Nat :=
  ((route.segments.filter (·.cell < cell)).map route.chain.ticksOf).sum

def totalTicks (route : Route) : Nat :=
  (route.segments.map route.chain.ticksOf).sum

theorem ticksBefore_le (route : Route) (cell : Nat) : route.ticksBefore cell ≤ route.totalTicks :=
  (List.filter_sublist.map _).sum_le_sum fun _ _ => Nat.zero_le _

/-- The segments of earlier cells are those that stand in front. -/
theorem PlansFrom.filter_eq_take {index startTime i : Nat} {segments : List Segment}
    {segment : Segment} (h : route.PlansFrom index startTime segments)
    (hsegment : segments[i]? = some segment) :
    segments.filter (·.cell < segment.cell) = segments.take i := by
  obtain ⟨hlt, hget⟩ := List.getElem?_eq_some_iff.1 hsegment
  have hsplit : segments = segments.take i ++ segment :: segments.drop (i + 1) := by
    rw [← hget, ← List.drop_eq_getElem_cons hlt, List.take_append_drop]
  have hpairs := List.pairwise_map.1 h.increasing
  rw [hsplit, List.pairwise_append, List.pairwise_cons] at hpairs
  obtain ⟨-, ⟨hbehind, -⟩, hfront⟩ := hpairs
  conv_lhs => rw [hsplit]
  rw [List.filter_append, List.filter_eq_self.2, List.filter_eq_nil_iff.2, List.append_nil]
  · intro later hlater
    rcases List.mem_cons.1 hlater with rfl | hlater
    · simp
    · simpa using (hbehind later hlater).le
  · intro earlier hearlier
    simpa using hfront earlier hearlier segment List.mem_cons_self

/-- A cell of the plan starts to play after the segments before it. -/
theorem Accepted.startTime?_eq_some_iff (hr : route.Accepted)
    (hentry : Canonical route.chain.cells route.angle route.entry) {cell start : Nat} :
    startTime? route.segments cell = some start ↔
      (Canonical route.chain.cells route.angle cell ∧ route.entry ≤ cell) ∧
        start = route.ticksBefore cell := by
  have hplan : route.PlansFrom route.entry 0 route.segments := hr.plansFrom hentry
  rw [← hplan.mem_iff]
  unfold startTime?
  cases hfind : route.segments.find? (·.cell = cell) with
  | none =>
    have hnone := List.find?_eq_none.1 hfind
    simp only [Option.map_none, reduceCtorEq, List.mem_map, false_iff, not_and]
    rintro ⟨segment, hsegment, hcell⟩
    exact absurd hcell (by simpa using hnone segment hsegment)
  | some segment =>
    obtain rfl : segment.cell = cell := by simpa using List.find?_some hfind
    have hmem := List.mem_of_find?_eq_some hfind
    obtain ⟨i, hi⟩ := List.getElem?_of_mem hmem
    have hstart : segment.startTime = route.ticksBefore segment.cell := by
      rw [ticksBefore, hplan.filter_eq_take hi, hplan.startTime_eq hi, Nat.zero_add]
    simp [List.mem_map_of_mem hmem, hstart, eq_comm]

/-- The chapters that the parts of a title make, each with the index of its part and its start. -/
def chapterStarts (route : Route) (parts : List PartOfTitle) : List (Nat × Nat) :=
  parts.zipIdx.filterMap fun (part, index) => do
    return (index, ← startTime? route.segments (← route.chapterCell? part))

theorem chapters_eq (route : Route) (parts : List PartOfTitle) (finish : Nat) :
    route.chapters parts finish = closeChapters finish (route.chapterStarts parts) := rfl

theorem Accepted.mem_chapterStarts_iff (hr : route.Accepted)
    (hentry : Canonical route.chain.cells route.angle route.entry) {parts : List PartOfTitle}
    {index start : Nat} : (index, start) ∈ route.chapterStarts parts ↔
      ∃ part cell, parts[index]? = some part ∧ route.LeadsTo part cell ∧ route.entry ≤ cell ∧
        start = route.ticksBefore cell := by
  simp only [chapterStarts, List.mem_filterMap, Prod.exists, List.mem_zipIdx_iff_getElem?,
    Option.bind_eq_bind, Option.bind_eq_some_iff, Option.pure_def, Option.some.injEq, Prod.mk.injEq,
    hr.chapterCell?_eq_some_iff, hr.startTime?_eq_some_iff hentry]
  constructor
  · rintro ⟨part, _, hpart, cell, hleads, _, ⟨⟨-, hle⟩, hstart⟩, rfl, rfl⟩
    exact ⟨part, cell, hpart, hleads, hle, hstart⟩
  · rintro ⟨part, cell, hpart, hleads, hle, hstart⟩
    exact ⟨part, index, hpart, cell, hleads, start, ⟨⟨hr.canonical_of_leadsTo hleads, hle⟩, hstart⟩,
      rfl, rfl⟩

theorem pairwise_chapterStarts (route : Route) (parts : List PartOfTitle) :
    ((route.chapterStarts parts).map Prod.fst).Pairwise (· < ·) := by
  have hindex : (parts.zipIdx.map Prod.snd).Pairwise (· < ·) := by
    rw [List.zipIdx_map_snd]
    exact List.pairwise_lt_range' 1
  rw [List.pairwise_map, chapterStarts, List.pairwise_filterMap]
  apply (List.pairwise_map.1 hindex).imp
  intro p q hlt a ha b hb
  simp only [Option.bind_eq_bind, Option.bind_eq_some_iff, Option.pure_def, Option.some.injEq]
    at ha hb
  obtain ⟨_, -, _, -, rfl⟩ := ha
  obtain ⟨_, -, _, -, rfl⟩ := hb
  exact hlt

end Route

section Closing

variable {finish : Nat} {starts : List (Nat × Nat)}

/-- A chapter reaches up to the next one, and the last one up to the end of the title. -/
theorem getElem?_closeChapters (finish : Nat) (starts : List (Nat × Nat)) (i : Nat) :
    (Route.closeChapters finish starts)[i]? = starts[i]?.map fun (index, start) =>
      { index
        start := signedWord start
        finish := signedWord (max (starts[i + 1]?.elim finish (·.2)) start)
        timeBase := .disc } := by
  induction starts generalizing i with
  | nil => rfl
  | cons first rest ih =>
    cases i with
    | zero => simp [Route.closeChapters, List.head?_eq_getElem?]
    | succ i => simpa [Route.closeChapters] using ih i

theorem map_index_closeChapters (finish : Nat) (starts : List (Nat × Nat)) :
    (Route.closeChapters finish starts).map (·.index) = starts.map Prod.fst := by
  induction starts with
  | nil => rfl
  | cons first rest ih => rw [Route.closeChapters, List.map_cons, List.map_cons, ih]

/-- Times that are counted in signed words without wrapping. -/
def TimesFit (finish : Nat) (starts : List (Nat × Nat)) : Prop :=
  (finish : Int) ≤ maxWord ∧ ∀ p ∈ starts, (p.2 : Int) ≤ maxWord

theorem next_of_forall {p : Nat → Prop} (hfinish : p finish) (hstarts : ∀ q ∈ starts, p q.2)
    (i : Nat) : p (starts[i]?.elim finish (·.2)) := by
  cases hnext : starts[i]? with
  | none => exact hfinish
  | some next => exact hstarts _ (List.mem_of_getElem? hnext)

theorem TimesFit.stop_le (h : TimesFit finish starts) {start : Nat} (hstart : (start : Int) ≤ maxWord)
    (i : Nat) : ((max (starts[i]?.elim finish (·.2)) start : Nat) : Int) ≤ maxWord := by
  rw [Nat.cast_max]
  apply max_le _ hstart
  exact next_of_forall (p := fun time => (time : Int) ≤ maxWord) h.1 h.2 i

theorem TimesFit.closed (h : TimesFit finish starts) {i : Nat} {chapter : Chapter}
    (hchapter : (Route.closeChapters finish starts)[i]? = some chapter) :
    ∃ start, starts[i]? = some (chapter.index, start) ∧ chapter.start = start ∧
      chapter.finish = max (start : Int) (starts[i + 1]?.elim finish (·.2) : Nat) ∧
      chapter.timeBase = .disc := by
  rw [getElem?_closeChapters, Option.map_eq_some_iff] at hchapter
  obtain ⟨⟨index, start⟩, hstart, rfl⟩ := hchapter
  dsimp only
  have hfirst : (start : Int) ≤ maxWord := h.2 _ (List.mem_of_getElem? hstart)
  have hclosed := h.stop_le hfirst (i + 1)
  refine ⟨start, hstart, signedWord_of_le hfirst, ?_, rfl⟩
  rw [signedWord_of_le hclosed, Nat.cast_max, max_comm]

theorem TimesFit.start_le (h : TimesFit finish starts) {chapter : Chapter}
    (hmem : chapter ∈ Route.closeChapters finish starts) : chapter.start ≤ chapter.finish := by
  obtain ⟨i, hi⟩ := List.getElem?_of_mem hmem
  obtain ⟨start, -, hstart, hfinish, -⟩ := h.closed hi
  rw [hstart, hfinish]
  exact le_max_left ..

theorem TimesFit.timeBase_eq (h : TimesFit finish starts) {chapter : Chapter}
    (hmem : chapter ∈ Route.closeChapters finish starts) : chapter.timeBase = .disc := by
  obtain ⟨i, hi⟩ := List.getElem?_of_mem hmem
  obtain ⟨_, -, -, -, hbase⟩ := h.closed hi
  exact hbase

theorem TimesFit.finish_eq (h : TimesFit finish starts) {i : Nat} {chapter next : Chapter}
    (hchapter : (Route.closeChapters finish starts)[i]? = some chapter)
    (hnext : (Route.closeChapters finish starts)[i + 1]? = some next) :
    chapter.finish = max chapter.start next.start := by
  obtain ⟨start, -, hstart, hfinish, -⟩ := h.closed hchapter
  obtain ⟨later, hlater, hlaterStart, -, -⟩ := h.closed hnext
  rw [hfinish, hlater, hstart, hlaterStart, Option.elim_some]

theorem TimesFit.last_finish (h : TimesFit finish starts) {last : Chapter}
    (hlast : (Route.closeChapters finish starts).getLast? = some last) :
    last.finish = max last.start finish := by
  have hlength : (Route.closeChapters finish starts).length = starts.length := by
    have hmap := congrArg List.length (map_index_closeChapters finish starts)
    rwa [List.length_map, List.length_map] at hmap
  rw [List.getLast?_eq_getElem?, hlength] at hlast
  obtain ⟨start, hsome, hstart, hfinish, -⟩ := h.closed hlast
  have hlt := (List.getElem?_eq_some_iff.1 hsome).1
  have hnone : starts[starts.length - 1 + 1]? = none := by
    apply List.getElem?_eq_none
    omega
  rw [hfinish, hnone, hstart, Option.elim_none]

end Closing

/-- The chapters fill the time from `start` up to `stop`, one behind the other, without a gap and
without an overlap. -/
structure Tiles (chapters : List Chapter) (start stop : Int) : Prop where
  start_le : start ≤ stop
  within {chapter : Chapter} : chapter ∈ chapters →
    start ≤ chapter.start ∧ chapter.start ≤ chapter.finish ∧ chapter.finish ≤ stop
  apart : chapters.Pairwise fun a b => a.finish ≤ b.start
  covers {time : Int} : start ≤ time → time < stop →
    ∃ chapter ∈ chapters, chapter.start ≤ time ∧ time < chapter.finish

theorem Tiles.single {chapter : Chapter} (h : chapter.start ≤ chapter.finish) :
    Tiles [chapter] chapter.start chapter.finish where
  start_le := h
  within hmem := by
    obtain rfl := List.mem_singleton.1 hmem
    exact ⟨le_rfl, h, le_rfl⟩
  apart := List.pairwise_singleton ..
  covers hstart hstop := ⟨chapter, List.mem_singleton_self _, hstart, hstop⟩

theorem Tiles.cons {first : Chapter} {rest : List Chapter} {stop : Int}
    (hfirst : first.start ≤ first.finish) (h : Tiles rest first.finish stop) :
    Tiles (first :: rest) first.start stop where
  start_le := hfirst.trans h.start_le
  within hmem := by
    rcases List.mem_cons.1 hmem with rfl | hmem
    · exact ⟨le_rfl, hfirst, h.start_le⟩
    · obtain ⟨hstart, hle, hstop⟩ := h.within hmem
      exact ⟨hfirst.trans hstart, hle, hstop⟩
  apart := by
    apply List.pairwise_cons.2
    constructor
    · intro later hlater
      exact (h.within hlater).1
    · exact h.apart
  covers {time} hstart hstop := by
    by_cases hin : time < first.finish
    · exact ⟨first, List.mem_cons_self, hstart, hin⟩
    · obtain ⟨chapter, hmem, htime⟩ := h.covers (Int.not_lt.1 hin) hstop
      exact ⟨chapter, List.mem_cons_of_mem _ hmem, htime⟩

/-- Chapters that end where the next one starts tile the time from the first to the last. -/
theorem tiles_of_abut {first : Chapter} {rest : List Chapter}
    (hle : ∀ chapter ∈ first :: rest, chapter.start ≤ chapter.finish)
    (habut : ∀ (i : Nat) (chapter next : Chapter), (first :: rest)[i]? = some chapter →
      (first :: rest)[i + 1]? = some next → chapter.finish = next.start) {last : Chapter}
    (hlast : (first :: rest).getLast? = some last) :
    Tiles (first :: rest) first.start last.finish := by
  induction rest generalizing first with
  | nil =>
    obtain rfl : first = last := by simpa using hlast
    exact .single (hle first List.mem_cons_self)
  | cons next rest ih =>
    have hnext : first.finish = next.start := habut 0 first next rfl rfl
    have hrest : Tiles (next :: rest) next.start last.finish := by
      apply ih
      · intro chapter hmem
        exact hle chapter (List.mem_cons_of_mem _ hmem)
      · intro i chapter later hchapter hlater
        exact habut (i + 1) chapter later hchapter hlater
      · rwa [List.getLast?_cons_cons] at hlast
    exact .cons (hle first List.mem_cons_self) (hnext ▸ hrest)

namespace Route

/-- What the chapters of a route are, for a title that ends at `finish`. -/
structure Timeline (route : Route) (parts : List PartOfTitle) (finish : Nat)
    (chapters : List Chapter) : Prop where
  /-- The parts that are chapters lead to a cell that is not before the entry. -/
  mem_iff {i : Nat} : i ∈ chapters.map (·.index) ↔
    ∃ part cell, parts[i]? = some part ∧ route.LeadsTo part cell ∧ route.entry ≤ cell
  start_eq {chapter : Chapter} {part : PartOfTitle} {cell : Nat} : chapter ∈ chapters →
    parts[chapter.index]? = some part → route.LeadsTo part cell →
    chapter.start = route.ticksBefore cell
  increasing : (chapters.map (·.index)).Pairwise (· < ·)
  start_le {chapter : Chapter} : chapter ∈ chapters → chapter.start ≤ chapter.finish
  finish_eq {i : Nat} {chapter next : Chapter} : chapters[i]? = some chapter →
    chapters[i + 1]? = some next → chapter.finish = max chapter.start next.start
  last_finish {last : Chapter} : chapters.getLast? = some last →
    last.finish = max last.start finish
  tiles {first last : Chapter} : (chapters.map (·.start)).Pairwise (· ≤ ·) →
    chapters.head? = some first → chapters.getLast? = some last →
    Tiles chapters first.start (max finish last.start)
  timeBase_eq {chapter : Chapter} : chapter ∈ chapters → chapter.timeBase = .disc

variable {route : Route}

theorem Accepted.start_le_totalTicks (hr : route.Accepted)
    (hentry : Canonical route.chain.cells route.angle route.entry) (parts : List PartOfTitle) :
    ∀ p ∈ route.chapterStarts parts, p.2 ≤ route.totalTicks := by
  rintro ⟨index, start⟩ hmem
  obtain ⟨_, cell, -, -, -, rfl⟩ := (hr.mem_chapterStarts_iff hentry).1 hmem
  exact route.ticksBefore_le cell

theorem Accepted.timesFit (hr : route.Accepted)
    (hentry : Canonical route.chain.cells route.angle route.entry) {finish : Nat}
    (hfinish : (finish : Int) ≤ maxWord) (hticks : (route.totalTicks : Int) ≤ maxWord)
    (parts : List PartOfTitle) : TimesFit finish (route.chapterStarts parts) := by
  refine ⟨hfinish, ?_⟩
  intro p hmem
  exact (Int.ofNat_le.2 (hr.start_le_totalTicks hentry parts p hmem)).trans hticks

theorem Accepted.leadsTo_unique (hr : route.Accepted) {part : PartOfTitle} {cell other : Nat}
    (h : route.LeadsTo part cell) (hother : route.LeadsTo part other) : cell = other := by
  rw [← hr.chapterCell?_eq_some_iff] at h hother
  exact Option.some.inj (h.symm.trans hother)

theorem Accepted.mem_index_chapters_iff (hr : route.Accepted)
    (hentry : Canonical route.chain.cells route.angle route.entry) {parts : List PartOfTitle}
    {finish index : Nat} : index ∈ (route.chapters parts finish).map (·.index) ↔
      ∃ part cell, parts[index]? = some part ∧ route.LeadsTo part cell ∧ route.entry ≤ cell := by
  rw [chapters_eq, map_index_closeChapters]
  simp only [List.mem_map, Prod.exists, exists_and_right, exists_eq_right,
    hr.mem_chapterStarts_iff hentry]
  constructor
  · rintro ⟨_, part, cell, hpart, hleads, hle, -⟩
    exact ⟨part, cell, hpart, hleads, hle⟩
  · rintro ⟨part, cell, hpart, hleads, hle⟩
    exact ⟨_, part, cell, hpart, hleads, hle, rfl⟩

theorem pairwise_index_chapters (route : Route) (parts : List PartOfTitle) (finish : Nat) :
    ((route.chapters parts finish).map (·.index)).Pairwise (· < ·) := by
  rw [chapters_eq, map_index_closeChapters]
  exact route.pairwise_chapterStarts parts

/-- The chapters of a route lie on its timeline: those parts are chapters, in their order, that lead to
a cell from the entry on; they start when the segments before that cell have played, end with the next
chapter or the title but never before they start, and tile the time when their starts do not
decrease. -/
theorem chapters_timeline {chainNumber : UInt16} {chain : ProgramChain} {program angle : Nat}
    (h : ofChain chainNumber chain program angle = .ok route) (parts : List PartOfTitle)
    {finish : Nat} (hfinish : (finish : Int) ≤ maxWord) (hticks : (route.totalTicks : Int) ≤ maxWord) :
    route.Timeline parts finish (route.chapters parts finish) := by
  have hentry := canonical_entry_of_ofChain h
  obtain ⟨hr, rfl, rfl⟩ := accepted_of_ofChain h
  have hfit := hr.timesFit hentry hfinish hticks parts
  refine ⟨hr.mem_index_chapters_iff hentry, ?_, route.pairwise_index_chapters parts finish,
    hfit.start_le, hfit.finish_eq, hfit.last_finish, ?_, hfit.timeBase_eq⟩
  · intro chapter part cell hmem hpart hleads
    obtain ⟨i, hi⟩ := List.getElem?_of_mem hmem
    obtain ⟨start, hsome, hstart, -, -⟩ := hfit.closed hi
    obtain ⟨own, _, hown, hleads', -, rfl⟩ :=
      (hr.mem_chapterStarts_iff hentry).1 (List.mem_of_getElem? hsome)
    obtain rfl := Option.some.inj (hpart.symm.trans hown)
    rw [hstart, hr.leadsTo_unique hleads hleads']
  · intro first last hmono hfirst hlast
    obtain ⟨rest, hchapters⟩ : ∃ rest, route.chapters parts finish = first :: rest :=
      List.head?_eq_some_iff.1 hfirst
    rw [max_comm, ← hfit.last_finish hlast]
    -- a chapter ends at the later of two starts, which is the next one when starts do not decrease
    rw [chapters_eq] at hmono hlast hchapters ⊢
    rw [hchapters] at hlast ⊢
    refine tiles_of_abut ?_ ?_ hlast
    · rw [← hchapters]
      exact fun _ => hfit.start_le
    · rw [← hchapters]
      intro i chapter next hchapter hnext
      rw [hfit.finish_eq hchapter hnext]
      apply max_eq_right
      obtain ⟨hi, rfl⟩ := List.getElem?_eq_some_iff.1 hchapter
      obtain ⟨hi', rfl⟩ := List.getElem?_eq_some_iff.1 hnext
      exact List.pairwise_iff_getElem.1 (List.pairwise_map.1 hmono) i (i + 1) hi hi' i.lt_succ_self

/-- A chain with a block of two angles, and programs that start in the block, behind it, at the first
cell, at no cell and at the last cell. -/
def fivePrograms : ProgramChain where
  programMap := [3, 4, 1, 0, 5]
  cells := [⟨0, 0, .none, { second := 1 }⟩, ⟨1, 1, .member, { second := 2 }⟩,
    ⟨2, 2, .last, { second := 4 }⟩, ⟨3, 3, .none, { second := 8 }⟩, ⟨4, 4, .none, {}⟩]

/-- From the block on at the first angle, with parts of another chain, of no cell, before the entry
and outside of the map: the other parts are chapters. -/
theorem chapters_timeline_fivePrograms :
    ∃ route, ofChain 1 fivePrograms 1 0 = .ok route ∧ (900000 : Int) ≤ maxWord ∧
      (route.totalTicks : Int) ≤ maxWord ∧
      route.Timeline [⟨1, 1⟩, ⟨2, 1⟩, ⟨1, 4⟩, ⟨1, 2⟩, ⟨1, 3⟩, ⟨1, 9⟩, ⟨1, 5⟩] 900000
        [⟨0, 0, 180000, .disc⟩, ⟨3, 180000, 900000, .disc⟩, ⟨6, 900000, 900000, .disc⟩] := by
  have h : ofChain 1 fivePrograms 1 0 = .ok ⟨1, fivePrograms, [⟨1, 2⟩], 0, 1⟩ := rfl
  have hfinish : ((900000 : Nat) : Int) ≤ maxWord := by decide
  have hticks : (totalTicks ⟨1, fivePrograms, [⟨1, 2⟩], 0, 1⟩ : Int) ≤ maxWord := by
    decide +kernel
  have hchapters : chapters ⟨1, fivePrograms, [⟨1, 2⟩], 0, 1⟩
      [⟨1, 1⟩, ⟨2, 1⟩, ⟨1, 4⟩, ⟨1, 2⟩, ⟨1, 3⟩, ⟨1, 9⟩, ⟨1, 5⟩] 900000 =
      [⟨0, 0, 180000, .disc⟩, ⟨3, 180000, 900000, .disc⟩, ⟨6, 900000, 900000, .disc⟩] := by
    decide +kernel
  exact ⟨_, h, hfinish, hticks, hchapters ▸ chapters_timeline h _ hfinish hticks⟩

end Route

end OpticalDisc
