import OpticalDisc.Proofs.Dvd.AngleBlocks

/-!
# The runs of a chain

A run is a block that cannot begin earlier: no member stands in front of it. Runs are known from the
roles alone, and two of them that share a cell are the same. The blocks that the check finds are
exactly the runs of the chain, in order.
-/

namespace OpticalDisc

/-- The block is a run of members up to a last one, with no member in front of it. -/
structure AngleBlock.IsRun (block : AngleBlock) (cells : List Cell) : Prop
    extends block.Spans cells where
  maximal {i : Nat} : i + 1 = block.first → roleAt? cells i ≠ some .member

namespace AngleBlock

variable {cells : List Cell} {block other : AngleBlock}

theorem Spans.width_le_length (h : block.Spans cells) : block.width ≤ cells.length := by
  have hle := h.first_le
  have hlast := lt_length_of_roleAt? h.last
  unfold width
  omega

theorem Spans.last_le (h : block.Spans cells) (hother : other.Spans cells) {i : Nat}
    (hle : i ≤ block.last) (hi : other.contains i = true) : other.last ≤ block.last := by
  rw [contains_iff] at hi
  by_contra hlt
  have hmember := hother.member (i := block.last) (by omega) (by omega)
  rw [h.last] at hmember
  cases hmember

theorem IsRun.first_le_of_last_eq (h : block.IsRun cells) (hother : other.Spans cells)
    (hlast : other.last = block.last) : block.first ≤ other.first := by
  by_contra hlt
  have hle := h.first_le
  have hmember := hother.member (i := block.first - 1) (by omega) (by omega)
  exact h.maximal (by omega) hmember

theorem IsRun.eq_of_contains (h : block.IsRun cells) (hother : other.IsRun cells) {i : Nat}
    (hi : block.contains i = true) (hi' : other.contains i = true) : block = other := by
  have hlast : block.last = other.last := by
    apply le_antisymm
    · exact hother.last_le h.toSpans (contains_iff.1 hi').2 hi
    · exact h.last_le hother.toSpans (contains_iff.1 hi).2 hi'
  have hfirst : block.first = other.first := by
    apply le_antisymm
    · exact h.first_le_of_last_eq hother.toSpans hlast.symm
    · exact hother.first_le_of_last_eq h.toSpans hlast
  cases block
  cases other
  simp_all

end AngleBlock

theorem blockOf?_eq_some {blocks : List AngleBlock} {cell : Nat} {block : AngleBlock}
    (h : blockOf? blocks cell = some block) : block ∈ blocks ∧ block.contains cell = true := by
  unfold blockOf? at h
  exact ⟨List.mem_of_find?_eq_some h, by simpa using List.find?_some h⟩

/-- What stands in front of a run that is open, or may open, is no member. -/
def FreshStart (cells : List Cell) (index : Nat) (start? : Option Nat) : Prop :=
  ∀ i, i + 1 = start?.getD index → roleAt? cells i ≠ some .member

theorem freshStart_zero (cells : List Cell) : FreshStart cells 0 none := by
  intro i hi
  simp at hi

theorem freshStart_succ {cells : List Cell} {index : Nat} {role : AngleRole}
    (hrole : roleAt? cells index = some role) (hne : role ≠ .member) :
    FreshStart cells (index + 1) none := by
  intro i hi hmember
  obtain rfl : i = index := by simpa using hi
  exact hne (Option.some.inj (hrole.symm.trans hmember))

theorem FreshStart.member {cells : List Cell} {index : Nat} {start? : Option Nat}
    (h : FreshStart cells index start?) :
    FreshStart cells (index + 1) (some (start?.getD index)) := h

/-- No member stands in front of a block that the check finds. -/
theorem maximal_of_angleBlocks {cells rest : List Cell} {index : Nat} {start? : Option Nat}
    {blocks : List AngleBlock} (hrest : cells.drop index = rest)
    (hfresh : FreshStart cells index start?) (h : angleBlocks index start? rest = .ok blocks) :
    ∀ block ∈ blocks, ∀ i, i + 1 = block.first → roleAt? cells i ≠ some .member := by
  induction rest generalizing index start? blocks with
  | nil =>
    cases start? with
    | none =>
      obtain rfl : [] = blocks := by simpa [angleBlocks] using h
      simp
    | some start => simp [angleBlocks] at h
  | cons cell rest ih =>
    obtain ⟨hcell, hrest⟩ := getElem?_of_drop_eq_cons hrest
    have hrole := roleAt?_of_getElem? hcell
    obtain ⟨-, hstep⟩ := angleBlocks_cons_ok h
    rcases hstep with ⟨hnone, -, hmore⟩ | ⟨hmember, hmore⟩ | ⟨hlast, more, hmore, rfl⟩
    · exact ih hrest (freshStart_succ hrole (by simp [hnone])) hmore
    · exact ih hrest hfresh.member hmore
    · intro block hblock
      rcases List.mem_cons.1 hblock with rfl | hblock
      · exact hfresh
      · exact ih hrest (freshStart_succ hrole (by simp [hlast])) hmore block hblock

theorem isRun_of_mem_angleBlocks {cells : List Cell} {blocks : List AngleBlock}
    (h : angleBlocks 0 none cells = .ok blocks) {block : AngleBlock} (hblock : block ∈ blocks) :
    block.IsRun cells where
  toSpans := angleBlocks_spans rfl (openRun_none _ _) h block hblock
  maximal := fun {i} => maximal_of_angleBlocks rfl (freshStart_zero _) h block hblock i

/-- The blocks that the check finds are the runs of the chain. -/
theorem mem_angleBlocks_iff {cells : List Cell} {blocks : List AngleBlock}
    (h : angleBlocks 0 none cells = .ok blocks) {block : AngleBlock} :
    block ∈ blocks ↔ block.IsRun cells := by
  constructor
  · exact isRun_of_mem_angleBlocks h
  · intro hrun
    obtain ⟨cell, hcell, hrole⟩ := Option.map_eq_some_iff.1 hrun.last
    obtain ⟨own, hown, hcontains⟩ := exists_contains_of_angleBlocks rfl h (Nat.zero_le _) hcell
      (by simp [hrole, AngleRole.inBlock])
    have hself : block.contains block.last = true :=
      AngleBlock.contains_iff.2 ⟨hrun.first_le, le_rfl⟩
    rw [hrun.eq_of_contains (isRun_of_mem_angleBlocks h hown) hself hcontains]
    exact hown

theorem pairwise_angleBlocks {index : Nat} {start? : Option Nat} {cells : List Cell}
    {blocks : List AngleBlock} (hstart : start?.getD index ≤ index)
    (h : angleBlocks index start? cells = .ok blocks) :
    (∀ block ∈ blocks, start?.getD index ≤ block.first) ∧
      blocks.Pairwise fun a b => a.last < b.first := by
  induction cells generalizing index start? blocks with
  | nil =>
    cases start? with
    | none =>
      obtain rfl : [] = blocks := by simpa [angleBlocks] using h
      simp
    | some start => simp [angleBlocks] at h
  | cons cell rest ih =>
    obtain ⟨-, hstep⟩ := angleBlocks_cons_ok h
    rcases hstep with ⟨-, rfl, hmore⟩ | ⟨-, hmore⟩ | ⟨-, more, hmore, rfl⟩
    · obtain ⟨hfirst, hpairs⟩ := ih le_rfl hmore
      refine ⟨?_, hpairs⟩
      intro block hblock
      exact (Nat.le_succ index).trans (hfirst block hblock)
    · have hrest := ih (by simpa using Nat.le_succ_of_le hstart) hmore
      exact hrest
    · obtain ⟨hfirst, hpairs⟩ := ih le_rfl hmore
      refine ⟨?_, List.pairwise_cons.2 ⟨hfirst, hpairs⟩⟩
      intro block hblock
      rcases List.mem_cons.1 hblock with rfl | hblock
      · exact le_rfl
      · exact (Nat.le_succ_of_le hstart).trans (hfirst block hblock)

end OpticalDisc
