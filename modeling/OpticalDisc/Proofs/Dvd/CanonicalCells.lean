import OpticalDisc.Proofs.Dvd.RouteVerdict

/-!
# The cells that play at an angle

At an angle, single cells play and one cell of each run. These are the canonical cells. From any cell,
canonical or not, an accepted route goes on to the first canonical cell behind the run of that cell, and
ends where there is none.
-/

namespace OpticalDisc

/-- A single cell, or the cell of its run that the angle names. -/
def Canonical (cells : List Cell) (angle index : Nat) : Prop :=
  roleAt? cells index = some .none ∨
    ∃ block : AngleBlock, block.IsRun cells ∧ block.contains index = true ∧
      index = block.first + angle

theorem Canonical.lt_length {cells : List Cell} {angle index : Nat}
    (h : Canonical cells angle index) : index < cells.length := by
  rcases h with hsingle | ⟨block, hrun, hcontains, -⟩
  · exact lt_length_of_roleAt? hsingle
  · exact (AngleBlock.contains_iff.1 hcontains).2.trans_lt (lt_length_of_roleAt? hrun.last)

theorem AngleBlock.Spans.not_single {block : AngleBlock} {cells : List Cell} {index : Nat}
    (h : block.Spans cells) (hin : block.contains index = true) :
    roleAt? cells index ≠ some .none := by
  obtain ⟨hfirst, hlast⟩ := AngleBlock.contains_iff.1 hin
  rcases hlast.lt_or_eq with hlt | rfl
  · simp [h.member hfirst hlt]
  · simp [h.last]

theorem AngleBlock.IsRun.canonical_iff {block : AngleBlock} {cells : List Cell} {angle index : Nat}
    (h : block.IsRun cells) (hin : block.contains index = true) :
    Canonical cells angle index ↔ index = block.first + angle := by
  constructor
  · rintro (hsingle | ⟨own, hown, hcontains, heq⟩)
    · exact absurd hsingle (h.not_single hin)
    · rw [h.eq_of_contains hown hin hcontains]
      exact heq
  · intro heq
    exact .inr ⟨block, h, hin, heq⟩

namespace Route

variable {route : Route}

theorem Accepted.mem_blocks_iff (hr : route.Accepted) {block : AngleBlock} :
    block ∈ route.blocks ↔ block.IsRun route.chain.cells :=
  mem_angleBlocks_iff hr.blocks_eq

theorem Accepted.isRun_of_blockOf? (hr : route.Accepted) {index : Nat} {block : AngleBlock}
    (h : blockOf? route.blocks index = some block) :
    block.IsRun route.chain.cells ∧ block.contains index = true :=
  ⟨hr.mem_blocks_iff.1 (blockOf?_eq_some h).1, (blockOf?_eq_some h).2⟩

theorem Accepted.single_of_blockOf? (hr : route.Accepted) {index : Nat}
    (hlt : index < route.chain.cells.length) (h : blockOf? route.blocks index = none) :
    roleAt? route.chain.cells index = some .none := by
  have hcell := List.getElem?_eq_getElem hlt
  rw [roleAt?_of_getElem? hcell]
  by_contra hrole
  have hin : route.chain.cells[index].role.inBlock = true := by
    cases hr : route.chain.cells[index].role <;> simp_all [AngleRole.inBlock]
  obtain ⟨block, hblock, hcontains⟩ :=
    exists_contains_of_angleBlocks rfl hr.blocks_eq (Nat.zero_le _) hcell hin
  exact List.find?_eq_none.1 h block hblock hcontains

theorem Accepted.canonical_of_atAngle (hr : route.Accepted) {index target : Nat}
    (hlt : index < route.chain.cells.length)
    (h : atAngle route.blocks route.angle index = .ok target) :
    Canonical route.chain.cells route.angle target := by
  unfold atAngle at h
  cases hblock : blockOf? route.blocks index with
  | none =>
    obtain rfl : index = target := by simpa [hblock] using h
    exact .inl (hr.single_of_blockOf? hlt hblock)
  | some block =>
    have hrun := (hr.isRun_of_blockOf? hblock).1
    have hwide := hr.wide (hr.mem_blocks_iff.2 hrun)
    obtain rfl : block.first + route.angle = target := by simpa [hblock, hwide] using h
    exact .inr ⟨block, hrun, AngleBlock.contains_iff.2 ⟨Nat.le_add_right .., hwide⟩, rfl⟩

theorem entry_of_ofChain {chainNumber : UInt16} {chain : ProgramChain} {program angle : Nat}
    (h : ofChain chainNumber chain program angle = .ok route) :
    ∃ cell, chain.entryCell program = .ok cell ∧
      atAngle route.blocks route.angle cell = .ok route.entry := by
  obtain ⟨hr, rfl, rfl⟩ := accepted_of_ofChain h
  have hwide : route.chain.WideFor route.angle := by
    intro block hrun
    have := hr.wide (hr.mem_blocks_iff.2 hrun)
    unfold AngleBlock.width
    omega
  rcases ofChain_of_wide hr.blocks_eq hwide chainNumber program with
    ⟨e, -, herror⟩ | ⟨cell, entry, hcell, hentry, hroute⟩
  · rw [herror] at h
    simp at h
  · rw [hroute] at h
    obtain rfl : entry = route.entry := congrArg Route.entry (Except.ok.inj h)
    exact ⟨cell, hcell, hentry⟩

theorem canonical_entry_of_ofChain {chainNumber : UInt16} {chain : ProgramChain}
    {program angle : Nat} (h : ofChain chainNumber chain program angle = .ok route) :
    Canonical route.chain.cells route.angle route.entry := by
  obtain ⟨hr, rfl, -⟩ := accepted_of_ofChain h
  obtain ⟨cell, hcell, hentry⟩ := entry_of_ofChain h
  exact hr.canonical_of_atAngle (ProgramChain.entryCell_lt hcell) hentry

theorem exists_ofChain_of_ofTitle {set : TitleSet} {title angle : Nat}
    (h : ofTitle set title angle = .ok route) :
    ∃ (number : UInt16) (program : Nat), set.chain? number.toNat = some route.chain ∧
      ofChain number route.chain program angle = .ok route := by
  unfold ofTitle at h
  split at h
  · simp at h
  · simp at h
  · rename_i first rest _
    cases hchain : set.chain? first.chain.toNat with
    | none => simp [hchain] at h
    | some chain =>
      simp only [hchain] at h
      obtain ⟨-, rfl, -⟩ := accepted_of_ofChain h
      exact ⟨first.chain, first.program.toNat, hchain, h⟩

/-- The route goes on to the first canonical cell behind the run of a cell. -/
theorem Accepted.next?_eq_some (hr : route.Accepted) {index next : Nat}
    (h : route.next? index = some next) :
    Canonical route.chain.cells route.angle next ∧ route.following index ≤ next ∧
      ∀ later, Canonical route.chain.cells route.angle later →
        route.following index ≤ later → next ≤ later := by
  unfold next? at h
  split at h
  · simp only at h
    split at h
    · simp at h
    · rename_i target htarget
      obtain rfl := Option.some.inj h
      split
      · rename_i hin
        obtain ⟨block, hblock, hcontains⟩ :=
          exists_contains_of_angleBlocks rfl hr.blocks_eq (Nat.zero_le _) htarget hin
        have hrun := hr.mem_blocks_iff.1 hblock
        have hfirst := hr.first_eq_following hblock hcontains
        have hwide := hr.wide hblock
        rw [← hfirst]
        have hnamed : block.contains (block.first + route.angle) = true :=
          AngleBlock.contains_iff.2 ⟨Nat.le_add_right .., hwide⟩
        refine ⟨.inr ⟨block, hrun, hnamed, rfl⟩, Nat.le_add_right .., ?_⟩
        intro later hlater hle
        -- behind the run is behind the named cell; inside of it no other cell is canonical
        rcases Nat.lt_or_ge block.last later with hbehind | hinside
        · omega
        · have hcontains := AngleBlock.contains_iff.2 ⟨hle, hinside⟩
          exact ((hrun.canonical_iff hcontains).1 hlater).ge
      · rename_i hsingle
        refine ⟨.inl ?_, le_rfl, fun later _ hle => hle⟩
        rw [roleAt?_of_getElem? htarget]
        cases hrole : target.role <;> simp_all [AngleRole.inBlock]
  · simp at h

theorem lt_following_of_next?_eq_none {index : Nat} (hlt : index < route.chain.cells.length)
    (h : route.next? index = none) {later : Nat}
    (hlater : Canonical route.chain.cells route.angle later) : later < route.following index := by
  simp only [next?, if_pos hlt] at h
  split at h
  · rename_i hend
    exact hlater.lt_length.trans_le (List.getElem?_eq_none_iff.1 hend)
  · simp at h

/-- Behind a canonical cell, its run holds no other. -/
theorem Accepted.following_le (hr : route.Accepted) {index later : Nat}
    (h : Canonical route.chain.cells route.angle index)
    (hlater : Canonical route.chain.cells route.angle later) (hlt : index < later) :
    route.following index ≤ later := by
  unfold following
  cases hblock : blockOf? route.blocks index with
  | none => exact hlt
  | some block =>
    show block.last + 1 ≤ later
    obtain ⟨hrun, hcontains⟩ := hr.isRun_of_blockOf? hblock
    by_contra hle
    have hfirst := (AngleBlock.contains_iff.1 hcontains).1
    have hin : block.contains later = true := AngleBlock.contains_iff.2 ⟨by omega, by omega⟩
    have heq := (hrun.canonical_iff hin).1 hlater
    have := (hrun.canonical_iff hcontains).1 h
    omega

end Route

end OpticalDisc
