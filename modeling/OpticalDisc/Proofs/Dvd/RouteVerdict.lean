import OpticalDisc.Proofs.Dvd.AcceptedRoute
import OpticalDisc.Proofs.Dvd.AngleRuns
import OpticalDisc.Proofs.Dvd.ChainGrammar

/-!
# Which chains make a route

A route needs a well-formed chain, runs that are wide enough for the angle, and an entry cell, and
these are looked at in this order. The main statement says that nothing else is needed, which failure
each missing one gives, and what the blocks of a route are.
-/

namespace OpticalDisc

namespace ProgramChain

/-- Playable cells whose roles are single cells and angle blocks. -/
structure WellFormed (chain : ProgramChain) : Prop where
  playable : ∀ cell ∈ chain.cells, cell.Playable
  roles : chain.cells.map (·.role) ∈ AngleRole.chainWords

/-- Every run has a member for the angle, whether it is played or not. -/
def WideFor (chain : ProgramChain) (angle : Nat) : Prop :=
  ∀ block : AngleBlock, block.IsRun chain.cells → angle < block.width

/-- The program is in the program map and its cell is in the chain, both counted from one. -/
def HasEntry (chain : ProgramChain) (program : Nat) : Prop :=
  1 ≤ program ∧ ∃ number, chain.programMap[program - 1]? = some number ∧
    1 ≤ number.toNat ∧ number.toNat ≤ chain.cells.length

variable {chain : ProgramChain} {program angle : Nat}

theorem wellFormed_iff :
    chain.WellFormed ↔ ∃ blocks, angleBlocks 0 none chain.cells = .ok blocks := by
  rw [angleBlocks_ok_iff]
  exact ⟨fun h => ⟨h.playable, h.roles⟩, fun h => ⟨h.1, h.2⟩⟩

theorem entryCell_ok_iff : (∃ cell, chain.entryCell program = .ok cell) ↔ chain.HasEntry program := by
  cases program with
  | zero => simp [entryCell, numbered?, HasEntry]
  | succ i =>
    simp only [entryCell, numbered?, HasEntry, Nat.add_sub_cancel]
    cases chain.programMap[i]? with
    | none => simp
    | some number =>
      by_cases hcell : 1 ≤ number.toNat ∧ number.toNat ≤ chain.cells.length <;> simp [hcell]

theorem corrupt_of_entryCell {e : Error} (h : chain.entryCell program = .error e) :
    ∃ text, e = .corruptIndex text := by
  unfold entryCell at h
  split at h
  · exact ⟨_, (Except.error.inj h).symm⟩
  · split at h
    · simp at h
    · exact ⟨_, (Except.error.inj h).symm⟩

theorem wideFor_iff {blocks : List AngleBlock} (h : angleBlocks 0 none chain.cells = .ok blocks) :
    chain.WideFor angle ↔ blocks.find? (·.width ≤ angle) = none := by
  rw [List.find?_eq_none]
  constructor
  · intro hwide block hblock
    have := hwide block ((mem_angleBlocks_iff h).1 hblock)
    simp only [decide_eq_true_eq]
    omega
  · intro hnone block hrun
    have := hnone block ((mem_angleBlocks_iff h).2 hrun)
    simp only [decide_eq_true_eq] at this
    omega

end ProgramChain

/-- The first run that has no member for the angle. -/
structure AngleBlock.FirstNarrow (block : AngleBlock) (cells : List Cell) (angle : Nat) : Prop where
  isRun : block.IsRun cells
  narrow : block.width ≤ angle
  first_le {other : AngleBlock} :
    other.IsRun cells → other.width ≤ angle → block.first ≤ other.first

theorem AngleBlock.firstNarrow_of_find? {cells : List Cell} {angle : Nat}
    {blocks : List AngleBlock} {block : AngleBlock} (h : angleBlocks 0 none cells = .ok blocks)
    (hfind : blocks.find? (·.width ≤ angle) = some block) : block.FirstNarrow cells angle := by
  obtain ⟨hnarrow, before, after, rfl, hbefore⟩ := List.find?_eq_some_iff_append.1 hfind
  have hrun := (mem_angleBlocks_iff h).1 (List.mem_append_right _ List.mem_cons_self)
  refine ⟨hrun, by simpa using hnarrow, ?_⟩
  intro other hother hwidth
  rcases List.mem_append.1 ((mem_angleBlocks_iff h).2 hother) with hmem | hmem
  · have := hbefore other hmem
    simp only [Bool.not_eq_eq_eq_not, Bool.not_true, decide_eq_false_iff_not] at this
    exact absurd hwidth this
  · rcases List.mem_cons.1 hmem with rfl | hmem
    · exact le_rfl
    · have hpairs := (pairwise_angleBlocks (Nat.le_refl 0) h).2
      have hlt := (List.pairwise_cons.1 (List.pairwise_append.1 hpairs).2.1).1 other hmem
      exact hrun.first_le.trans hlt.le

/-- Where every block is wide enough, some cell plays instead of any cell. -/
theorem exists_atAngle {blocks : List AngleBlock} {angle : Nat}
    (hwide : ∀ block ∈ blocks, angle < block.width) (cell : Nat) :
    ∃ target, atAngle blocks angle cell = .ok target := by
  unfold atAngle
  split
  · exact ⟨cell, rfl⟩
  · rename_i block hblock
    obtain ⟨hmem, hcontains⟩ := blockOf?_eq_some hblock
    have hwidth := hwide block hmem
    rw [AngleBlock.contains_iff] at hcontains
    unfold AngleBlock.width at hwidth
    rw [if_pos (by omega)]
    exact ⟨_, rfl⟩

namespace Route

variable {chainNumber : UInt16} {chain : ProgramChain} {program angle : Nat}

theorem ofChain_of_corrupt {e : Error} (h : angleBlocks 0 none chain.cells = .error e) :
    ofChain chainNumber chain program angle = .error e := by
  simp only [ofChain, h, bind, Except.bind]

theorem ofChain_of_narrow {blocks : List AngleBlock} {block : AngleBlock}
    (h : angleBlocks 0 none chain.cells = .ok blocks)
    (hfind : blocks.find? (·.width ≤ angle) = some block) (chainNumber : UInt16) (program : Nat) :
    ofChain chainNumber chain program angle = .error (block.tooNarrow angle) := by
  simp only [ofChain, h, hfind, bind, Except.bind, throw, throwThe, MonadExceptOf.throw]

/-- Past the check of the blocks, the entry cell decides. -/
theorem ofChain_of_wide {blocks : List AngleBlock} (h : angleBlocks 0 none chain.cells = .ok blocks)
    (hwide : chain.WideFor angle) (chainNumber : UInt16) (program : Nat) :
    (∃ e, chain.entryCell program = .error e ∧
        ofChain chainNumber chain program angle = .error e) ∨
      ∃ cell entry, chain.entryCell program = .ok cell ∧ atAngle blocks angle cell = .ok entry ∧
        ofChain chainNumber chain program angle = .ok ⟨chainNumber, chain, blocks, angle, entry⟩ := by
  have hfind := (ProgramChain.wideFor_iff h).1 hwide
  cases hcell : chain.entryCell program with
  | error e =>
    refine .inl ⟨e, rfl, ?_⟩
    simp only [ofChain, h, hfind, hcell, bind, Except.bind]
  | ok cell =>
    have hall : ∀ block ∈ blocks, angle < block.width := by
      intro block hblock
      exact hwide block ((mem_angleBlocks_iff h).1 hblock)
    obtain ⟨entry, hentry⟩ := exists_atAngle hall cell
    refine .inr ⟨cell, entry, rfl, hentry, ?_⟩
    simp only [ofChain, h, hfind, hcell, hentry, bind, Except.bind, pure, Except.pure]

/-- A chain makes a route exactly when it is well-formed, every run of it is wide enough for the angle,
and the program has an entry cell. The blocks of the route are the runs of the chain, from left to
right and apart from each other; they hold every cell of an angle, and the angle has a cell to play
instead of any cell. The first of the three that is missing decides the failure: a chain that is not
well-formed and a program without an entry are corrupt indices, and for an angle out of range the
failure counts the members of the first run that is too narrow. -/
theorem ofChain_verdict (chainNumber : UInt16) (chain : ProgramChain) (program angle : Nat) :
    ((∃ route, ofChain chainNumber chain program angle = .ok route) ↔
      chain.WellFormed ∧ chain.WideFor angle ∧ chain.HasEntry program) ∧
    (∀ route, ofChain chainNumber chain program angle = .ok route →
      route.chain = chain ∧ route.angle = angle ∧
      (∀ block, block ∈ route.blocks ↔ block.IsRun chain.cells) ∧
      route.blocks.Pairwise (fun a b => a.last < b.first) ∧
      (∀ i cell, chain.cells[i]? = some cell → cell.role.inBlock = true →
        ∃ block ∈ route.blocks, block.contains i = true) ∧
      ∀ cell, ∃ target, atAngle route.blocks route.angle cell = .ok target) ∧
    (¬ chain.WellFormed →
      ∃ text, ofChain chainNumber chain program angle = .error (.corruptIndex text)) ∧
    (chain.WellFormed → ¬ chain.WideFor angle →
      ∃ block : AngleBlock, block.FirstNarrow chain.cells angle ∧ block.width ≤ chain.cells.length ∧
        ofChain chainNumber chain program angle = .error (.outOfRange "angle" angle block.width)) ∧
    (chain.WellFormed → chain.WideFor angle → ¬ chain.HasEntry program →
      ∃ text, ofChain chainNumber chain program angle = .error (.corruptIndex text)) := by
  rw [ProgramChain.wellFormed_iff, ← ProgramChain.entryCell_ok_iff]
  cases hblocks : angleBlocks 0 none chain.cells with
  | error e =>
    obtain ⟨text, rfl⟩ := corrupt_of_angleBlocks hblocks
    simp [ofChain_of_corrupt hblocks]
  | ok blocks =>
    by_cases hwide : chain.WideFor angle
    · rcases ofChain_of_wide hblocks hwide chainNumber program with
        ⟨e, hcell, hroute⟩ | ⟨cell, entry, hcell, hentry, hroute⟩
      · obtain ⟨text, rfl⟩ := ProgramChain.corrupt_of_entryCell hcell
        simp [hroute, hcell, hwide]
      · refine ⟨iff_of_true ⟨_, hroute⟩ ⟨⟨blocks, rfl⟩, hwide, cell, hcell⟩, ?_, by simp, ?_, ?_⟩
        · intro route hok
          obtain rfl := Except.ok.inj (hroute.symm.trans hok)
          refine ⟨rfl, rfl, fun block => mem_angleBlocks_iff hblocks,
            (pairwise_angleBlocks (Nat.le_refl 0) hblocks).2, ?_, ?_⟩
          · intro i c hc hin
            exact exists_contains_of_angleBlocks rfl hblocks (Nat.zero_le i) hc hin
          · apply exists_atAngle
            intro block hblock
            exact hwide block ((mem_angleBlocks_iff hblocks).1 hblock)
        · intro _ hnarrow
          exact absurd hwide hnarrow
        · intro _ _ hmissing
          exact absurd ⟨cell, hcell⟩ hmissing
    · cases hfind : blocks.find? (·.width ≤ angle) with
      | none => exact absurd ((ProgramChain.wideFor_iff hblocks).2 hfind) hwide
      | some block =>
        have hnarrow := AngleBlock.firstNarrow_of_find? hblocks hfind
        have hroute := ofChain_of_narrow hblocks hfind chainNumber program
        have hlength := hnarrow.isRun.width_le_length
        refine ⟨?_, ?_, by simp, ?_, ?_⟩
        · simp [hroute, hwide]
        · simp [hroute]
        · intro _ _
          exact ⟨block, hnarrow, hlength, hroute⟩
        · intro _ hall
          exact absurd hall hwide

end Route

end OpticalDisc
