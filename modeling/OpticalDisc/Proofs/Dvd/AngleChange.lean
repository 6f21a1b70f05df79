import OpticalDisc.Proofs.Dvd.ChapterTimeline

/-!
# A change of the angle

Two routes of one chain that differ in their angles walk side by side: at every step they are at the
same single cell, or at the cells of one run that their angles name. The relation holds at the two
entries, and cells that are related are followed by related cells, so it holds all along the plans.
-/

namespace OpticalDisc

/-- The same single cell, or the cells of one run that the angles `a` and `b` name. -/
def Counterpart (cells : List Cell) (a b i j : Nat) : Prop :=
  (roleAt? cells i = some .none ∧ j = i) ∨
    ∃ block : AngleBlock, block.IsRun cells ∧ block.contains i = true ∧ block.contains j = true ∧
      i = block.first + a ∧ j = block.first + b

namespace Counterpart

variable {cells : List Cell} {a b i j i' j' : Nat}

theorem symm (h : Counterpart cells a b i j) : Counterpart cells b a j i := by
  rcases h with ⟨hsingle, rfl⟩ | ⟨block, hrun, hi, hj, heq, heq'⟩
  · exact .inl ⟨hsingle, rfl⟩
  · exact .inr ⟨block, hrun, hj, hi, heq', heq⟩

theorem lt_length (h : Counterpart cells a b i j) : i < cells.length := by
  rcases h with ⟨hsingle, -⟩ | ⟨block, hrun, hi, -, -, -⟩
  · exact lt_length_of_roleAt? hsingle
  · exact (AngleBlock.contains_iff.1 hi).2.trans_lt (lt_length_of_roleAt? hrun.last)

theorem lt_or_lt_of_single {block : AngleBlock} (hrun : block.IsRun cells)
    (hsingle : roleAt? cells i = some .none) : i < block.first ∨ block.last < i := by
  by_contra hin
  refine hrun.not_single (AngleBlock.contains_iff.2 ?_) hsingle
  omega

theorem le_of_le (h : Counterpart cells a b i j) (h' : Counterpart cells a b i' j') (hle : i ≤ i') :
    j ≤ j' := by
  rcases h with ⟨hsingle, rfl⟩ | ⟨block, hrun, hi, hj, heq, heq'⟩ <;>
    rcases h' with ⟨hsingle', rfl⟩ | ⟨other, hother, hi', hj', hother_eq, hother_eq'⟩
  · exact hle
  · have hapart := lt_or_lt_of_single hother hsingle
    rw [AngleBlock.contains_iff] at hi'
    omega
  · have hapart := lt_or_lt_of_single hrun hsingle'
    rw [AngleBlock.contains_iff] at hi hj
    omega
  · omega

end Counterpart

/-- A cell for which one plays at an angle has one at every angle. -/
theorem PlaysFor.exists_at {cells : List Cell} {a index i : Nat} (h : PlaysFor cells a index i)
    (b : Nat) : ∃ j, PlaysFor cells b index j := by
  rcases h with ⟨hsingle, -⟩ | ⟨block, hrun, hcontains, -⟩
  · exact ⟨index, .inl ⟨hsingle, rfl⟩⟩
  · exact ⟨block.first + b, .inr ⟨block, hrun, hcontains, rfl⟩⟩

namespace Route

section Blocks

variable {route : Route}

theorem Accepted.blockOf?_of_contains (hr : route.Accepted) {block : AngleBlock} {index : Nat}
    (hrun : block.IsRun route.chain.cells) (hcontains : block.contains index = true) :
    blockOf? route.blocks index = some block := by
  cases hblock : blockOf? route.blocks index with
  | none =>
    exact absurd hcontains (List.find?_eq_none.1 hblock block (hr.mem_blocks_iff.2 hrun))
  | some own =>
    obtain ⟨hown, hcontains'⟩ := hr.isRun_of_blockOf? hblock
    rw [hown.eq_of_contains hrun hcontains' hcontains]

theorem Accepted.blockOf?_of_single (hr : route.Accepted) {index : Nat}
    (hsingle : roleAt? route.chain.cells index = some .none) :
    blockOf? route.blocks index = none := by
  cases hblock : blockOf? route.blocks index with
  | none => rfl
  | some own =>
    obtain ⟨hown, hcontains⟩ := hr.isRun_of_blockOf? hblock
    exact absurd hsingle (hown.not_single hcontains)

end Blocks

/-- Accepted routes of one chain, each with its angle. -/
structure AngleTwins (r s : Route) : Prop where
  left : r.Accepted
  right : s.Accepted
  chainNumber_eq : s.chainNumber = r.chainNumber
  chain_eq : s.chain = r.chain

namespace AngleTwins

variable {r s : Route}

theorem wide (h : AngleTwins r s) {block : AngleBlock} (hrun : block.IsRun r.chain.cells) :
    block.first + r.angle ≤ block.last ∧ block.first + s.angle ≤ block.last := by
  constructor
  · exact h.left.wide (h.left.mem_blocks_iff.2 hrun)
  · exact h.right.wide (h.right.mem_blocks_iff.2 (h.chain_eq ▸ hrun))

theorem symm (h : AngleTwins r s) : AngleTwins s r where
  left := h.right
  right := h.left
  chainNumber_eq := h.chainNumber_eq.symm
  chain_eq := h.chain_eq.symm

theorem named (h : AngleTwins r s) {block : AngleBlock} (hrun : block.IsRun r.chain.cells) :
    Counterpart r.chain.cells r.angle s.angle (block.first + r.angle) (block.first + s.angle) := by
  obtain ⟨hleft, hright⟩ := h.wide hrun
  refine .inr ⟨block, hrun, ?_, ?_, rfl, rfl⟩
  · exact AngleBlock.contains_iff.2 ⟨Nat.le_add_right .., hleft⟩
  · exact AngleBlock.contains_iff.2 ⟨Nat.le_add_right .., hright⟩

theorem following_eq (h : AngleTwins r s) {i j : Nat}
    (hij : Counterpart r.chain.cells r.angle s.angle i j) : s.following j = r.following i := by
  unfold following
  rcases hij with ⟨hsingle, rfl⟩ | ⟨block, hrun, hi, hj, -, -⟩
  · rw [h.left.blockOf?_of_single hsingle, h.right.blockOf?_of_single (h.chain_eq ▸ hsingle)]
  · rw [h.left.blockOf?_of_contains hrun hi, h.right.blockOf?_of_contains (h.chain_eq ▸ hrun) hj]

/-- Counterparts are both the last to play, or followed by counterparts. -/
theorem next? (h : AngleTwins r s) {i j : Nat}
    (hij : Counterpart r.chain.cells r.angle s.angle i j) :
    Option.Rel (Counterpart r.chain.cells r.angle s.angle) (r.next? i) (s.next? j) := by
  simp only [Route.next?, if_pos hij.lt_length, h.chain_eq, if_pos hij.symm.lt_length,
    h.following_eq hij]
  cases htarget : r.chain.cells[r.following i]? with
  | none => exact .none
  | some target =>
    apply Option.Rel.some
    by_cases hin : target.role.inBlock = true
    · obtain ⟨block, hblock, hcontains⟩ :=
        exists_contains_of_angleBlocks rfl h.left.blocks_eq (Nat.zero_le _) htarget hin
      have hrun := h.left.mem_blocks_iff.1 hblock
      rw [if_pos hin, if_pos hin, ← h.left.first_eq_following hblock hcontains]
      exact h.named hrun
    · rw [if_neg hin, if_neg hin]
      refine .inl ⟨?_, rfl⟩
      rw [roleAt?_of_getElem? htarget]
      cases hrole : target.role <;> simp_all [AngleRole.inBlock]

/-- From counterparts on, the two plans hold counterparts at every place. -/
theorem segmentsFrom (h : AngleTwins r s) {i j : Nat}
    (hij : Counterpart r.chain.cells r.angle s.angle i j)
    (byteOffset byteOffset' startTime startTime' : Nat) :
    List.Forall₂ (fun p q => Counterpart r.chain.cells r.angle s.angle p.cell q.cell)
      (r.segmentsFrom i byteOffset startTime) (s.segmentsFrom j byteOffset' startTime') := by
  have hi := List.getElem?_eq_getElem hij.lt_length
  have hj := List.getElem?_eq_getElem (h.chain_eq ▸ hij.symm.lt_length)
  rw [segmentsFrom_eq hi, segmentsFrom_eq hj]
  refine List.Forall₂.cons hij ?_
  -- the two walks end together, so the recursion is that of the left one
  have hnext := h.next? hij
  cases hleft : r.next? i with
  | none =>
    rw [hleft] at hnext
    cases hright : s.next? j with
    | none => exact .nil
    | some j' => simp [hright] at hnext
  | some i' =>
    rw [hleft] at hnext
    cases hright : s.next? j with
    | none => simp [hright] at hnext
    | some j' =>
      rw [hright] at hnext
      exact h.segmentsFrom (Option.rel_some_some.1 hnext) ..
termination_by r.chain.cells.length - i
decreasing_by
  have := r.lt_of_next? hleft
  have := hij.lt_length
  omega

theorem playsFor (h : AngleTwins r s) {index i j : Nat}
    (hi : PlaysFor r.chain.cells r.angle index i) (hj : PlaysFor r.chain.cells s.angle index j) :
    Counterpart r.chain.cells r.angle s.angle i j := by
  rcases hi with ⟨hsingle, rfl⟩ | ⟨block, hrun, hcontains, rfl⟩
  · rcases hj with ⟨-, rfl⟩ | ⟨block, hrun, hcontains, -⟩
    · exact .inl ⟨hsingle, rfl⟩
    · exact absurd hsingle (hrun.not_single hcontains)
  · rcases hj with ⟨hsingle, -⟩ | ⟨other, hother, hcontains', rfl⟩
    · exact absurd hsingle (hrun.not_single hcontains)
    · obtain rfl := hrun.eq_of_contains hother hcontains hcontains'
      exact h.named hrun

theorem leadsTo (h : AngleTwins r s) {part : PartOfTitle} {i : Nat} (hi : r.LeadsTo part i) :
    ∃ j, s.LeadsTo part j ∧ Counterpart r.chain.cells r.angle s.angle i j := by
  obtain ⟨hchain, hprogram, number, hnumber, hone, hle, hplays⟩ := hi
  obtain ⟨j, hother⟩ := hplays.exists_at s.angle
  refine ⟨j, ⟨?_, hprogram, number, ?_, hone, ?_, ?_⟩, h.playsFor hplays hother⟩
  · rw [hchain, h.chainNumber_eq]
  · rw [h.chain_eq, hnumber]
  · rwa [h.chain_eq]
  · rwa [h.chain_eq]

theorem chapter_of_chapter (h : AngleTwins r s)
    (hentry : Counterpart r.chain.cells r.angle s.angle r.entry s.entry) {part : PartOfTitle}
    {i : Nat} (hi : r.LeadsTo part i) (hle : r.entry ≤ i) :
    ∃ j, s.LeadsTo part j ∧ s.entry ≤ j := by
  obtain ⟨j, hj, hij⟩ := h.leadsTo hi
  exact ⟨j, hj, hentry.le_of_le hij hle⟩

end AngleTwins

section Change

variable {chainNumber : UInt16} {chain : ProgramChain} {program a b : Nat} {r s : Route}

theorem chainNumber_of_ofChain (h : ofChain chainNumber chain program a = .ok r) :
    r.chainNumber = chainNumber := by
  simp only [ofChain, bind, Except.bind, pure, Except.pure, throw, throwThe, MonadExceptOf.throw] at h
  grind

theorem angleTwins_of_ofChain (hr : ofChain chainNumber chain program a = .ok r)
    (hs : ofChain chainNumber chain program b = .ok s) : AngleTwins r s where
  left := (accepted_of_ofChain hr).1
  right := (accepted_of_ofChain hs).1
  chainNumber_eq := (chainNumber_of_ofChain hs).trans (chainNumber_of_ofChain hr).symm
  chain_eq := (accepted_of_ofChain hs).2.1.trans (accepted_of_ofChain hr).2.1.symm

theorem counterpart_entry (hr : ofChain chainNumber chain program a = .ok r)
    (hs : ofChain chainNumber chain program b = .ok s) :
    Counterpart r.chain.cells r.angle s.angle r.entry s.entry := by
  have htwins := angleTwins_of_ofChain hr hs
  obtain ⟨cell, hcell, hleft⟩ := entry_of_ofChain hr
  obtain ⟨cell', hcell', hright⟩ := entry_of_ofChain hs
  obtain rfl := Except.ok.inj (hcell.symm.trans hcell')
  obtain ⟨hracc, rfl, rfl⟩ := accepted_of_ofChain hr
  obtain ⟨hsacc, hchain, rfl⟩ := accepted_of_ofChain hs
  have hlt := ProgramChain.entryCell_lt hcell
  apply htwins.playsFor
  · exact (hracc.atAngle_eq_ok_iff hlt).1 hleft
  · rw [← hchain] at hlt ⊢
    exact (hsacc.atAngle_eq_ok_iff hlt).1 hright

/-- A change of the angle changes only which cell of a run plays. At every place, the two plans hold
the same single cell or the cells of one run that their angles name, and the same parts are
chapters. -/
theorem angle_changes_members (hr : ofChain chainNumber chain program a = .ok r)
    (hs : ofChain chainNumber chain program b = .ok s) :
    List.Forall₂ (fun p q => Counterpart chain.cells a b p.cell q.cell) r.segments s.segments ∧
      ∀ (parts : List PartOfTitle) (finish finish' : Nat),
        (r.chapters parts finish).map (·.index) = (s.chapters parts finish').map (·.index) := by
  have htwins := angleTwins_of_ofChain hr hs
  have hentry := counterpart_entry hr hs
  have hrentry := canonical_entry_of_ofChain hr
  have hsentry := canonical_entry_of_ofChain hs
  obtain ⟨-, rfl, rfl⟩ := accepted_of_ofChain hr
  obtain ⟨-, -, rfl⟩ := accepted_of_ofChain hs
  constructor
  · exact htwins.segmentsFrom hentry 0 0 0 0
  · intro parts finish finish'
    -- both lists of indices increase, so they are equal when they have the same members
    apply List.Pairwise.eq_of_mem_iff (r := (· < ·))
    · exact r.pairwise_index_chapters parts finish
    · exact s.pairwise_index_chapters parts finish'
    · intro index
      rw [htwins.left.mem_index_chapters_iff hrentry, htwins.right.mem_index_chapters_iff hsentry]
      constructor
      · rintro ⟨part, i, hpart, hi, hle⟩
        obtain ⟨j, hj, hle'⟩ := htwins.chapter_of_chapter hentry hi hle
        exact ⟨part, j, hpart, hj, hle'⟩
      · rintro ⟨part, j, hpart, hj, hle⟩
        obtain ⟨i, hi, hle'⟩ := htwins.symm.chapter_of_chapter (htwins.chain_eq ▸ hentry.symm) hj hle
        exact ⟨part, i, hpart, hi, hle'⟩

end Change

/-- From the middle of a block of two angles on, the two plans differ in the cell of the block. -/
theorem angle_changes_members_fivePrograms :
    ∃ r s, ofChain 1 fivePrograms 1 0 = .ok r ∧ ofChain 1 fivePrograms 1 1 = .ok s ∧
      r.segments.map (·.cell) = [1, 3, 4] ∧ s.segments.map (·.cell) = [2, 3, 4] ∧
      List.Forall₂ (fun p q => Counterpart fivePrograms.cells 0 1 p.cell q.cell)
        r.segments s.segments ∧
      ∀ (parts : List PartOfTitle) (finish finish' : Nat),
        (r.chapters parts finish).map (·.index) = (s.chapters parts finish').map (·.index) := by
  have hr : ofChain 1 fivePrograms 1 0 = .ok ⟨1, fivePrograms, [⟨1, 2⟩], 0, 1⟩ := rfl
  have hs : ofChain 1 fivePrograms 1 1 = .ok ⟨1, fivePrograms, [⟨1, 2⟩], 1, 2⟩ := rfl
  exact ⟨_, _, hr, hs, by decide +kernel, by decide +kernel, angle_changes_members hr hs⟩

end Route

end OpticalDisc
