import OpticalDisc.Proofs.Dvd.CanonicalCells

/-!
# The cell after a cell

From every cell of its chain, whether it plays or not, an accepted route goes on to the least canonical
cell behind the run of that cell. So the members of a run have one successor, a step leads to a later
cell of the chain, and no walk takes more steps than the chain has cells.
-/

namespace OpticalDisc

/-- The run of a cell ends with its last member, and a single cell is a run of its own. -/
def RunEndsAt (cells : List Cell) (index last : Nat) : Prop :=
  (roleAt? cells index = some .none ∧ last = index) ∨
    ∃ block : AngleBlock, block.IsRun cells ∧ block.contains index = true ∧ last = block.last

theorem RunEndsAt.unique {cells : List Cell} {index last last' : Nat}
    (h : RunEndsAt cells index last) (h' : RunEndsAt cells index last') : last = last' := by
  rcases h with ⟨hsingle, rfl⟩ | ⟨block, hrun, hin, rfl⟩ <;>
    rcases h' with ⟨hsingle', rfl⟩ | ⟨block', hrun', hin', rfl⟩
  · rfl
  · exact absurd hsingle (hrun'.not_single hin')
  · exact absurd hsingle' (hrun.not_single hin)
  · rw [hrun.eq_of_contains hrun' hin hin']

theorem RunEndsAt.lt_length {cells : List Cell} {index last : Nat} (h : RunEndsAt cells index last) :
    index < cells.length := by
  rcases h with ⟨hsingle, -⟩ | ⟨block, hrun, hin, -⟩
  · exact lt_length_of_roleAt? hsingle
  · exact (AngleBlock.contains_iff.1 hin).2.trans_lt (lt_length_of_roleAt? hrun.last)

def canonicalBehind (cells : List Cell) (angle last : Nat) : Set Nat :=
  {later | Canonical cells angle later ∧ last < later}

namespace Route

variable {route : Route} {index next last : Nat}

theorem Accepted.exists_runEndsAt (hr : route.Accepted)
    (hlt : index < route.chain.cells.length) :
    ∃ last, RunEndsAt route.chain.cells index last ∧ route.following index = last + 1 := by
  unfold following
  cases hblock : blockOf? route.blocks index with
  | none => exact ⟨index, .inl ⟨hr.single_of_blockOf? hlt hblock, rfl⟩, rfl⟩
  | some block =>
    obtain ⟨hrun, hin⟩ := hr.isRun_of_blockOf? hblock
    exact ⟨block.last, .inr ⟨block, hrun, hin, rfl⟩, rfl⟩

theorem Accepted.following_eq_succ (hr : route.Accepted)
    (h : RunEndsAt route.chain.cells index last) : route.following index = last + 1 := by
  obtain ⟨own, hown, hfollowing⟩ := hr.exists_runEndsAt h.lt_length
  rw [hfollowing, hown.unique h]

theorem next?_of_length_le (h : route.chain.cells.length ≤ index) : route.next? index = none :=
  if_neg (Nat.not_lt.2 h)

theorem Accepted.isLeast_of_next? (hr : route.Accepted)
    (hend : RunEndsAt route.chain.cells index last) (h : route.next? index = some next) :
    IsLeast (canonicalBehind route.chain.cells route.angle last) next := by
  obtain ⟨hcanonical, hle, hleast⟩ := hr.next?_eq_some h
  rw [hr.following_eq_succ hend] at hle hleast
  exact ⟨⟨hcanonical, hle⟩, fun later hlater => hleast later hlater.1 hlater.2⟩

theorem Accepted.next?_eq_some_iff (hr : route.Accepted) :
    route.next? index = some next ↔
      ∃ last, RunEndsAt route.chain.cells index last ∧
        IsLeast (canonicalBehind route.chain.cells route.angle last) next := by
  constructor
  · intro h
    have hlt : index < route.chain.cells.length := by
      by_contra hbehind
      rw [next?_of_length_le (Nat.not_lt.1 hbehind)] at h
      cases h
    obtain ⟨last, hend, -⟩ := hr.exists_runEndsAt hlt
    exact ⟨last, hend, hr.isLeast_of_next? hend h⟩
  · rintro ⟨last, hend, hleast⟩
    cases h : route.next? index with
    | none =>
      have hbefore := lt_following_of_next?_eq_none hend.lt_length h hleast.1.1
      rw [hr.following_eq_succ hend] at hbefore
      exact absurd hleast.1.2 (by omega)
    | some other => rw [(hr.isLeast_of_next? hend h).unique hleast]

theorem Accepted.next?_eq_none_iff (hr : route.Accepted) :
    route.next? index = none ↔ route.chain.cells.length ≤ index ∨
      ∃ last, RunEndsAt route.chain.cells index last ∧
        canonicalBehind route.chain.cells route.angle last = ∅ := by
  constructor
  · intro h
    rcases Nat.lt_or_ge index route.chain.cells.length with hlt | hbehind
    · obtain ⟨last, hend, hfollowing⟩ := hr.exists_runEndsAt hlt
      refine .inr ⟨last, hend, Set.eq_empty_of_forall_notMem ?_⟩
      rintro later ⟨hcanonical, hlater⟩
      have hbefore := lt_following_of_next?_eq_none hlt h hcanonical
      omega
    · exact .inl hbehind
  · rintro (hbehind | ⟨last, hend, hempty⟩)
    · exact next?_of_length_le hbehind
    · cases h : route.next? index with
      | none => rfl
      | some next =>
        have hmem := (hr.isLeast_of_next? hend h).1
        rw [hempty] at hmem
        exact hmem.elim

/-- Where a cell plays after one member of a run, it plays after all of them. -/
theorem Accepted.next?_eq_of_contains (hr : route.Accepted) {block : AngleBlock} {i j : Nat}
    (hrun : block.IsRun route.chain.cells) (hi : block.contains i = true)
    (hj : block.contains j = true) : route.next? i = route.next? j := by
  have hend {k : Nat} (hk : block.contains k = true) :
      RunEndsAt route.chain.cells k block.last := .inr ⟨block, hrun, hk, rfl⟩
  have hlt {k : Nat} (hk : block.contains k = true) : k < route.chain.cells.length :=
    (hend hk).lt_length
  have hsame : route.following i = route.following j := by
    rw [hr.following_eq_succ (hend hi), hr.following_eq_succ (hend hj)]
  simp only [next?, if_pos (hlt hi), if_pos (hlt hj), hsame]

/-- The cell that a number of steps leads to, unless the route ends before. -/
def cellAfter? (route : Route) (index : Nat) : Nat → Option Nat
  | 0 => some index
  | steps + 1 => (route.cellAfter? index steps).bind route.next?

theorem Accepted.cellAfter?_bounds (hr : route.Accepted) {steps cell : Nat}
    (h : route.cellAfter? index (steps + 1) = some cell) :
    index + (steps + 1) ≤ cell ∧ cell < route.chain.cells.length := by
  induction steps generalizing cell with
  | zero => exact ⟨route.lt_of_next? h, hr.next?_lt_length h⟩
  | succ steps ih =>
    obtain ⟨before, hbefore, hnext⟩ := Option.bind_eq_some_iff.1 h
    have hle := (ih hbefore).1
    have hlt := route.lt_of_next? hnext
    exact ⟨by omega, hr.next?_lt_length hnext⟩

theorem Accepted.cellAfter?_length (hr : route.Accepted) :
    route.cellAfter? index route.chain.cells.length = none := by
  cases h : route.cellAfter? index route.chain.cells.length with
  | none => rfl
  | some cell =>
    obtain ⟨steps, hsteps⟩ := Nat.exists_eq_succ_of_ne_zero (Nat.ne_zero_of_lt hr.entry_lt)
    rw [hsteps] at h
    have hbounds := hr.cellAfter?_bounds h
    omega

/-- From any cell of the chain, the route goes on to the least canonical cell behind the run of that
cell, and it ends where there is none, or outside of the chain. The members of a run have the same
successor; a successor is a later cell of the chain; and from anywhere, the route has ended after as
many steps as the chain has cells. -/
theorem successor_from_anywhere {chainNumber : UInt16} {chain : ProgramChain} {program angle : Nat}
    (h : ofChain chainNumber chain program angle = .ok route) :
    (∀ index next, route.next? index = some next ↔ ∃ last, RunEndsAt chain.cells index last ∧
      IsLeast (canonicalBehind chain.cells angle last) next) ∧
    (∀ index, route.next? index = none ↔ chain.cells.length ≤ index ∨
      ∃ last, RunEndsAt chain.cells index last ∧
        canonicalBehind chain.cells angle last = ∅) ∧
    (∀ block : AngleBlock, block.IsRun chain.cells → ∀ i j, block.contains i = true →
      block.contains j = true → route.next? i = route.next? j) ∧
    (∀ index next, route.next? index = some next → index < next ∧ next < chain.cells.length) ∧
    ∀ index, route.cellAfter? index chain.cells.length = none := by
  obtain ⟨hr, rfl, rfl⟩ := accepted_of_ofChain h
  refine ⟨fun index next => hr.next?_eq_some_iff, fun index => hr.next?_eq_none_iff, ?_, ?_,
    fun index => hr.cellAfter?_length⟩
  · intro block hrun i j hi hj
    exact hr.next?_eq_of_contains hrun hi hj
  · intro index next hnext
    exact ⟨route.lt_of_next? hnext, hr.next?_lt_length hnext⟩

def twoAndThreeAngles : ProgramChain where
  programMap := [1]
  cells := [⟨0, 0, .none, {}⟩, ⟨1, 1, .member, {}⟩, ⟨2, 2, .last, {}⟩, ⟨3, 3, .member, {}⟩,
    ⟨4, 4, .member, {}⟩, ⟨5, 5, .last, {}⟩, ⟨6, 6, .none, {}⟩]

/-- At the second angle, the first block's first cell does not play, and the second block's second
cell comes after it. -/
theorem successor_from_anywhere_twoAndThreeAngles :
    ofChain 1 twoAndThreeAngles 1 1 = .ok ⟨1, twoAndThreeAngles, [⟨1, 2⟩, ⟨3, 5⟩], 1, 0⟩ ∧
      ∃ last, RunEndsAt twoAndThreeAngles.cells 1 last ∧
        IsLeast (canonicalBehind twoAndThreeAngles.cells 1 last) 4 :=
  have h : ofChain 1 twoAndThreeAngles 1 1 =
    .ok ⟨1, twoAndThreeAngles, [⟨1, 2⟩, ⟨3, 5⟩], 1, 0⟩ := rfl
  ⟨h, ((successor_from_anywhere h).1 1 4).1 rfl⟩

end Route

end OpticalDisc
