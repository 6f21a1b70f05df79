import Mathlib.Tactic
import OpticalDisc.Dvd.Route

/-!
# The angle blocks of a chain

A chain that passes the check splits into single cells and angle blocks: runs of members that a last
member closes. Every cell of a run lies in one of the blocks that are found. So the cell after a
block, or after a single cell, either stands alone or is the first member of the next block, and the
chosen angle of that block is still inside the chain.
-/

namespace OpticalDisc

def roleAt? (cells : List Cell) (index : Nat) : Option AngleRole :=
  cells[index]?.map (·.role)

theorem roleAt?_of_getElem? {cells : List Cell} {index : Nat} {cell : Cell}
    (h : cells[index]? = some cell) : roleAt? cells index = some cell.role := by
  simp [roleAt?, h]

theorem lt_length_of_roleAt? {cells : List Cell} {index : Nat} {role : AngleRole}
    (h : roleAt? cells index = some role) : index < cells.length := by
  obtain ⟨cell, hcell, -⟩ := Option.map_eq_some_iff.1 h
  exact (List.getElem?_eq_some_iff.1 hcell).1

/-- The block is a whole run of `cells`: members up to a last one. -/
structure AngleBlock.Spans (block : AngleBlock) (cells : List Cell) : Prop where
  first_le : block.first ≤ block.last
  member {i : Nat} : block.first ≤ i → i < block.last → roleAt? cells i = some .member
  last : roleAt? cells block.last = some .last

theorem AngleBlock.contains_iff {block : AngleBlock} {cell : Nat} :
    block.contains cell = true ↔ block.first ≤ cell ∧ cell ≤ block.last := by
  simp [AngleBlock.contains]

/-- The cell has a range of sectors that is not empty and ends before the last sector number. -/
structure Cell.Playable (cell : Cell) : Prop where
  first_le : cell.firstSector.toNat ≤ cell.lastSector.toNat
  last_lt : cell.lastSector.toNat < Cell.maxSector

theorem Cell.playable_of_check {cell : Cell} {index : Nat} (h : cell.check index = .ok ()) :
    cell.Playable := by
  have hword : cell.lastSector.toNat < UInt32.size := cell.lastSector.toNat_lt
  unfold Cell.check at h
  simp only at h
  split at h
  · simp at h
  · split at h
    · simp at h
    · constructor
      · omega
      · simp only [Cell.maxSector] at *
        omega

/-- What the check of a chain does at one cell. -/
theorem angleBlocks_cons_ok {index : Nat} {start? : Option Nat} {cell : Cell} {rest : List Cell}
    {blocks : List AngleBlock} (h : angleBlocks index start? (cell :: rest) = .ok blocks) :
    cell.Playable ∧
      ((cell.role = .none ∧ start? = none ∧ angleBlocks (index + 1) none rest = .ok blocks) ∨
        (cell.role = .member ∧
          angleBlocks (index + 1) (some (start?.getD index)) rest = .ok blocks) ∨
        (cell.role = .last ∧ ∃ more, angleBlocks (index + 1) none rest = .ok more ∧
          blocks = ⟨start?.getD index, index⟩ :: more)) := by
  unfold angleBlocks at h
  cases hc : cell.check index with
  | error e => simp [hc, bind, Except.bind] at h
  | ok u =>
    refine ⟨Cell.playable_of_check hc, ?_⟩
    simp only [hc, bind, Except.bind] at h
    cases hr : cell.role with
    | none =>
      cases start? with
      | none => exact .inl ⟨rfl, rfl, by simpa [hr] using h⟩
      | some start => simp [hr, throw, throwThe, MonadExceptOf.throw] at h
    | member => exact .inr (.inl ⟨rfl, by simpa [hr] using h⟩)
    | last =>
      simp only [hr] at h
      cases hm : angleBlocks (index + 1) none rest with
      | error e => simp [hm] at h
      | ok more =>
        refine .inr (.inr ⟨rfl, more, rfl, ?_⟩)
        simpa [hm, pure, Except.pure, eq_comm] using h

theorem playable_of_angleBlocks {index : Nat} {start? : Option Nat} {cells : List Cell}
    {blocks : List AngleBlock} (h : angleBlocks index start? cells = .ok blocks) :
    ∀ cell ∈ cells, cell.Playable := by
  induction cells generalizing index start? blocks with
  | nil => simp
  | cons cell rest ih =>
    intro c hc
    obtain ⟨hplay, hstep⟩ := angleBlocks_cons_ok h
    rcases List.mem_cons.1 hc with rfl | hc
    · exact hplay
    · rcases hstep with ⟨-, -, hrest⟩ | ⟨-, hrest⟩ | ⟨-, more, hrest, -⟩
      · exact ih hrest c hc
      · exact ih hrest c hc
      · exact ih hrest c hc

/-- A run that has begun at `start?` and reaches up to `index` holds members only. -/
def OpenRun (cells : List Cell) (index : Nat) (start? : Option Nat) : Prop :=
  ∀ start, start? = some start →
    start < index ∧ ∀ i, start ≤ i → i < index → roleAt? cells i = some .member

theorem openRun_none (cells : List Cell) (index : Nat) : OpenRun cells index none := by
  simp [OpenRun]

theorem OpenRun.getD_le {cells : List Cell} {index : Nat} {start? : Option Nat}
    (h : OpenRun cells index start?) : start?.getD index ≤ index := by
  cases start? with
  | none => exact le_rfl
  | some start => exact (h start rfl).1.le

theorem OpenRun.member {cells : List Cell} {index : Nat} {start? : Option Nat}
    (h : OpenRun cells index start?) {i : Nat} (hi : start?.getD index ≤ i) (hlt : i < index) :
    roleAt? cells i = some .member := by
  cases start? with
  | none => exact absurd hlt (Nat.not_lt.2 hi)
  | some start => exact (h start rfl).2 i hi hlt

theorem OpenRun.succ {cells : List Cell} {index : Nat} {start? : Option Nat}
    (h : OpenRun cells index start?) (hrole : roleAt? cells index = some .member) :
    OpenRun cells (index + 1) (some (start?.getD index)) := by
  intro start hstart
  obtain rfl := Option.some.inj hstart
  constructor
  · exact Nat.lt_succ_of_le h.getD_le
  · intro i hi hlt
    rcases Nat.lt_succ_iff_lt_or_eq.1 hlt with hlt | rfl
    · exact h.member hi hlt
    · exact hrole

theorem getElem?_of_drop_eq_cons {cells rest : List Cell} {index : Nat} {cell : Cell}
    (h : cells.drop index = cell :: rest) :
    cells[index]? = some cell ∧ cells.drop (index + 1) = rest := by
  constructor
  · rw [← List.head?_drop, h, List.head?_cons]
  · rw [← List.tail_drop, h, List.tail_cons]

theorem angleBlocks_spans {cells rest : List Cell} {index : Nat} {start? : Option Nat}
    {blocks : List AngleBlock} (hrest : cells.drop index = rest)
    (hopen : OpenRun cells index start?) (h : angleBlocks index start? rest = .ok blocks) :
    ∀ block ∈ blocks, block.Spans cells := by
  induction rest generalizing index start? blocks with
  | nil =>
    cases start? with
    | none =>
      obtain rfl : [] = blocks := by simpa [angleBlocks] using h
      simp
    | some start => simp [angleBlocks] at h
  | cons cell rest ih =>
    obtain ⟨hcell, hrest⟩ := getElem?_of_drop_eq_cons hrest
    have hrole := roleAt?_of_getElem? hcell
    obtain ⟨-, hstep⟩ := angleBlocks_cons_ok h
    rcases hstep with ⟨-, -, hmore⟩ | ⟨hmember, hmore⟩ | ⟨hlast, more, hmore, rfl⟩
    · exact ih hrest (openRun_none _ _) hmore
    · exact ih hrest (hopen.succ (hmember ▸ hrole)) hmore
    · intro block hblock
      rcases List.mem_cons.1 hblock with rfl | hblock
      · exact ⟨hopen.getD_le, hopen.member, hlast ▸ hrole⟩
      · exact ih hrest (openRun_none _ _) hmore block hblock

/-- Every cell of a run, the open one included, lies in one of the blocks that are found. -/
theorem exists_contains_of_angleBlocks {cells rest : List Cell} {index : Nat} {start? : Option Nat}
    {blocks : List AngleBlock} (hrest : cells.drop index = rest)
    (h : angleBlocks index start? rest = .ok blocks) {i : Nat} {cell : Cell}
    (hi : start?.getD index ≤ i) (hcell : cells[i]? = some cell) (hin : cell.role.inBlock = true) :
    ∃ block ∈ blocks, block.contains i = true := by
  induction rest generalizing index start? blocks with
  | nil =>
    cases start? with
    | none =>
      have hlt := (List.getElem?_eq_some_iff.1 hcell).1
      have hle := List.drop_eq_nil_iff.1 hrest
      simp only [Option.getD_none] at hi
      omega
    | some start => simp [angleBlocks] at h
  | cons head rest ih =>
    obtain ⟨hhead, hrest⟩ := getElem?_of_drop_eq_cons hrest
    obtain ⟨-, hstep⟩ := angleBlocks_cons_ok h
    rcases hstep with ⟨hnone, rfl, hmore⟩ | ⟨hmember, hmore⟩ | ⟨hlast, more, hmore, rfl⟩
    · -- a single cell is in no run, so the run of `i` lies behind it
      have hne : i ≠ index := by
        rintro rfl
        obtain rfl := Option.some.inj (hcell.symm.trans hhead)
        simp [hnone, AngleRole.inBlock] at hin
      exact ih hrest hmore (by simp only [Option.getD_none] at hi ⊢; omega)
    · exact ih hrest hmore hi
    · by_cases hle : i ≤ index
      · exact ⟨_, List.mem_cons_self, AngleBlock.contains_iff.2 ⟨hi, hle⟩⟩
      · obtain ⟨block, hblock, hcontains⟩ :=
          ih hrest hmore (by simp only [Option.getD_none]; omega)
        exact ⟨block, List.mem_cons_of_mem _ hblock, hcontains⟩

end OpticalDisc
