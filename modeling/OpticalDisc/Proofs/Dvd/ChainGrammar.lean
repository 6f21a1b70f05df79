import Mathlib.Computability.Language
import OpticalDisc.Proofs.Dvd.AngleBlocks

/-!
# The grammar of chains

The roles of a chain's cells read as a word. The chains that the check lets pass are those with
playable cells whose word is made of single cells and of angle blocks: members that a last one
closes. The check reads the word from the left, and what may still come depends only on whether a
block is open.
-/

namespace OpticalDisc

namespace AngleRole

open Computability

/-- Members, as many as there are, and a last one. -/
def blockWords : Language AngleRole :=
  {[member]}∗ * {[last]}

/-- Single cells and angle blocks one after the other. -/
def chainWords : Language AngleRole :=
  ({[none]} + blockWords)∗

/-- The words that may still come, when a block is open and when none is. -/
def wordsAfter (start? : Option Nat) : Language AngleRole :=
  if start?.isSome then blockWords * chainWords else chainWords

variable {role : AngleRole} {rest : List AngleRole} {words : Language AngleRole}

theorem mem_singleton_mul {roles : List AngleRole} :
    roles ∈ ({[role]} : Language AngleRole) * words ↔ ∃ rest ∈ words, roles = role :: rest := by
  constructor
  · rintro ⟨front, rfl, rest, hrest, rfl⟩
    exact ⟨rest, hrest, rfl⟩
  · rintro ⟨rest, hrest, rfl⟩
    exact ⟨[role], rfl, rest, hrest, rfl⟩

theorem mem_open_iff {roles : List AngleRole} : roles ∈ blockWords * chainWords ↔
    (∃ rest ∈ chainWords, roles = last :: rest) ∨
      ∃ rest ∈ blockWords * chainWords, roles = member :: rest := by
  have hblock : blockWords = {[last]} + {[member]} * blockWords := by
    conv_lhs =>
      rw [blockWords, ← Language.one_add_self_mul_kstar_eq_kstar, add_mul, one_mul, mul_assoc]
    rfl
  conv_lhs => rw [hblock, add_mul, mul_assoc, Language.mem_add]
  rw [mem_singleton_mul, mem_singleton_mul]

/-- A chain is at its end, or goes on with a single cell or with a block. -/
theorem mem_chainWords_iff {roles : List AngleRole} : roles ∈ chainWords ↔
    roles = [] ∨ (∃ rest ∈ chainWords, roles = none :: rest) ∨
      roles ∈ blockWords * chainWords := by
  have hchain : chainWords = 1 + ({[none]} * chainWords + blockWords * chainWords) := by
    conv_lhs => rw [chainWords, ← Language.one_add_self_mul_kstar_eq_kstar, add_mul]
    rfl
  conv_lhs => rw [hchain, Language.mem_add, Language.mem_add]
  rw [Language.mem_one, mem_singleton_mul]

theorem nil_mem_chainWords : [] ∈ chainWords :=
  Language.nil_mem_kstar _

theorem none_cons_mem_chainWords : none :: rest ∈ chainWords ↔ rest ∈ chainWords := by
  rw [mem_chainWords_iff, mem_open_iff]
  simp

theorem none_cons_notMem_open : none :: rest ∉ blockWords * chainWords := by
  rw [mem_open_iff]
  simp

theorem nil_notMem_open : [] ∉ blockWords * chainWords := by
  rw [mem_open_iff]
  simp

variable {start? : Option Nat}

theorem member_cons_mem_wordsAfter :
    member :: rest ∈ wordsAfter start? ↔ rest ∈ blockWords * chainWords := by
  have hopen : member :: rest ∈ blockWords * chainWords ↔ rest ∈ blockWords * chainWords := by
    rw [mem_open_iff]
    simp
  cases start? with
  | none =>
    rw [← hopen, wordsAfter, Option.isSome_none, if_neg Bool.false_ne_true, mem_chainWords_iff]
    simp
  | some start => exact hopen

theorem last_cons_mem_wordsAfter : last :: rest ∈ wordsAfter start? ↔ rest ∈ chainWords := by
  have hopen : last :: rest ∈ blockWords * chainWords ↔ rest ∈ chainWords := by
    rw [mem_open_iff]
    simp
  cases start? with
  | none =>
    rw [← hopen, wordsAfter, Option.isSome_none, if_neg Bool.false_ne_true, mem_chainWords_iff]
    simp
  | some start => exact hopen

end AngleRole

theorem Cell.check_of_playable {cell : Cell} (h : cell.Playable) (index : Nat) :
    cell.check index = .ok () := by
  have hfirst := h.first_le
  have hlast := h.last_lt
  rw [Cell.check, if_neg (by omega), if_neg (by omega)]

theorem Cell.corrupt_of_check {cell : Cell} {index : Nat} {e : Error}
    (h : cell.check index = .error e) : ∃ text, e = .corruptIndex text := by
  unfold Cell.check at h
  simp only at h
  split at h
  · exact ⟨_, (Except.error.inj h).symm⟩
  · split at h
    · exact ⟨_, (Except.error.inj h).symm⟩
    · simp at h

theorem angleBlocks_cons {cell : Cell} (h : cell.Playable) (index : Nat) (start? : Option Nat)
    (rest : List Cell) : angleBlocks index start? (cell :: rest) =
      match cell.role, start? with
      | .none, none => angleBlocks (index + 1) none rest
      | .none, some start =>
        .error (.corruptIndex
          s!"angle block at cell {start + 1} not terminated before cell {index + 1}")
      | .member, _ => angleBlocks (index + 1) (some (start?.getD index)) rest
      | .last, _ =>
        (angleBlocks (index + 1) none rest).map (⟨start?.getD index, index⟩ :: ·) := by
  conv_lhs => unfold angleBlocks
  simp only [Cell.check_of_playable h, bind, Except.bind]
  cases cell.role with
  | none => cases start? <;> rfl
  | member => rfl
  | last => cases angleBlocks (index + 1) none rest <;> rfl

theorem corrupt_of_angleBlocks {index : Nat} {start? : Option Nat} {cells : List Cell} {e : Error}
    (h : angleBlocks index start? cells = .error e) : ∃ text, e = .corruptIndex text := by
  induction cells generalizing index start? with
  | nil =>
    cases start? with
    | none => simp [angleBlocks] at h
    | some start => exact ⟨_, (Except.error.inj h).symm⟩
  | cons cell rest ih =>
    cases hcheck : cell.check index with
    | error e' =>
      obtain rfl : e' = e := by simpa [angleBlocks, hcheck, bind, Except.bind] using h
      exact Cell.corrupt_of_check hcheck
    | ok u =>
      rw [angleBlocks_cons (Cell.playable_of_check hcheck)] at h
      split at h
      · exact ih h
      · exact ⟨_, (Except.error.inj h).symm⟩
      · exact ih h
      · cases hrest : angleBlocks (index + 1) none rest with
        | error e' =>
          obtain rfl : e' = e := by simpa [hrest, Except.map] using h
          exact ih hrest
        | ok more => simp [hrest, Except.map] at h

/-- The check lets pass the playable cells whose roles are a word that may come. -/
theorem angleBlocks_ok_iff {index : Nat} {start? : Option Nat} {cells : List Cell} :
    (∃ blocks, angleBlocks index start? cells = .ok blocks) ↔
      (∀ cell ∈ cells, cell.Playable) ∧
        cells.map (·.role) ∈ AngleRole.wordsAfter start? := by
  induction cells generalizing index start? with
  | nil =>
    cases start? with
    | none => simp [angleBlocks, AngleRole.wordsAfter, AngleRole.nil_mem_chainWords]
    | some start => simp [angleBlocks, AngleRole.wordsAfter, AngleRole.nil_notMem_open]
  | cons cell rest ih =>
    by_cases hplay : cell.Playable
    · rw [angleBlocks_cons hplay, List.forall_mem_cons, List.map_cons]
      cases hrole : cell.role with
      | none =>
        cases start? with
        | none =>
          simp only [ih, hplay, true_and, AngleRole.wordsAfter, Option.isSome_none,
            Bool.false_eq_true, if_false, AngleRole.none_cons_mem_chainWords]
        | some start =>
          simp [AngleRole.wordsAfter, AngleRole.none_cons_notMem_open]
      | member =>
        simp only [ih, hplay, true_and, AngleRole.member_cons_mem_wordsAfter]
        simp [AngleRole.wordsAfter]
      | last =>
        have hmap : (∃ blocks, (angleBlocks (index + 1) none rest).map
            (AngleBlock.mk (start?.getD index) index :: ·) = .ok blocks) ↔
            ∃ more, angleBlocks (index + 1) none rest = .ok more := by
          cases angleBlocks (index + 1) none rest <;> simp [Except.map]
        simp only [hmap, ih, hplay, true_and, AngleRole.last_cons_mem_wordsAfter]
        simp [AngleRole.wordsAfter]
    · constructor
      · rintro ⟨blocks, h⟩
        exact absurd (angleBlocks_cons_ok h).1 hplay
      · rintro ⟨hall, -⟩
        exact absurd (hall cell (List.mem_cons_self ..)) hplay

end OpticalDisc
