import Mathlib.Tactic
import OpticalDisc.Storage.Joined

/-!
# The parts of joined stores

An offset into parts that stand end to end lies in the part whose stretch holds it, so never in an
empty one, or past them all. A read comes from that part alone, and fails as that part fails.
-/

namespace OpticalDisc

variable {ρ : Type}

def lengthOfParts (parts : List (StorePart ρ)) : Nat :=
  (parts.map StorePart.length).sum

@[simp] theorem lengthOfParts_nil : lengthOfParts ([] : List (StorePart ρ)) = 0 := rfl

@[simp] theorem lengthOfParts_cons (part : StorePart ρ) (rest : List (StorePart ρ)) :
    lengthOfParts (part :: rest) = part.length + lengthOfParts rest := rfl

theorem JoinedStore.length_eq_lengthOfParts (s : JoinedStore ρ) :
    s.length = lengthOfParts s.parts := by
  unfold length
  induction s.parts with
  | nil => rfl
  | cons part rest ih => rw [List.foldr_cons, ih, lengthOfParts_cons]

/-- The offset lies in this part, which stands between those before and those after it. -/
structure Locates (parts : List (StorePart ρ)) (offset : Nat) (before : List (StorePart ρ))
    (part : StorePart ρ) (after : List (StorePart ρ)) : Prop where
  parts_eq : parts = before ++ part :: after
  le_offset : lengthOfParts before ≤ offset
  offset_lt : offset < lengthOfParts before + part.length

theorem locates_head {part : StorePart ρ} {rest : List (StorePart ρ)} {offset : Nat}
    (h : offset < part.length) : Locates (part :: rest) offset [] part rest where
  parts_eq := rfl
  le_offset := Nat.zero_le _
  offset_lt := by simpa using h

theorem Locates.cons {rest before after : List (StorePart ρ)} {part : StorePart ρ} {offset : Nat}
    (h : Locates rest offset before part after) (first : StorePart ρ) :
    Locates (first :: rest) (first.length + offset) (first :: before) part after where
  parts_eq := by rw [h.parts_eq, List.cons_append]
  le_offset := by
    have := h.le_offset
    rw [lengthOfParts_cons]
    omega
  offset_lt := by
    have := h.offset_lt
    rw [lengthOfParts_cons]
    omega

theorem exists_locates {parts : List (StorePart ρ)} {offset : Nat}
    (h : offset < lengthOfParts parts) :
    ∃ before part after, Locates parts offset before part after := by
  induction parts generalizing offset with
  | nil => simp at h
  | cons first rest ih =>
    by_cases hin : offset < first.length
    · exact ⟨[], first, rest, locates_head hin⟩
    · rw [lengthOfParts_cons] at h
      obtain ⟨before, part, after, hlocates⟩ := @ih (offset - first.length) (by omega)
      have hcons := hlocates.cons first
      rw [Nat.add_sub_cancel' (Nat.not_lt.1 hin)] at hcons
      exact ⟨first :: before, part, after, hcons⟩

theorem JoinedStore.seek_eq_ok {target : SeekTarget} {s s' : JoinedStore ρ} {reached : Nat}
    (h : JoinedStore.seek target s = .ok reached s') :
    target.resolve? s.position s.length = some reached ∧ s' = { s with position := reached } := by
  unfold JoinedStore.seek at h
  split at h
  · rename_i position hposition
    simp only [EStateM.Result.ok.injEq] at h
    obtain ⟨rfl, rfl⟩ := h
    exact ⟨hposition, rfl⟩
  · simp at h

theorem JoinedStore.seek_of_resolve?_eq_some {s : JoinedStore ρ} {target : SeekTarget}
    {position : Nat} (h : target.resolve? s.position s.length = some position) :
    JoinedStore.seek target s = .ok position { s with position } := by
  simp only [JoinedStore.seek, h]

theorem JoinedStore.seek_of_resolve?_eq_none {s : JoinedStore ρ} {target : SeekTarget}
    (h : target.resolve? s.position s.length = none) :
    JoinedStore.seek target s =
      .error (.reported .invalidInput "seek before start of VOB set") s := by
  simp only [JoinedStore.seek, h]

variable [SeekableBytes ρ] {n offset : Nat} {parts before after : List (StorePart ρ)}
  {part : StorePart ρ}

/-- What one part brings: it is sought to the offset and read as far as it reaches. -/
def StorePart.readAt (part : StorePart ρ) (n offset : Nat) : EStateM.Result IoError ρ (Chunk n) :=
  match SeekableBytes.seek (.start offset) part.store with
  | .error e store => .error e store
  | .ok _ store =>
    match SeekableBytes.read (min n (part.length - offset)) store with
    | .error e store => .error e store
    | .ok chunk store => .ok (chunk.widen (Nat.min_le_left ..)) store

namespace JoinedStore

theorem readParts_of_lt (h : offset < part.length) :
    readParts n offset (part :: after) =
      match part.readAt n offset with
      | .error e store => .error e ({ part with store } :: after)
      | .ok chunk store => .ok chunk ({ part with store } :: after) := by
  simp only [readParts, if_pos h, StorePart.readAt]
  cases SeekableBytes.seek (.start offset) part.store with
  | error e store => rfl
  | ok reached store =>
    dsimp only
    cases SeekableBytes.read (min n (part.length - offset)) store <;> rfl

/-- A read is answered by the part that holds the offset. The induction is on the parts before it,
which are passed over. -/
theorem readParts_of_locates (h : Locates parts offset before part after) :
    readParts n offset parts =
      match part.readAt n (offset - lengthOfParts before) with
      | .error e store => .error e (before ++ { part with store } :: after)
      | .ok chunk store => .ok chunk (before ++ { part with store } :: after) := by
  obtain ⟨rfl, hle, hlt⟩ := h
  induction before generalizing offset with
  | nil =>
    rw [lengthOfParts_nil, Nat.zero_add] at hlt
    exact readParts_of_lt hlt
  | cons first rest ih =>
    rw [lengthOfParts_cons] at hle hlt
    have hrest := @ih (offset - first.length) (by omega) (by omega)
    rw [Nat.sub_sub] at hrest
    simp only [List.cons_append, readParts, if_neg (show ¬ offset < first.length by omega), hrest,
      lengthOfParts_cons]
    cases part.readAt n (offset - (first.length + lengthOfParts rest)) <;> rfl

theorem readParts_of_past (h : lengthOfParts parts ≤ offset) :
    readParts n offset parts = .ok (Chunk.empty n) parts := by
  induction parts generalizing offset with
  | nil => rfl
  | cons first rest ih =>
    rw [lengthOfParts_cons] at h
    have hrest := @ih (offset - first.length) (by omega)
    simp only [readParts, if_neg (show ¬ offset < first.length by omega), hrest]

theorem read_cases (s : JoinedStore ρ) (n : Nat) :
    (lengthOfParts s.parts ≤ s.position ∧ read n s = .ok (Chunk.empty n) s) ∨
      ∃ before part after, Locates s.parts s.position before part after ∧
        ((∃ chunk store, part.readAt n (s.position - lengthOfParts before) = .ok chunk store ∧
          read n s = .ok chunk
            ⟨before ++ { part with store } :: after, s.position + chunk.1.size⟩) ∨
        ∃ e store, part.readAt n (s.position - lengthOfParts before) = .error e store ∧
          read n s = .error e ⟨before ++ { part with store } :: after, s.position⟩) := by
  by_cases hpast : lengthOfParts s.parts ≤ s.position
  · left
    refine ⟨hpast, ?_⟩
    simp only [read, readParts_of_past hpast]
    rfl
  · right
    obtain ⟨before, part, after, hlocates⟩ := exists_locates (Nat.not_le.1 hpast)
    refine ⟨before, part, after, hlocates, ?_⟩
    simp only [read, readParts_of_locates hlocates]
    cases hread : part.readAt n (s.position - lengthOfParts before) with
    | ok chunk store => exact .inl ⟨chunk, store, rfl, rfl⟩
    | error e store => exact .inr ⟨e, store, rfl, rfl⟩

end JoinedStore

end OpticalDisc
