import OpticalDisc.Storage.ByteStore

/-!
# Stores joined end to end

Several byte stores read as one. Each part is measured once, when the parts are joined. A read is
answered from the one part that holds the position, so it never crosses into the next.
-/

namespace OpticalDisc

variable {ρ : Type}

/-- A store and the length it was measured with. -/
structure StorePart (ρ : Type) where
  store : ρ
  length : Nat

structure JoinedStore (ρ : Type) where
  parts : List (StorePart ρ)
  position : Nat := 0

namespace JoinedStore

def length (s : JoinedStore ρ) : Nat :=
  s.parts.foldr (fun part rest => part.length + rest) 0

/-- Changes the stores, whose measured lengths stay. -/
def mapStores (change : ρ → ρ) (s : JoinedStore ρ) : JoinedStore ρ :=
  { s with parts := s.parts.map fun part => { part with store := change part.store } }

/-- Measures a store by seeking to its end. -/
def measure [SeekableBytes ρ] (store : ρ) : Except IoError (StorePart ρ) :=
  match SeekableBytes.seek (.fromEnd 0) store with
  | .ok length store => .ok ⟨store, length⟩
  | .error e _ => .error e

/-- Joins stores in order, with the position at the start. -/
def join [SeekableBytes ρ] (stores : List ρ) : Except IoError (JoinedStore ρ) := do
  return { parts := ← stores.mapM measure }

/-- Reads up to `n` bytes from `offset` bytes into the first of `parts` on. -/
def readParts [SeekableBytes ρ] (n : Nat) (offset : Nat) :
    EStateM IoError (List (StorePart ρ)) (Chunk n)
  | [] => .ok (Chunk.empty n) []
  | part :: rest =>
    if offset < part.length then
      match SeekableBytes.seek (.start offset) part.store with
      | .error e store => .error e ({ part with store } :: rest)
      | .ok _ store =>
        match SeekableBytes.read (min n (part.length - offset)) store with
        | .error e store => .error e ({ part with store } :: rest)
        | .ok chunk store => .ok (chunk.widen (Nat.min_le_left ..)) ({ part with store } :: rest)
    else
      match readParts n (offset - part.length) rest with
      | .error e rest => .error e (part :: rest)
      | .ok chunk rest => .ok chunk (part :: rest)

def read [SeekableBytes ρ] (n : Nat) : EStateM IoError (JoinedStore ρ) (Chunk n) := fun s =>
  match readParts n s.position s.parts with
  | .error e parts => .error e { s with parts }
  | .ok chunk parts => .ok chunk { parts, position := s.position + chunk.1.size }

def seek (target : SeekTarget) : EStateM IoError (JoinedStore ρ) Nat := fun s =>
  match target.resolve? s.position s.length with
  | some position => .ok position { s with position }
  | none => .error (.reported .invalidInput "seek before start of VOB set") s

instance [SeekableBytes ρ] : SeekableBytes (JoinedStore ρ) where
  read := read
  seek := seek

/-- The interruptions that the parts can still cause together. -/
def patience [ByteStore ρ] (parts : List (StorePart ρ)) : Nat :=
  parts.foldr (fun part rest => ByteStore.patience part.store + rest) 0

@[simp] theorem patience_cons [ByteStore ρ] (part : StorePart ρ) (rest : List (StorePart ρ)) :
    patience (part :: rest) = ByteStore.patience part.store + patience rest := rfl

theorem readParts_interrupted [ByteStore ρ] {n : Nat} {e : IoError} (hk : e.kind = .interrupted)
    {offset : Nat} {parts parts' : List (StorePart ρ)}
    (h : readParts n offset parts = .error e parts') : patience parts' < patience parts := by
  induction parts generalizing offset parts' with
  | nil => simp [readParts] at h
  | cons part rest ih =>
    simp only [readParts] at h
    split at h
    · split at h
      · rename_i hs
        simp only [EStateM.Result.error.injEq] at h
        obtain ⟨rfl, rfl⟩ := h
        have := ByteStore.seek_interrupted hs hk
        simp only [patience_cons]
        omega
      · rename_i hs
        have hle := ByteStore.seek_patience hs
        split at h
        · rename_i hr
          simp only [EStateM.Result.error.injEq] at h
          obtain ⟨rfl, rfl⟩ := h
          have := ByteStore.read_interrupted hr hk
          simp only [patience_cons]
          omega
        · simp at h
    · split at h
      · rename_i hr
        simp only [EStateM.Result.error.injEq] at h
        obtain ⟨rfl, rfl⟩ := h
        have := ih hr
        simp only [patience_cons]
        omega
      · simp at h

instance [ByteStore ρ] : ByteStore (JoinedStore ρ) where
  patience s := patience s.parts
  read_interrupted {n s s' e} h hk := by
    change read n s = _ at h
    unfold read at h
    split at h
    · rename_i hr
      simp only [EStateM.Result.error.injEq] at h
      obtain ⟨rfl, rfl⟩ := h
      exact readParts_interrupted hk hr
    · simp at h
  seek_interrupted {target s s' e} h hk := by
    change seek target s = _ at h
    unfold seek at h
    split at h
    · simp at h
    · simp only [EStateM.Result.error.injEq] at h
      simp [← h.1, IoError.kind] at hk
  seek_patience {target s s' position} h := by
    change seek target s = _ at h
    unfold seek at h
    split at h
    · simp only [EStateM.Result.ok.injEq] at h
      exact h.2 ▸ Nat.le_refl _
    · simp at h

end JoinedStore

end OpticalDisc
