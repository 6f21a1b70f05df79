import Mathlib.Tactic
import OpticalDisc.Storage.Sectors

/-!
# The contents of sectors

Byte arrays joined end to end, and the law of a device that answers from fixed contents. Such a
device may answer with fewer sectors than it was asked for, or report more of them, but every sector
that it gives is one that it holds, with its contents.
-/

namespace OpticalDisc

def joinBytes : List ByteArray → ByteArray
  | [] => .empty
  | part :: rest => part ++ joinBytes rest

@[simp] theorem joinBytes_nil : joinBytes [] = .empty := rfl

@[simp] theorem joinBytes_cons (part : ByteArray) (rest : List ByteArray) :
    joinBytes (part :: rest) = part ++ joinBytes rest := rfl

@[simp] theorem joinBytes_append (front rest : List ByteArray) :
    joinBytes (front ++ rest) = joinBytes front ++ joinBytes rest := by
  induction front with
  | nil => simp
  | cons part front ih => simp [ih, ByteArray.append_assoc]

theorem size_joinBytes (parts : List ByteArray) :
    (joinBytes parts).size = (parts.map ByteArray.size).sum := by
  induction parts with
  | nil => rfl
  | cons part rest ih => simp [ih]

theorem size_joinBytes_of_uniform {parts : List ByteArray} {size : Nat}
    (h : ∀ part ∈ parts, part.size = size) : (joinBytes parts).size = parts.length * size := by
  induction parts with
  | nil => simp
  | cons part rest ih =>
    have hpart := h part (List.mem_cons_self ..)
    have hrest : (joinBytes rest).size = rest.length * size := by
      apply ih
      intro later hlater
      exact h later (List.mem_cons_of_mem _ hlater)
    rw [joinBytes_cons, ByteArray.size_append, hpart, hrest, List.length_cons, Nat.succ_mul,
      Nat.add_comm]

theorem size_joinBytes_map {α : Type} {encode : α → ByteArray} {size : Nat}
    (hsize : ∀ a, (encode a).size = size) (list : List α) :
    (joinBytes (list.map encode)).size = list.length * size := by
  rw [size_joinBytes_of_uniform, List.length_map]
  intro part hpart
  obtain ⟨a, -, rfl⟩ := List.mem_map.1 hpart
  exact hsize a

theorem extract_size (bytes : ByteArray) (start stop : Nat) :
    bytes.extract start (start + (bytes.extract start stop).size) = bytes.extract start stop := by
  by_cases h : start ≤ stop
  · have hstop : start + (bytes.extract start stop).size ≤ stop := by
      rw [ByteArray.size_extract]
      omega
    conv_rhs => rw [← @ByteArray.extract_zero_size (bytes.extract start stop)]
    rw [ByteArray.extract_extract, Nat.add_zero, Nat.min_eq_left hstop]
  · have hnone : bytes.extract start stop = .empty := by
      rw [ByteArray.extract_eq_empty_iff]
      omega
    rw [hnone, ByteArray.size_empty, Nat.add_zero, ByteArray.extract_same]

theorem extract_append_left {front rest : ByteArray} {start stop : Nat} (h : stop ≤ front.size) :
    (front ++ rest).extract start stop = front.extract start stop := by
  have hrest : rest.extract (start - front.size) (stop - front.size) = .empty := by
    rw [ByteArray.extract_eq_empty_iff]
    omega
  rw [ByteArray.extract_append, hrest, ByteArray.append_empty]

theorem extract_append_right {front rest : ByteArray} {start stop : Nat} (h : front.size ≤ start) :
    (front ++ rest).extract start stop =
      rest.extract (start - front.size) (stop - front.size) := by
  have hfront : front.extract start stop = .empty := by
    rw [ByteArray.extract_eq_empty_iff]
    omega
  rw [ByteArray.extract_append, hfront, ByteArray.empty_append]

theorem extract_append_middle (front middle rest : ByteArray) :
    (front ++ (middle ++ rest)).extract front.size (front.size + middle.size) = middle := by
  have h := @ByteArray.extract_append_size_add front (middle ++ rest) 0 middle.size
  rw [Nat.add_zero] at h
  rw [h, ByteArray.extract_append_size_left, ByteArray.extract_zero_size]

def sectorBytes (contents : Nat → ByteArray) (sectors : List Nat) : ByteArray :=
  joinBytes (sectors.map contents)

variable {contents : Nat → ByteArray}

@[simp] theorem sectorBytes_nil : sectorBytes contents [] = .empty := rfl

@[simp] theorem sectorBytes_append (front rest : List Nat) :
    sectorBytes contents (front ++ rest) = sectorBytes contents front ++ sectorBytes contents rest := by
  simp [sectorBytes]

theorem size_sectorBytes {sectors : List Nat}
    (h : ∀ sector ∈ sectors, (contents sector).size = sectorSize) :
    (sectorBytes contents sectors).size = sectorOffset sectors.length := by
  have hparts : ∀ part ∈ sectors.map contents, part.size = sectorSize := by
    intro part hpart
    obtain ⟨sector, hsector, rfl⟩ := List.mem_map.1 hpart
    exact h sector hsector
  rw [sectorBytes, size_joinBytes_of_uniform hparts, List.length_map, sectorOffset]

/-- Consecutive sectors are cut out of the bytes of all of them. -/
theorem extract_sectorBytes {sectors : List Nat}
    (h : ∀ sector ∈ sectors, (contents sector).size = sectorSize) {start count : Nat}
    (hcount : start + count ≤ sectors.length) :
    (sectorBytes contents sectors).extract (sectorOffset start) (sectorOffset (start + count)) =
      sectorBytes contents ((sectors.drop start).take count) := by
  have hsplit : sectors =
      sectors.take start ++ ((sectors.drop start).take count ++ (sectors.drop start).drop count) := by
    rw [List.take_append_drop, List.take_append_drop]
  have hfront : (sectorBytes contents (sectors.take start)).size = sectorOffset start := by
    have hsizes : ∀ sector ∈ sectors.take start, (contents sector).size = sectorSize := by
      intro sector hsector
      exact h sector (List.mem_of_mem_take hsector)
    rw [size_sectorBytes hsizes, List.length_take, Nat.min_eq_left (by omega)]
  have hmiddle : (sectorBytes contents ((sectors.drop start).take count)).size =
      sectorOffset count := by
    have hsizes : ∀ sector ∈ (sectors.drop start).take count,
        (contents sector).size = sectorSize := by
      intro sector hsector
      exact h sector (List.mem_of_mem_drop (List.mem_of_mem_take hsector))
    rw [size_sectorBytes hsizes, List.length_take, List.length_drop, Nat.min_eq_left (by omega)]
  have hend : sectorOffset (start + count) = sectorOffset start + sectorOffset count :=
    Nat.add_mul start count sectorSize
  conv_lhs => rw [hsplit]
  rw [hend, ← hfront, ← hmiddle, sectorBytes_append, sectorBytes_append, extract_append_middle]

/-- A device that answers every request in its `good` states, from the sectors that it holds: with at
least one where it holds the first, and with none where it does not. -/
structure SectorDevice.Serves {σ : Type} [SectorDevice σ] (contents : Nat → ByteArray)
    (held : Nat → Prop) (good : σ → Prop) : Prop where
  answer {device : σ} {lba count : Nat} :
    good device → 0 < count → lba + count < UInt32.size →
    ∃ blocks device',
      SectorDevice.readSlice lba count (count * sectorSize) device = .ok blocks device' ∧
      good device' ∧ (0 < blocks.reported ↔ held lba) ∧
      (∀ sector ∈ List.range' lba (min blocks.reported count), held sector) ∧
      blocks.data = sectorBytes contents (List.range' lba (min blocks.reported count))

theorem SectorDevice.Serves.size_contents {σ : Type} [SectorDevice σ] {held : Nat → Prop}
    {good : σ → Prop} (h : Serves contents held good) {device : σ} (hgood : good device)
    {sector : Nat} (hword : sector + 1 < UInt32.size) (hheld : held sector) :
    (contents sector).size = sectorSize := by
  obtain ⟨blocks, -, -, -, hreported, -, hdata⟩ := h.answer hgood Nat.one_pos hword
  have hone : min blocks.reported 1 = 1 := Nat.min_eq_right (hreported.2 hheld)
  have hsize := blocks.size_data
  rw [hdata, hone] at hsize
  simpa [sectorBytes] using hsize

end OpticalDisc
