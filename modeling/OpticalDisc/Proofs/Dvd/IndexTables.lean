import OpticalDisc.Dvd.TitleSet
import OpticalDisc.Proofs.Storage.StoreContents

/-!
# Bytes at places of an index file

What stands at an offset of a file is what is read there: a range, a word in its big-endian bytes,
an identifier, or the place of a table. A title set is read from its two tables, one after the other.
-/

namespace OpticalDisc

theorem byteAt_extract {bytes : ByteArray} {start stop pos : Nat} (hpos : start + pos < stop)
    (hstop : stop ≤ bytes.size) :
    byteAt (bytes.extract start stop) pos = byteAt bytes (start + pos) := by
  have hin : pos < (bytes.extract start stop).size := by
    rw [ByteArray.size_extract]
    omega
  have hin' : start + pos < bytes.size := by omega
  simp only [byteAt, hin, hin', dite_true]
  exact ByteArray.getElem_extract hin

theorem natAt_extract {bytes : ByteArray} {start stop pos width : Nat}
    (hpos : start + (pos + width) ≤ stop) (hstop : stop ≤ bytes.size) :
    natAt (bytes.extract start stop) pos width = natAt bytes (start + pos) width := by
  induction width with
  | zero => rfl
  | succ width ih =>
    simp only [natAt]
    rw [ih (by omega), byteAt_extract (by omega) hstop, Nat.add_assoc]

theorem PartOfTitle.ofBytes_extract {bytes : ByteArray} {pos : Nat}
    (h : pos + encodedSize ≤ bytes.size) :
    ofBytes (bytes.extract pos (pos + encodedSize)) 0 = ofBytes bytes pos := by
  simp only [encodedSize] at h ⊢
  simp (disch := omega) only [ofBytes, word16At, natAt_extract, Nat.zero_add, Nat.add_zero]

theorem Cell.ofBytes_extract {bytes : ByteArray} {pos : Nat}
    (h : pos + encodedSize ≤ bytes.size) :
    ofBytes (bytes.extract pos (pos + encodedSize)) 0 = ofBytes bytes pos := by
  simp only [encodedSize] at h ⊢
  simp (disch := omega) only [ofBytes, word32At, byteAt_extract, natAt_extract, Nat.zero_add,
    Nat.add_zero]

theorem forall_mem_of_mapM_eq_ok {α β ε : Type} {f : α → Except ε β} {as : List α} {bs : List β}
    {p : β → Prop} (h : as.mapM f = .ok bs) (hf : ∀ a b, f a = .ok b → p b) : ∀ b ∈ bs, p b := by
  have hall := mapM_eq_ok_iff.1 h
  induction hall with
  | nil => simp
  | cons hfirst _ ih =>
    intro b hb
    rcases List.mem_cons.1 hb with rfl | hb
    · exact hf _ _ hfirst
    · exact ih (mapM_eq_ok_iff.2 ‹_›) b hb

theorem mapM_range_eq_ok_iff {α ε : Type} {read : Nat → Except ε α} {count : Nat} {list : List α} :
    (List.range count).mapM read = .ok list ↔
      list.length = count ∧ ∀ i a, list[i]? = some a → read i = .ok a := by
  rw [mapM_eq_ok_iff, List.forall₂_iff_get]
  constructor
  · rintro ⟨hlength, h⟩
    rw [List.length_range] at hlength
    refine ⟨hlength.symm, fun i a ha => ?_⟩
    obtain ⟨hi, rfl⟩ := List.getElem?_eq_some_iff.1 ha
    simpa using h i (by rwa [List.length_range, hlength]) hi
  · rintro ⟨hlength, h⟩
    refine ⟨by rw [List.length_range, hlength], fun i _ hi => ?_⟩
    simpa using h i list[i] (List.getElem?_eq_getElem hi)

theorem mapM_range_eq_ok {α ε : Type} {read : Nat → Except ε α} {list : List α}
    (h : ∀ i (hi : i < list.length), read i = .ok list[i]) :
    (List.range list.length).mapM read = .ok list := by
  refine mapM_range_eq_ok_iff.2 ⟨rfl, fun i a ha => ?_⟩
  obtain ⟨hi, rfl⟩ := List.getElem?_eq_some_iff.1 ha
  exact h i hi

/-- Each offset stops at the one behind it, and the last one at the end of the table. -/
theorem zipIdx_zip_stops (starts : List Nat) (tableEnd : Nat) :
    (starts.zip (starts.drop 1 ++ [tableEnd])).zipIdx =
      starts.zipIdx.map fun (start, index) =>
        ((start, starts[index + 1]?.getD tableEnd), index) := by
  apply List.ext_getElem
  · simp
    omega
  · intro i hi hi'
    simp only [List.length_map, List.length_zipIdx] at hi'
    simp only [List.getElem_zipIdx, List.getElem_zip, List.getElem_map, List.getElem_append,
      List.length_drop, List.getElem_drop, Nat.zero_add]
    split
    · rename_i hlast
      have hnext : i + 1 < starts.length := by omega
      simp [hnext, Nat.add_comm]
    · rename_i hlast
      have hnext : ¬i + 1 < starts.length := by omega
      simp [hnext]

theorem zipIdx_zip_stops_range (start : Nat → Nat) (count : Nat) :
    (((List.range count).map start).zip
        (((List.range count).map start).drop 1 ++ [start count])).zipIdx =
      (List.range count).map fun i => ((start i, start (i + 1)), i) := by
  rw [zipIdx_zip_stops]
  apply List.ext_getElem
  · simp
  · intro i hi hi'
    simp only [List.length_map, List.length_range] at hi'
    simp only [List.getElem_map, List.getElem_zipIdx, List.getElem_range, Nat.zero_add]
    by_cases hnext : i + 1 < count
    · simp [hnext]
    · obtain rfl : i + 1 = count := by omega
      simp

/-- The bytes stand in the data from an offset on. -/
def HoldsAt (data : ByteArray) (offset : Nat) (bytes : ByteArray) : Prop :=
  ∃ front back, data = front ++ (bytes ++ back) ∧ front.size = offset

namespace HoldsAt

variable {data bytes rest : ByteArray} {offset : Nat}

theorem refl (bytes : ByteArray) : HoldsAt bytes 0 bytes :=
  ⟨.empty, .empty, by simp, rfl⟩

theorem left (h : HoldsAt data offset (bytes ++ rest)) : HoldsAt data offset bytes := by
  obtain ⟨front, back, rfl, hfront⟩ := h
  exact ⟨front, rest ++ back, by simp [ByteArray.append_assoc], hfront⟩

theorem right (h : HoldsAt data offset (bytes ++ rest)) :
    HoldsAt data (offset + bytes.size) rest := by
  obtain ⟨front, back, rfl, hfront⟩ := h
  refine ⟨front ++ bytes, back, by simp [ByteArray.append_assoc], ?_⟩
  rw [ByteArray.size_append, hfront]

theorem at_eq {offset' : Nat} (h : HoldsAt data offset bytes) (he : offset = offset') :
    HoldsAt data offset' bytes :=
  he ▸ h

theorem part {parts : List ByteArray} (h : HoldsAt data offset (joinBytes parts)) (i : Nat)
    (hi : parts[i]? = some bytes) :
    HoldsAt data (offset + (joinBytes (parts.take i)).size) bytes := by
  obtain ⟨hlt, rfl⟩ := List.getElem?_eq_some_iff.1 hi
  have hsplit : joinBytes parts =
      joinBytes (parts.take i) ++ (parts[i] ++ joinBytes (parts.drop (i + 1))) := by
    rw [← joinBytes_cons, List.getElem_cons_drop, ← joinBytes_append, List.take_append_drop]
  rw [hsplit] at h
  exact h.right.left

theorem extract_eq (h : HoldsAt data offset bytes) :
    data.extract offset (offset + bytes.size) = bytes := by
  obtain ⟨front, back, rfl, rfl⟩ := h
  exact extract_append_middle front bytes back

theorem le_size (h : HoldsAt data offset bytes) : offset + bytes.size ≤ data.size := by
  obtain ⟨front, back, rfl, rfl⟩ := h
  simp only [ByteArray.size_append]
  omega

theorem byteAt_eq (h : HoldsAt data offset bytes) {pos : Nat} (hpos : pos < bytes.size) :
    byteAt data (offset + pos) = byteAt bytes pos := by
  rw [← byteAt_extract (Nat.add_lt_add_left hpos offset) h.le_size, h.extract_eq]

theorem natAt_eq (h : HoldsAt data offset bytes) {pos width : Nat}
    (hpos : pos + width ≤ bytes.size) :
    natAt data (offset + pos) width = natAt bytes pos width := by
  rw [← natAt_extract (Nat.add_le_add_left hpos offset) h.le_size, h.extract_eq]

theorem range_eq {file : IndexFile} {length : Nat} (h : HoldsAt file.data offset bytes)
    (hlength : bytes.size = length) : file.range offset length = .ok bytes := by
  subst hlength
  rw [IndexFile.range, if_pos h.le_size, h.extract_eq]

end HoldsAt

def zeroBytes (count : Nat) : ByteArray := ⟨Array.replicate count 0⟩

def byteBytes (byte : UInt8) : ByteArray := ⟨#[byte]⟩

def natBytes : (width : Nat) → Nat → ByteArray
  | 0, _ => .empty
  | width + 1, n => natBytes width (n / 256) ++ byteBytes (UInt8.ofNat n)

def word16Bytes (word : UInt16) : ByteArray := natBytes 2 word.toNat

def word32Bytes (word : UInt32) : ByteArray := natBytes 4 word.toNat

@[simp] theorem size_zeroBytes (count : Nat) : (zeroBytes count).size = count :=
  Array.size_replicate

@[simp] theorem size_byteBytes (byte : UInt8) : (byteBytes byte).size = 1 := rfl

@[simp] theorem size_natBytes (width n : Nat) : (natBytes width n).size = width := by
  induction width generalizing n with
  | zero => rfl
  | succ width ih => rw [natBytes, ByteArray.size_append, ih, size_byteBytes]

@[simp] theorem size_word16Bytes (word : UInt16) : (word16Bytes word).size = 2 := size_natBytes ..

@[simp] theorem size_word32Bytes (word : UInt32) : (word32Bytes word).size = 4 := size_natBytes ..

theorem natAt_lt (data : ByteArray) (offset width : Nat) : natAt data offset width < 256 ^ width := by
  induction width with
  | zero => exact Nat.one_pos
  | succ width ih =>
    have hlt := (byteAt data (offset + width)).toNat_lt
    rw [natAt, Nat.pow_succ]
    omega

theorem natAt_natBytes (width n : Nat) : natAt (natBytes width n) 0 width = n % 256 ^ width := by
  induction width generalizing n with
  | zero => simp [natAt, Nat.mod_one]
  | succ width ih =>
    have hfront : natAt (natBytes (width + 1) n) 0 width = n / 256 % 256 ^ width := by
      rw [natBytes, natAt_append_left _ _ _ _ (by simp), ih]
    have hlast : byteAt (natBytes (width + 1) n) (0 + width) = UInt8.ofNat n := by
      have hholds := (HoldsAt.refl (natBytes (width + 1) n)).right
      rw [size_natBytes] at hholds
      exact hholds.byteAt_eq Nat.one_pos
    rw [natAt, hfront, hlast, Nat.pow_succ', Nat.mod_mul, UInt8.toNat_ofNat', Nat.add_comm,
      Nat.mul_comm]

example : natBytes 4 0x01020304 = ⟨#[1, 2, 3, 4]⟩ := by decide

namespace HoldsAt

variable {data : ByteArray} {offset : Nat}

theorem byteAt_eq_byte {byte : UInt8} (h : HoldsAt data offset (byteBytes byte)) :
    byteAt data offset = byte :=
  h.byteAt_eq Nat.one_pos

theorem word16At_eq {word : UInt16} (h : HoldsAt data offset (word16Bytes word)) :
    word16At data offset = word := by
  have hword := h.natAt_eq (Nat.le_of_eq (size_word16Bytes word).symm : 0 + 2 ≤ _)
  have hlt : word.toNat < 256 ^ 2 := word.toNat_lt
  rw [word16At, ← Nat.add_zero offset, hword, word16Bytes, natAt_natBytes, Nat.mod_eq_of_lt hlt,
    UInt16.ofNat_toNat]

theorem word32At_eq {word : UInt32} (h : HoldsAt data offset (word32Bytes word)) :
    word32At data offset = word := by
  have hword := h.natAt_eq (Nat.le_of_eq (size_word32Bytes word).symm : 0 + 4 ≤ _)
  have hlt : word.toNat < 256 ^ 4 := word.toNat_lt
  rw [word32At, ← Nat.add_zero offset, hword, word32Bytes, natAt_natBytes, Nat.mod_eq_of_lt hlt,
    UInt32.ofNat_toNat]

variable {file : IndexFile}

theorem byte_eq {byte : UInt8} (h : HoldsAt file.data offset (byteBytes byte)) :
    file.byte offset = .ok byte := by
  rw [IndexFile.byte, h.range_eq (size_byteBytes byte)]
  rfl

theorem word16_eq {word : UInt16} (h : HoldsAt file.data offset (word16Bytes word)) :
    file.word16 offset = .ok word := by
  rw [IndexFile.word16, h.range_eq (size_word16Bytes word)]
  exact congrArg _ (refl (word16Bytes word)).word16At_eq

theorem word32_eq {word : UInt32} (h : HoldsAt file.data offset (word32Bytes word)) :
    file.word32 offset = .ok word := by
  rw [IndexFile.word32, h.range_eq (size_word32Bytes word)]
  exact congrArg _ (refl (word32Bytes word)).word32At_eq

theorem requireIdentifier_eq {identifier : String} (h : HoldsAt file.data 0 identifier.toUTF8) :
    file.requireIdentifier identifier = .ok () := by
  rw [IndexFile.requireIdentifier, h.range_eq String.size_toByteArray, ok_bind]
  exact if_pos rfl

theorem table?_eq_none (h : HoldsAt file.data offset (word32Bytes (.ofNat 0))) :
    file.table? offset = .ok none := by
  rw [IndexFile.table?, h.word32_eq]
  rfl

theorem table?_eq_some {sector : Nat} (h : HoldsAt file.data offset (word32Bytes (.ofNat sector)))
    (hpos : 0 < sector) (hword : sector < UInt32.size)
    (hinside : sectorOffset sector < file.data.size) :
    file.table? offset = .ok (some (sectorOffset sector)) := by
  rw [IndexFile.table?, h.word32_eq, ok_bind, UInt32.toNat_ofNat_of_lt' hword]
  dsimp only
  rw [if_neg (by omega), if_pos hinside]
  rfl

end HoldsAt

namespace HoldsAt

variable {data bytes rest : ByteArray} {offset : Nat}

theorem of_extract {length : Nat} (h : offset + length ≤ data.size) :
    HoldsAt data offset (data.extract offset (offset + length)) := by
  refine ⟨data.extract 0 offset, data.extract (offset + length) data.size, ?_, ?_⟩
  · rw [← ByteArray.extract_eq_extract_append_extract _ (by omega) h,
      ← ByteArray.extract_eq_extract_append_extract _ (by omega) (by omega),
      ByteArray.extract_zero_size]
  · rw [ByteArray.size_extract]
    omega

theorem append (h : HoldsAt data offset bytes) (hrest : HoldsAt data (offset + bytes.size) rest) :
    HoldsAt data offset (bytes ++ rest) := by
  have hsize := hrest.le_size
  have hboth : HoldsAt data offset
      (data.extract offset (offset + (bytes.size + rest.size))) := of_extract (by omega)
  rw [ByteArray.extract_eq_extract_append_extract (offset + bytes.size) (by omega) (by omega),
    h.extract_eq, ← Nat.add_assoc, hrest.extract_eq] at hboth
  exact hboth

/-- What stands in a stretch of bytes stands in the data that the stretch is cut out of. -/
theorem inside_iff {part : ByteArray} {pos : Nat} (h : HoldsAt data offset bytes)
    (hfits : pos + part.size ≤ bytes.size) :
    HoldsAt bytes pos part ↔ HoldsAt data (offset + pos) part := by
  have hle := h.le_size
  have hsame : bytes.extract pos (pos + part.size) =
      data.extract (offset + pos) (offset + pos + part.size) := by
    conv_lhs => rw [← h.extract_eq]
    rw [ByteArray.extract_extract, Nat.min_eq_left (by omega), Nat.add_assoc]
  constructor
  · intro hpart
    have hdata : HoldsAt data (offset + pos)
        (data.extract (offset + pos) (offset + pos + part.size)) := of_extract (by omega)
    rwa [← hsame, hpart.extract_eq] at hdata
  · intro hpart
    have hbytes := of_extract hfits
    rwa [hsame, hpart.extract_eq] at hbytes

theorem eq_of_size (h : HoldsAt data 0 bytes) (hsize : bytes.size = data.size) : bytes = data := by
  rw [← h.extract_eq, Nat.zero_add, hsize, ByteArray.extract_zero_size]

theorem byteBytes_byteAt (h : offset < data.size) :
    HoldsAt data offset (byteBytes (byteAt data offset)) := by
  have hbyte : HoldsAt data offset (data.extract offset (offset + 1)) := of_extract h
  rw [ByteArray.extract_add_one h] at hbyte
  rw [byteAt, dif_pos h]
  exact hbyte

theorem natBytes_natAt {width : Nat} (h : offset + width ≤ data.size) :
    HoldsAt data offset (natBytes width (natAt data offset width)) := by
  induction width with
  | zero =>
    have hnone := of_extract h
    rwa [Nat.add_zero, ByteArray.extract_same] at hnone
  | succ width ih =>
    have hbyte : HoldsAt data (offset + width) (byteBytes (byteAt data (offset + width))) :=
      byteBytes_byteAt (by omega)
    have hlow : UInt8.ofNat (natAt data offset (width + 1)) = byteAt data (offset + width) := by
      apply UInt8.toNat_inj.1
      have hlt := (byteAt data (offset + width)).toNat_lt
      rw [UInt8.toNat_ofNat', natAt]
      omega
    have hhigh : natAt data offset (width + 1) / 256 = natAt data offset width := by
      have hlt := (byteAt data (offset + width)).toNat_lt
      rw [natAt]
      omega
    rw [natBytes, hlow, hhigh]
    exact (ih (by omega)).append (by rwa [size_natBytes])

theorem word16Bytes_word16At (h : offset + 2 ≤ data.size) :
    HoldsAt data offset (word16Bytes (word16At data offset)) := by
  rw [word16Bytes, word16At, UInt16.toNat_ofNat_of_lt' (natAt_lt data offset 2)]
  exact natBytes_natAt h

theorem word32Bytes_word32At (h : offset + 4 ≤ data.size) :
    HoldsAt data offset (word32Bytes (word32At data offset)) := by
  rw [word32Bytes, word32At, UInt32.toNat_ofNat_of_lt' (natAt_lt data offset 4)]
  exact natBytes_natAt h

end HoldsAt

namespace IndexFile

variable {file : IndexFile} {offset : Nat}

theorem range_eq_ok_iff {length : Nat} {bytes : ByteArray} :
    file.range offset length = .ok bytes ↔
      bytes.size = length ∧ HoldsAt file.data offset bytes := by
  constructor
  · intro h
    unfold range at h
    split at h
    · rename_i hfits
      obtain rfl := Except.ok.inj h
      refine ⟨?_, .of_extract hfits⟩
      rw [ByteArray.size_extract]
      omega
    · cases h
  · rintro ⟨hsize, h⟩
    exact h.range_eq hsize

theorem size_of_range {length : Nat} {bytes : ByteArray}
    (h : file.range offset length = .ok bytes) : bytes.size = length :=
  (range_eq_ok_iff.1 h).1

theorem word16_eq_ok_iff {word : UInt16} :
    file.word16 offset = .ok word ↔ HoldsAt file.data offset (word16Bytes word) := by
  refine ⟨?_, HoldsAt.word16_eq⟩
  intro h
  obtain ⟨bytes, hrange, hword⟩ := except_bind_eq_ok_iff.1 h
  obtain ⟨hsize, hholds⟩ := range_eq_ok_iff.1 hrange
  obtain rfl := Except.ok.inj hword
  have hown : HoldsAt bytes 0 (word16Bytes (word16At bytes 0)) :=
    HoldsAt.word16Bytes_word16At hsize.ge
  rwa [hown.eq_of_size (by rw [size_word16Bytes, hsize])]

theorem word32_eq_ok_iff {word : UInt32} :
    file.word32 offset = .ok word ↔ HoldsAt file.data offset (word32Bytes word) := by
  refine ⟨?_, HoldsAt.word32_eq⟩
  intro h
  obtain ⟨bytes, hrange, hword⟩ := except_bind_eq_ok_iff.1 h
  obtain ⟨hsize, hholds⟩ := range_eq_ok_iff.1 hrange
  obtain rfl := Except.ok.inj hword
  have hown : HoldsAt bytes 0 (word32Bytes (word32At bytes 0)) :=
    HoldsAt.word32Bytes_word32At hsize.ge
  rwa [hown.eq_of_size (by rw [size_word32Bytes, hsize])]

theorem requireIdentifier_eq_ok_iff {identifier : String} :
    file.requireIdentifier identifier = .ok () ↔ HoldsAt file.data 0 identifier.toUTF8 := by
  refine ⟨?_, HoldsAt.requireIdentifier_eq⟩
  intro h
  obtain ⟨bytes, hrange, hsame⟩ := except_bind_eq_ok_iff.1 h
  have hholds := (range_eq_ok_iff.1 hrange).2
  split at hsame
  · rename_i hdata
    rwa [ByteArray.ext hdata] at hholds
  · cases hsame

theorem table?_eq_none_iff :
    file.table? offset = .ok none ↔ HoldsAt file.data offset (word32Bytes 0) := by
  refine ⟨?_, HoldsAt.table?_eq_none⟩
  intro h
  obtain ⟨sector, hword, h⟩ := except_bind_eq_ok_iff.1 h
  dsimp only at h
  split at h
  · rename_i hzero
    obtain rfl : sector = 0 := UInt32.toNat_inj.1 hzero
    exact word32_eq_ok_iff.1 hword
  · split at h <;> cases h

theorem table?_eq_some_iff {base : Nat} :
    file.table? offset = .ok (some base) ↔ ∃ sector : UInt32, sector ≠ 0 ∧
      HoldsAt file.data offset (word32Bytes sector) ∧ base = sectorOffset sector.toNat ∧
      base < file.data.size := by
  constructor
  · intro h
    obtain ⟨sector, hword, h⟩ := except_bind_eq_ok_iff.1 h
    dsimp only at h
    split at h
    · cases h
    · rename_i hnonzero
      split at h
      · rename_i hinside
        obtain rfl := Option.some.inj (Except.ok.inj h)
        refine ⟨sector, ?_, word32_eq_ok_iff.1 hword, rfl, hinside⟩
        rintro rfl
        exact hnonzero rfl
      · cases h
  · rintro ⟨sector, hnonzero, hword, rfl, hinside⟩
    have hpos : 0 < sector.toNat := Nat.pos_of_ne_zero fun hzero =>
      hnonzero (UInt32.toNat_inj.1 hzero)
    refine HoldsAt.table?_eq_some ?_ hpos sector.toNat_lt hinside
    rwa [UInt32.ofNat_toNat]

theorem lt_size_of_table? {base : Nat} (h : file.table? offset = .ok (some base)) :
    base < file.data.size := by
  obtain ⟨-, -, -, -, hinside⟩ := table?_eq_some_iff.1 h
  exact hinside

theorem table?_of_pointer {sector : UInt32} {base? : Option Nat} (hne : sector ≠ 0)
    (hpointer : HoldsAt file.data offset (word32Bytes sector))
    (h : file.table? offset = .ok base?) : base? = some (sectorOffset sector.toNat) := by
  cases base? with
  | none =>
    have hzero := (table?_eq_none_iff.1 h).word32At_eq
    rw [hpointer.word32At_eq] at hzero
    exact absurd hzero hne
  | some base =>
    obtain ⟨other, -, hother, rfl, -⟩ := table?_eq_some_iff.1 h
    rw [← hpointer.word32At_eq, hother.word32At_eq]

end IndexFile

namespace TitleSet

/-- The chapters of a title set's file; without a chapter table there are none. -/
def partTable (file : IndexFile) : Except Error (List (List PartOfTitle)) := do
  match ← file.table? partTablePointer with
  | some base => decodeParts file base
  | none => return []

/-- The program chains of a title set's file, where it has a table of them. -/
def chainTable (file : IndexFile) : Except Error (Option (Array ProgramChain)) := do
  match ← file.table? chainTablePointer with
  | some base => return some (← decodeChains file base)
  | none => return none

/-- A title set is read table by table. -/
theorem decode_eq (data : ByteArray) : decode data = do
    let file : IndexFile := ⟨"VTS IFO", data⟩
    file.requireIdentifier identifier
    let parts ← partTable file
    let chains ← chainTable file
    return ⟨parts, chains⟩ := by
  simp only [decode, partTable, chainTable, bind, Except.bind, pure, Except.pure, Functor.map,
    Except.map]
  cases IndexFile.requireIdentifier ⟨"VTS IFO", data⟩ identifier with
  | error e => rfl
  | ok u =>
    rcases IndexFile.table? ⟨"VTS IFO", data⟩ partTablePointer with e | base? | base
    · rfl
    · rcases IndexFile.table? ⟨"VTS IFO", data⟩ chainTablePointer with e | base? | base
      · rfl
      · rfl
      · cases hchains : decodeChains ⟨"VTS IFO", data⟩ base <;> simp only [hchains]
    · cases hparts : decodeParts ⟨"VTS IFO", data⟩ base with
      | error e => simp only [hparts]
      | ok parts =>
        simp only [hparts]
        rcases IndexFile.table? ⟨"VTS IFO", data⟩ chainTablePointer with e | base? | base
        · rfl
        · rfl
        · cases hchains : decodeChains ⟨"VTS IFO", data⟩ base <;> simp only [hchains]

theorem decode_of_tables {data : ByteArray} {parts : List (List PartOfTitle)}
    {chains : Option (Array ProgramChain)} (hidentifier : HoldsAt data 0 identifier.toUTF8)
    (hparts : partTable ⟨"VTS IFO", data⟩ = .ok parts)
    (hchains : chainTable ⟨"VTS IFO", data⟩ = .ok chains) :
    decode data = .ok { parts, chains } := by
  have hrequired : IndexFile.requireIdentifier ⟨"VTS IFO", data⟩ identifier = .ok () :=
    hidentifier.requireIdentifier_eq
  rw [decode_eq]
  simp only [hrequired, ok_bind, hparts, hchains]
  rfl

theorem partTable_of_decode {data : ByteArray} {set : TitleSet} (h : decode data = .ok set) :
    partTable ⟨"VTS IFO", data⟩ = .ok set.parts := by
  rw [decode_eq] at h
  obtain ⟨-, -, h⟩ := except_bind_eq_ok_iff.1 h
  obtain ⟨parts, hparts, h⟩ := except_bind_eq_ok_iff.1 h
  obtain ⟨chains, -, h⟩ := except_bind_eq_ok_iff.1 h
  obtain rfl := Except.ok.inj h
  exact hparts

end TitleSet

end OpticalDisc
