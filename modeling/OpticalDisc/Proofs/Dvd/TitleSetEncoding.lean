import OpticalDisc.Proofs.Dvd.IndexTables

/-!
# Laying out a title set's file

A file is laid out from the inside: chapters and cells, program chains, the two tables with an
entry for the offset of each title and each chain, and the sectors of the file with the places of
the tables. Reading the file gives back the title set.
-/

namespace OpticalDisc

/-- Entries of one size are read back from their bytes one after the other. -/
theorem map_ofBytes_joinBytes {α : Type} {encode : α → ByteArray} {ofBytes : ByteArray → Nat → α}
    {size : Nat} (hsize : ∀ a, (encode a).size = size) (hencode : ∀ a, ofBytes (encode a) 0 = a)
    (hextract : ∀ {bytes : ByteArray} {pos : Nat}, pos + size ≤ bytes.size →
      ofBytes (bytes.extract pos (pos + size)) 0 = ofBytes bytes pos) (list : List α) :
    (List.range list.length).map (fun i => ofBytes (joinBytes (list.map encode)) (i * size)) =
      list := by
  apply List.ext_getElem
  · simp
  · intro i hi hi'
    have hpart : (list.map encode)[i]? = some (encode list[i]) := by
      rw [List.getElem?_map, List.getElem?_eq_getElem hi', Option.map_some]
    have hfront : (joinBytes ((list.map encode).take i)).size = i * size := by
      rw [← List.map_take, size_joinBytes_map hsize, List.length_take,
        Nat.min_eq_left (Nat.le_of_lt hi')]
    have hholds := (HoldsAt.refl (joinBytes (list.map encode))).part i hpart
    simp only [hfront, Nat.zero_add] at hholds
    have hle := hholds.le_size
    have heq := hholds.extract_eq
    rw [hsize] at hle heq
    rw [List.getElem_map, List.getElem_range, ← hextract hle, heq, hencode]

namespace PartOfTitle

def encode (part : PartOfTitle) : ByteArray :=
  word16Bytes part.chain ++ word16Bytes part.program

theorem size_encode (part : PartOfTitle) : part.encode.size = encodedSize := by
  simp [encode, encodedSize]

theorem ofBytes_of_holdsAt {data : ByteArray} {pos : Nat} {part : PartOfTitle}
    (h : HoldsAt data pos part.encode) : ofBytes data pos = part := by
  have hprogram := h.right
  rw [size_word16Bytes] at hprogram
  rw [ofBytes, h.left.word16At_eq, hprogram.word16At_eq]

theorem ofBytes_encode (part : PartOfTitle) : ofBytes part.encode 0 = part :=
  ofBytes_of_holdsAt (.refl part.encode)

theorem listOfBytes_encode (list : List PartOfTitle) :
    listOfBytes (joinBytes (list.map encode)) = list := by
  have hlength : (joinBytes (list.map encode)).size / encodedSize = list.length := by
    rw [size_joinBytes_map size_encode, Nat.mul_div_cancel _ (by decide)]
  rw [listOfBytes, hlength]
  exact map_ofBytes_joinBytes size_encode ofBytes_encode ofBytes_extract list

end PartOfTitle

def PlaybackTime.encode (time : PlaybackTime) : ByteArray :=
  ⟨#[time.hour, time.minute, time.second, time.frame]⟩

@[simp] theorem PlaybackTime.size_encode (time : PlaybackTime) : time.encode.size = 4 := rfl

def AngleRole.category : AngleRole → UInt8
  | none => 0x00
  | member => 0x50
  | last => 0xD0

theorem AngleRole.ofModeAndType_category (role : AngleRole) :
    ofModeAndType (role.category.toNat / 64) (role.category.toNat / 16 % 4) = role := by
  cases role <;> rfl

namespace Cell

def encode (cell : Cell) : ByteArray :=
  joinBytes [byteBytes cell.role.category, zeroBytes 3, cell.time.encode,
    word32Bytes cell.firstSector, zeroBytes 8, word32Bytes cell.lastSector]

theorem size_encode (cell : Cell) : cell.encode.size = encodedSize := by
  simp [encode, encodedSize]

theorem ofBytes_encode (cell : Cell) : ofBytes cell.encode 0 = cell := by
  have h := HoldsAt.refl cell.encode
  have hcategory : byteAt cell.encode 0 = _ := (h.part 0 rfl).byteAt_eq_byte
  have htime : HoldsAt cell.encode 4 cell.time.encode := (h.part 2 rfl).at_eq (by simp)
  have hhour : byteAt cell.encode (0 + 4) = cell.time.hour := htime.byteAt_eq (by decide : 0 < 4)
  have hminute : byteAt cell.encode (0 + 5) = cell.time.minute :=
    htime.byteAt_eq (by decide : 1 < 4)
  have hsecond : byteAt cell.encode (0 + 6) = cell.time.second :=
    htime.byteAt_eq (by decide : 2 < 4)
  have hframe : byteAt cell.encode (0 + 7) = cell.time.frame := htime.byteAt_eq (by decide : 3 < 4)
  have hfirst : HoldsAt cell.encode (0 + 8) _ := (h.part 3 rfl).at_eq (by simp)
  have hlast : HoldsAt cell.encode (0 + 20) _ := (h.part 5 rfl).at_eq (by simp)
  simp only [ofBytes, hcategory, AngleRole.ofModeAndType_category, hhour, hminute, hsecond, hframe,
    hfirst.word32At_eq, hlast.word32At_eq]

theorem listOfBytes_encode (list : List Cell) :
    (List.range list.length).map
      (fun i => ofBytes (joinBytes (list.map encode)) (i * encodedSize)) = list :=
  map_ofBytes_joinBytes size_encode ofBytes_encode ofBytes_extract list

end Cell

namespace ProgramChain

def programMapOffset : Nat := 0xEC

/-- The cells of a chain stand behind its program map, from an even offset on. -/
def cellTableOffset (chain : ProgramChain) : Nat :=
  programMapOffset + chain.programMap.length + chain.programMap.length % 2

/-- The fields of a chain at their offsets. What no reader looks at is zero. -/
def encode (chain : ProgramChain) : ByteArray :=
  joinBytes [zeroBytes 2, byteBytes (.ofNat chain.programMap.length),
    byteBytes (.ofNat chain.cells.length), chain.time.encode, zeroBytes 222,
    word16Bytes (.ofNat programMapOffset), word16Bytes (.ofNat chain.cellTableOffset), zeroBytes 2,
    chain.programMap.toByteArray, zeroBytes (chain.programMap.length % 2),
    joinBytes (chain.cells.map Cell.encode)]

theorem size_encode (chain : ProgramChain) :
    chain.encode.size = chain.cellTableOffset + chain.cells.length * Cell.encodedSize := by
  have hcells := size_joinBytes_map Cell.size_encode chain.cells
  simp only [encode, cellTableOffset, programMapOffset, joinBytes_cons, joinBytes_nil,
    ByteArray.size_append, ByteArray.size_empty, size_byteBytes, size_word16Bytes, size_zeroBytes,
    PlaybackTime.size_encode, List.size_toByteArray, hcells]
  omega

/-- The counts of programs and of cells are bytes. -/
structure Encodable (chain : ProgramChain) : Prop where
  programs : chain.programMap.length < UInt8.size
  cells : chain.cells.length < UInt8.size

variable {file : IndexFile} {base : Nat} {chain : ProgramChain}

theorem decodeTime_encode {time : PlaybackTime} (h : HoldsAt file.data base time.encode) :
    decodeTime file base = .ok time := by
  rw [decodeTime, h.range_eq time.size_encode]
  rfl

theorem decodeProgramMap_of_holdsAt {map : List UInt8}
    (hpointer : HoldsAt file.data (base + programMapPointer) (word16Bytes (.ofNat programMapOffset)))
    (hmap : HoldsAt file.data (base + programMapOffset) map.toByteArray) :
    decodeProgramMap file base map.length = .ok map := by
  unfold decodeProgramMap
  split
  · rename_i hnone
    rw [List.length_eq_zero_iff.1 hnone]
    rfl
  · have hoffset : (UInt16.ofNat programMapOffset).toNat = programMapOffset := by decide
    rw [hpointer.word16_eq]
    simp only [bind, Except.bind, hoffset]
    rw [if_neg (by decide), hmap.range_eq List.size_toByteArray]
    simp [pure, Except.pure]

theorem decodeCells_of_holdsAt {cells : List Cell} {offset : Nat}
    (hpos : 0 < offset) (hword : offset < UInt16.size)
    (hpointer : HoldsAt file.data (base + cellTablePointer) (word16Bytes (.ofNat offset)))
    (hcells : HoldsAt file.data (base + offset) (joinBytes (cells.map Cell.encode))) :
    decodeCells file base cells.length = .ok cells := by
  unfold decodeCells
  split
  · rename_i hnone
    rw [List.length_eq_zero_iff.1 hnone]
    rfl
  · have hoffset : (UInt16.ofNat offset).toNat = offset := UInt16.toNat_ofNat_of_lt' hword
    rw [hpointer.word16_eq]
    simp only [bind, Except.bind, hoffset]
    rw [if_neg (by omega), hcells.range_eq (size_joinBytes_map Cell.size_encode cells)]
    simp only [pure, Except.pure, Cell.listOfBytes_encode]

theorem decode_of_holdsAt (h : HoldsAt file.data base chain.encode) (hchain : chain.Encodable) :
    decode file base = .ok chain := by
  have hlength := hchain.programs
  simp only [UInt8.size] at hlength
  have hprograms : HoldsAt file.data (base + programCountOffset) _ := h.part 1 rfl
  have hcount : HoldsAt file.data (base + cellCountOffset) _ := h.part 2 rfl
  have htime : HoldsAt file.data (base + timeOffset) _ := h.part 3 rfl
  have hmapPointer : HoldsAt file.data (base + programMapPointer) _ :=
    (h.part 5 rfl).at_eq (by simp [programMapPointer])
  have hcellPointer : HoldsAt file.data (base + cellTablePointer) _ :=
    (h.part 6 rfl).at_eq (by simp [cellTablePointer])
  have hmap : HoldsAt file.data (base + programMapOffset) _ :=
    (h.part 8 rfl).at_eq (by simp [programMapOffset])
  have hcells : HoldsAt file.data (base + chain.cellTableOffset)
      (joinBytes (chain.cells.map Cell.encode)) := by
    refine (h.part 10 rfl).at_eq ?_
    simp only [cellTableOffset, programMapOffset, List.take_succ_cons, List.take_zero,
      joinBytes_cons, joinBytes_nil, ByteArray.append_empty, ByteArray.size_append, size_zeroBytes,
      size_byteBytes, PlaybackTime.size_encode, size_word16Bytes, List.size_toByteArray]
    omega
  have hprogramCount : (UInt8.ofNat chain.programMap.length).toNat = chain.programMap.length :=
    UInt8.toNat_ofNat_of_lt' hchain.programs
  have hcellCount : (UInt8.ofNat chain.cells.length).toNat = chain.cells.length :=
    UInt8.toNat_ofNat_of_lt' hchain.cells
  have hcellsRead : decodeCells file base chain.cells.length = .ok chain.cells := by
    refine decodeCells_of_holdsAt ?_ ?_ hcellPointer hcells
    all_goals
      simp only [cellTableOffset, programMapOffset, UInt16.size]
      omega
  simp only [decode, hprograms.byte_eq, hcount.byte_eq, decodeTime_encode htime, bind, Except.bind,
    hprogramCount, hcellCount, decodeProgramMap_of_holdsAt hmapPointer hmap, hcellsRead]
  rfl

end ProgramChain

namespace OffsetTable

/-- Where a body starts, from the start of its table on. The number of bodies gives the end. -/
def bodyOffset (headSize : Nat) (bodies : List ByteArray) (index : Nat) : Nat :=
  tableHeaderSize + bodies.length * (headSize + 4) + (joinBytes (bodies.take index)).size

variable {headSize : Nat} (head : Nat → Vector UInt8 headSize) (bodies : List ByteArray)

def entry (index : Nat) : ByteArray :=
  (head index).toList.toByteArray ++ word32Bytes (.ofNat (bodyOffset headSize bodies index))

/-- The number of the bodies and the last byte of the table, an entry for each body, and the bodies
one after the other. -/
def encode : ByteArray :=
  joinBytes [word16Bytes (.ofNat bodies.length), zeroBytes 2,
    word32Bytes (.ofNat (bodyOffset headSize bodies bodies.length - 1)),
    joinBytes ((List.range bodies.length).map (entry head bodies)), joinBytes bodies]

variable {head bodies}

theorem size_entry (index : Nat) : (entry head bodies index).size = headSize + 4 := by
  simp [entry]

theorem bodyOffset_pos (index : Nat) : 0 < bodyOffset headSize bodies index := by
  simp only [bodyOffset, tableHeaderSize]
  omega

theorem size_encode : (encode head bodies).size = bodyOffset headSize bodies bodies.length := by
  have hentries := size_joinBytes_map (@size_entry headSize head bodies) (List.range bodies.length)
  simp only [encode, bodyOffset, tableHeaderSize, joinBytes_cons, joinBytes_nil,
    ByteArray.size_append, ByteArray.size_empty, size_word16Bytes, size_zeroBytes, size_word32Bytes,
    hentries, List.length_range, List.take_length]
  omega

theorem bodyOffset_succ {index : Nat} (h : index < bodies.length) :
    bodyOffset headSize bodies (index + 1) =
      bodyOffset headSize bodies index + bodies[index].size := by
  rw [bodyOffset, bodyOffset, ← List.take_concat_get' _ _ h, joinBytes_append,
    ByteArray.size_append, joinBytes_cons, joinBytes_nil, ByteArray.append_empty, ← Nat.add_assoc]

theorem bodyOffset_le (index : Nat) :
    bodyOffset headSize bodies index ≤ bodyOffset headSize bodies bodies.length := by
  have hsize : (joinBytes bodies).size =
      (joinBytes (bodies.take index)).size + (joinBytes (bodies.drop index)).size := by
    rw [← ByteArray.size_append, ← joinBytes_append, List.take_append_drop]
  simp only [bodyOffset, List.take_length]
  omega

section Reading

variable {file : IndexFile} {base : Nat} (h : HoldsAt file.data base (encode head bodies))

include h

theorem exists_count (hcount : bodies.length < UInt16.size) :
    ∃ count, file.word16 base = .ok count ∧ count.toNat = bodies.length :=
  ⟨_, (h.part 0 rfl).word16_eq, UInt16.toNat_ofNat_of_lt' hcount⟩

theorem exists_lastByte (hsize : (encode head bodies).size < UInt32.size) :
    ∃ lastByte, file.word32 (base + 4) = .ok lastByte ∧
      lastByte.toNat + 1 = bodyOffset headSize bodies bodies.length := by
  refine ⟨_, ((h.part 2 rfl).at_eq (by simp)).word32_eq, ?_⟩
  rw [size_encode] at hsize
  have hheader := @bodyOffset_pos headSize bodies bodies.length
  rw [UInt32.toNat_ofNat_of_lt' (Nat.lt_of_le_of_lt (Nat.sub_le ..) hsize)]
  omega

variable {index : Nat} (hindex : index < bodies.length)

include hindex

theorem exists_offset (hsize : (encode head bodies).size < UInt32.size) :
    ∃ offset,
      file.word32 (base + tableHeaderSize + index * (headSize + 4) + headSize) = .ok offset ∧
        offset.toNat = bodyOffset headSize bodies index := by
  have hentry : ((List.range bodies.length).map (entry head bodies))[index]? =
      some (entry head bodies index) := by
    simp [hindex]
  refine ⟨_, ((((h.part 3 rfl).part index hentry).right).at_eq ?_).word32_eq, ?_⟩
  · rw [← List.map_take, size_joinBytes_map size_entry, List.length_take, List.length_range,
      Nat.min_eq_left (Nat.le_of_lt hindex)]
    simp [tableHeaderSize]
  · rw [size_encode] at hsize
    exact UInt32.toNat_ofNat_of_lt' (Nat.lt_of_le_of_lt (bodyOffset_le index) hsize)

theorem holdsAt_body :
    HoldsAt file.data (base + bodyOffset headSize bodies index) bodies[index] := by
  refine ((h.part 4 rfl).part index (List.getElem?_eq_getElem hindex)).at_eq ?_
  have hentries := size_joinBytes_map (@size_entry headSize head bodies) (List.range bodies.length)
  simp only [bodyOffset, tableHeaderSize, List.take_succ_cons, List.take_zero, joinBytes_cons,
    joinBytes_nil, ByteArray.append_empty, ByteArray.size_append, size_word16Bytes, size_zeroBytes,
    size_word32Bytes, hentries, List.length_range]
  omega

end Reading

end OffsetTable

namespace TitleSet

def partBodies (parts : List (List PartOfTitle)) : List ByteArray :=
  parts.map fun list => joinBytes (list.map PartOfTitle.encode)

def encodeParts (parts : List (List PartOfTitle)) : ByteArray :=
  OffsetTable.encode (fun _ => #v[]) (partBodies parts)

/-- A search pointer starts with the number of its chain, marked as an entry of the disc. -/
def chainHead (index : Nat) : Vector UInt8 4 :=
  #v[0x80 ||| .ofNat (index + 1), 0, 0, 0]

def encodeChains (chains : List ProgramChain) : ByteArray :=
  OffsetTable.encode chainHead (chains.map ProgramChain.encode)

theorem size_encodeParts (parts : List (List PartOfTitle)) :
    (encodeParts parts).size = tableHeaderSize + parts.length * 4 +
      (parts.map fun list => list.length * PartOfTitle.encodedSize).sum := by
  have hbodies : (joinBytes (partBodies parts)).size =
      (parts.map fun list => list.length * PartOfTitle.encodedSize).sum := by
    rw [size_joinBytes, partBodies, List.map_map]
    refine congrArg List.sum (List.map_congr_left fun list _ => ?_)
    exact size_joinBytes_map PartOfTitle.size_encode list
  rw [encodeParts, OffsetTable.size_encode, OffsetTable.bodyOffset, List.take_length, hbodies,
    partBodies, List.length_map]

theorem size_encodeChains (chains : List ProgramChain) :
    (encodeChains chains).size = tableHeaderSize + chains.length * chainPointerSize +
      (chains.map fun chain =>
        chain.cellTableOffset + chain.cells.length * Cell.encodedSize).sum := by
  have hbodies : (joinBytes (chains.map ProgramChain.encode)).size = (chains.map fun chain =>
      chain.cellTableOffset + chain.cells.length * Cell.encodedSize).sum := by
    rw [size_joinBytes, List.map_map]
    exact congrArg List.sum (List.map_congr_left fun chain _ => chain.size_encode)
  rw [encodeChains, OffsetTable.size_encode, OffsetTable.bodyOffset, List.take_length, hbodies,
    List.length_map]
  rfl

variable {file : IndexFile} {base : Nat}

theorem decodePartList_of_holdsAt {list : List PartOfTitle} {start stop index : Nat}
    (h : HoldsAt file.data (base + start) (joinBytes (list.map PartOfTitle.encode)))
    (hstop : stop = start + (joinBytes (list.map PartOfTitle.encode)).size) :
    decodePartList file base start stop index = .ok list := by
  subst hstop
  rw [decodePartList, if_neg (by omega), h.range_eq (by omega)]
  exact congrArg _ (PartOfTitle.listOfBytes_encode list)

section Parts

variable {parts : List (List PartOfTitle)} (h : HoldsAt file.data base (encodeParts parts))

include h

theorem readStarts_of_holdsAt (hsize : (encodeParts parts).size < UInt32.size) :
    ((List.range parts.length).mapM fun i => do
      return (← file.word32 (base + tableHeaderSize + i * 4)).toNat) =
        .ok ((List.range parts.length).map (OffsetTable.bodyOffset 0 (partBodies parts))) := by
  refine mapM_eq_ok_iff.2 (List.forall₂_map_right_iff.2 (List.forall₂_same.2 fun i hi => ?_))
  have hi : i < (partBodies parts).length := by simpa [partBodies] using hi
  obtain ⟨offset, hread, hoffset⟩ := OffsetTable.exists_offset h hi hsize
  rw [Nat.zero_add, Nat.add_zero] at hread
  rw [hread, ok_bind, hoffset]
  rfl

theorem decodePartLists_of_holdsAt :
    ((List.range parts.length).mapM fun i =>
      decodePartList file base (OffsetTable.bodyOffset 0 (partBodies parts) i)
        (OffsetTable.bodyOffset 0 (partBodies parts) (i + 1)) i) = .ok parts := by
  refine mapM_range_eq_ok fun i hi => ?_
  have hi' : i < (partBodies parts).length := by simpa [partBodies] using hi
  have hbody := OffsetTable.holdsAt_body h hi'
  have hstop := @OffsetTable.bodyOffset_succ 0 _ _ hi'
  simp only [partBodies, List.getElem_map] at hbody hstop
  exact decodePartList_of_holdsAt hbody hstop

theorem decodeParts_of_holdsAt (hcount : parts.length < UInt16.size)
    (hsize : (encodeParts parts).size < UInt32.size) : decodeParts file base = .ok parts := by
  have hlength : (partBodies parts).length = parts.length := List.length_map ..
  obtain ⟨count, hcountRead, hcountEq⟩ := OffsetTable.exists_count h (hlength ▸ hcount)
  obtain ⟨lastByte, hlastRead, hlastEq⟩ := OffsetTable.exists_lastByte h hsize
  rw [hlength] at hcountEq hlastEq
  rw [decodeParts, hcountRead, ok_bind, hlastRead, ok_bind, hcountEq, hlastEq,
    readStarts_of_holdsAt h hsize, ok_bind]
  dsimp only
  rw [zipIdx_zip_stops_range, List.mapM_map]
  exact decodePartLists_of_holdsAt h

end Parts

theorem decodeChains_of_holdsAt {chains : List ProgramChain}
    (h : HoldsAt file.data base (encodeChains chains)) (hcount : chains.length < UInt16.size)
    (hsize : (encodeChains chains).size < UInt32.size)
    (hchains : ∀ chain ∈ chains, chain.Encodable) :
    decodeChains file base = .ok chains.toArray := by
  have hlength : (chains.map ProgramChain.encode).length = chains.length := List.length_map ..
  have hlist : ((List.range chains.length).mapM fun i => do
      let offset ← file.word32 (base + tableHeaderSize + i * chainPointerSize + 4)
      ProgramChain.decode file (base + offset.toNat)) = .ok chains := by
    refine mapM_range_eq_ok fun i hi => ?_
    have hi' : i < (chains.map ProgramChain.encode).length := hlength ▸ hi
    obtain ⟨offset, hread, hoffset⟩ := OffsetTable.exists_offset h hi' hsize
    have hbody := OffsetTable.holdsAt_body h hi'
    rw [List.getElem_map, ← hoffset] at hbody
    exact (congrArg (· >>= _) hread).trans
      (ProgramChain.decode_of_holdsAt hbody (hchains _ (List.getElem_mem hi)))
  obtain ⟨count, hcountRead, hcountEq⟩ := OffsetTable.exists_count h (hlength ▸ hcount)
  rw [hlength] at hcountEq
  rw [decodeChains, hcountRead, ok_bind, hcountEq, hlist]
  rfl

/-- The sectors that a table takes: it is filled up to whole ones, and takes at least one. -/
def sectorsFor (size : Nat) : Nat :=
  max 1 ((size + sectorSize - 1) / sectorSize)

def inSectors (table : ByteArray) : ByteArray :=
  table ++ zeroBytes (sectorOffset (sectorsFor table.size) - table.size)

theorem size_inSectors (table : ByteArray) :
    (inSectors table).size = sectorOffset (sectorsFor table.size) := by
  simp only [inSectors, ByteArray.size_append, size_zeroBytes, sectorsFor, sectorOffset, sectorSize]
  omega

theorem sectorsFor_lt {size : Nat} (h : size < UInt32.size) : 1 + sectorsFor size < UInt32.size := by
  simp only [sectorsFor, sectorSize, UInt32.size] at h ⊢
  omega

variable (set : TitleSet)

def chainList : List ProgramChain :=
  (set.chains.getD #[]).toList

/-- The table of program chains stands behind the chapter table. Zero is no place: there are no program
chains. -/
def chainTableSector : Nat :=
  if set.chains.isSome then 1 + sectorsFor (encodeParts set.parts).size else 0

/-- The identifier and the sectors of the two tables in the first sector, and the tables behind it. A
title set without program chains has an empty table that nothing points to. -/
def encode : ByteArray :=
  joinBytes [identifier.toUTF8, zeroBytes 188, word32Bytes (.ofNat 1),
    word32Bytes (.ofNat set.chainTableSector), zeroBytes 1840, inSectors (encodeParts set.parts),
    inSectors (encodeChains set.chainList)]

/-- All counts and offsets fit into their fields. -/
structure Encodable : Prop where
  titles : set.parts.length < UInt16.size
  partTable : (encodeParts set.parts).size < UInt32.size
  chains : set.chainList.length < UInt16.size
  chainTable : (encodeChains set.chainList).size < UInt32.size
  chain : ∀ chain ∈ set.chainList, chain.Encodable

variable {set}

theorem size_identifier : identifier.utf8ByteSize = 12 := by
  decide

/-- The two tables stand at the start of their sectors. -/
theorem holdsAt_tables :
    HoldsAt set.encode (sectorOffset 1) (inSectors (encodeParts set.parts)) ∧
      HoldsAt set.encode (sectorOffset (1 + sectorsFor (encodeParts set.parts).size))
        (inSectors (encodeChains set.chainList)) := by
  have h := HoldsAt.refl set.encode
  refine ⟨(h.part 5 rfl).at_eq ?_, (h.part 6 rfl).at_eq ?_⟩
  · simp [size_identifier, sectorOffset, sectorSize]
  · simp only [List.take_succ_cons, List.take_zero, joinBytes_cons, joinBytes_nil,
      ByteArray.append_empty, ByteArray.size_append, String.toUTF8_eq_toByteArray,
      String.size_toByteArray, size_identifier, size_zeroBytes, size_word32Bytes, size_inSectors,
      sectorOffset, sectorSize]
    omega

theorem lt_size_encode :
    sectorOffset (1 + sectorsFor (encodeParts set.parts).size) < set.encode.size := by
  have hle := (@holdsAt_tables set).2.le_size
  have hpos : 0 < (inSectors (encodeChains set.chainList)).size := by
    rw [size_inSectors, sectorsFor, sectorOffset, sectorSize]
    omega
  omega

theorem partTable_encode (h : set.Encodable) (name : String) :
    partTable ⟨name, set.encode⟩ = .ok set.parts := by
  have hpointer : HoldsAt set.encode partTablePointer (word32Bytes (.ofNat 1)) := by
    refine ((HoldsAt.refl set.encode).part 2 rfl).at_eq ?_
    simp [size_identifier, partTablePointer]
  have hinside : sectorOffset 1 < set.encode.size :=
    Nat.lt_of_le_of_lt (Nat.mul_le_mul_right _ (Nat.le_add_right ..)) lt_size_encode
  have htable : IndexFile.table? ⟨name, set.encode⟩ partTablePointer = .ok (some (sectorOffset 1)) :=
    hpointer.table?_eq_some Nat.one_pos (by decide) hinside
  rw [partTable, htable, ok_bind]
  exact decodeParts_of_holdsAt holdsAt_tables.1.left h.titles h.partTable

theorem chainTable_encode (h : set.Encodable) (name : String) :
    chainTable ⟨name, set.encode⟩ = .ok set.chains := by
  have hpointer : HoldsAt set.encode chainTablePointer
      (word32Bytes (.ofNat set.chainTableSector)) := by
    refine ((HoldsAt.refl set.encode).part 3 rfl).at_eq ?_
    simp [size_identifier, chainTablePointer]
  cases hchains : set.chains with
  | none =>
    have hsector : set.chainTableSector = 0 := by rw [chainTableSector, hchains]; rfl
    rw [hsector] at hpointer
    have htable : IndexFile.table? ⟨name, set.encode⟩ chainTablePointer = .ok none :=
      hpointer.table?_eq_none
    rw [chainTable, htable]
    rfl
  | some chains =>
    have hsector : set.chainTableSector = 1 + sectorsFor (encodeParts set.parts).size := by
      rw [chainTableSector, hchains]
      rfl
    have hlist : set.chainList = chains.toList := by
      rw [chainList, hchains]
      rfl
    rw [hsector] at hpointer
    have htable : IndexFile.table? ⟨name, set.encode⟩ chainTablePointer = .ok (some _) :=
      hpointer.table?_eq_some (Nat.add_pos_left Nat.one_pos _) (sectorsFor_lt h.partTable)
        lt_size_encode
    have hread : decodeChains ⟨name, set.encode⟩ _ = .ok set.chainList.toArray :=
      decodeChains_of_holdsAt holdsAt_tables.2.left h.chains h.chainTable h.chain
    rw [chainTable, htable, ok_bind]
    dsimp only
    rw [hread, hlist]
    rfl

/-- A title set is read back from the file that it is laid out as. -/
theorem decode_encode (h : set.Encodable) : decode set.encode = .ok set :=
  decode_of_tables (HoldsAt.refl set.encode).left (partTable_encode h _) (chainTable_encode h _)

/-- Two titles, one of them without chapters, and two program chains, one with an angle block and
one without programs and cells. -/
def angleSet : TitleSet where
  parts := [[⟨1, 1⟩, ⟨1, 2⟩, ⟨2, 1⟩], []]
  chains := some #[
    { time := ⟨0x01, 0x30, 0x00, 0x40⟩
      programMap := [1, 2, 4]
      cells := [
        { firstSector := 0, lastSector := 99 },
        { firstSector := 100, lastSector := 149, role := .member },
        { firstSector := 150, lastSector := 0xFFFFFFFF, role := .last, time := ⟨0, 5, 0x12, 0xC3⟩ },
        { firstSector := 200, lastSector := 199 }] },
    { programMap := [], cells := [] }]

theorem encodable_angleSet : angleSet.Encodable where
  titles := by decide
  partTable := by rw [size_encodeParts]; decide
  chains := by decide
  chainTable := by rw [size_encodeChains]; decide
  chain := by
    intro chain hchain
    simp only [chainList, angleSet, Option.getD_some, List.mem_cons, List.not_mem_nil, or_false]
      at hchain
    rcases hchain with rfl | rfl <;> exact ⟨by decide, by decide⟩

theorem decode_encode_angleSet :
    angleSet.Encodable ∧ decode angleSet.encode = .ok angleSet :=
  ⟨encodable_angleSet, decode_encode encodable_angleSet⟩

end TitleSet

end OpticalDisc
