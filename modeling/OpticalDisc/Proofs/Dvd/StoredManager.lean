import OpticalDisc.Proofs.Dvd.SteadyReaders
import OpticalDisc.Proofs.Dvd.TitleSetEncoding

/-!
# Video managers in their files

A file stores a video manager when the manager's bytes stand in it: the identifier, the number of
title sets, a pointer to a table inside the file, and in the table the number of titles and an entry
for each. Reading a file gives the manager that it stores, and a file that stores none is refused.
What stands between these bytes, and behind them, does not matter.
-/

namespace OpticalDisc

namespace TitleRecord

/-- The fields of an entry, in the order in which they are stored. -/
def encode (title : TitleRecord) : ByteArray :=
  joinBytes [byteBytes title.playbackType, byteBytes title.angleCount, word16Bytes title.partCount,
    word16Bytes title.parentalMask, byteBytes title.titleSet, byteBytes title.titleInSet,
    word32Bytes title.startSector]

theorem size_encode (title : TitleRecord) : title.encode.size = encodedSize := by
  simp [encode, encodedSize]

theorem ofBytes_encode (title : TitleRecord) : ofBytes title.encode = title := by
  have h := HoldsAt.refl title.encode
  have hplayback : HoldsAt title.encode 0 _ := h.part 0 rfl
  have hangles : HoldsAt title.encode 1 _ := (h.part 1 rfl).at_eq (by simp)
  have hparts : HoldsAt title.encode 2 _ := (h.part 2 rfl).at_eq (by simp)
  have hmask : HoldsAt title.encode 4 _ := (h.part 3 rfl).at_eq (by simp)
  have hset : HoldsAt title.encode 6 _ := (h.part 4 rfl).at_eq (by simp)
  have hnumber : HoldsAt title.encode 7 _ := (h.part 5 rfl).at_eq (by simp)
  have hstart : HoldsAt title.encode 8 _ := (h.part 6 rfl).at_eq (by simp)
  rw [ofBytes, hplayback.byteAt_eq_byte, hangles.byteAt_eq_byte, hparts.word16At_eq,
    hmask.word16At_eq, hset.byteAt_eq_byte, hnumber.byteAt_eq_byte, hstart.word32At_eq]

theorem encode_ofBytes {bytes : ByteArray} (h : bytes.size = encodedSize) :
    (ofBytes bytes).encode = bytes := by
  have hsize : bytes.size = 12 := h
  refine HoldsAt.eq_of_size ?_ ((size_encode _).trans h.symm)
  simp only [encode, ofBytes, joinBytes_cons, joinBytes_nil, ByteArray.append_empty]
  refine (HoldsAt.byteBytes_byteAt (by omega)).append ?_
  refine HoldsAt.append ((HoldsAt.byteBytes_byteAt (by omega)).at_eq (by simp)) ?_
  refine HoldsAt.append ((HoldsAt.word16Bytes_word16At (by omega)).at_eq (by simp)) ?_
  refine HoldsAt.append ((HoldsAt.word16Bytes_word16At (by omega)).at_eq (by simp)) ?_
  refine HoldsAt.append ((HoldsAt.byteBytes_byteAt (by omega)).at_eq (by simp)) ?_
  refine HoldsAt.append ((HoldsAt.byteBytes_byteAt (by omega)).at_eq (by simp)) ?_
  exact (HoldsAt.word32Bytes_word32At (by omega)).at_eq (by simp)

end TitleRecord

namespace VideoManager

/-- A title table stands at `base`: the number of its entries, and the entries behind its header. A
table without entries may end before its header does. -/
structure TitlesAt (data : ByteArray) (base : Nat) (titles : List TitleRecord) : Prop where
  length_lt : titles.length < UInt16.size
  count : HoldsAt data base (word16Bytes (.ofNat titles.length))
  entry {i : Nat} {title : TitleRecord} : titles[i]? = some title →
    HoldsAt data (base + tableHeaderSize + i * TitleRecord.encodedSize) title.encode

/-- The file with these contents stores the manager. -/
structure StoredIn (manager : VideoManager) (data : ByteArray) : Prop where
  identifier : HoldsAt data 0 identifier.toUTF8
  titleSetCount : HoldsAt data titleSetCountOffset (word16Bytes manager.titleSetCount)
  table : ∃ sector : UInt32, sector ≠ 0 ∧ HoldsAt data titleTablePointer (word32Bytes sector) ∧
    sectorOffset sector.toNat < data.size ∧ TitlesAt data (sectorOffset sector.toNat) manager.titles

variable {file : IndexFile} {base : Nat} {data : ByteArray} {manager : VideoManager}

theorem readTitle_eq_ok_iff {offset : Nat} {title : TitleRecord} :
    (do return TitleRecord.ofBytes (← file.range offset TitleRecord.encodedSize) :
        Except Error TitleRecord) = .ok title ↔ HoldsAt file.data offset title.encode := by
  rw [except_bind_eq_ok_iff]
  constructor
  · rintro ⟨bytes, hrange, htitle⟩
    obtain ⟨hsize, hholds⟩ := IndexFile.range_eq_ok_iff.1 hrange
    obtain rfl := Except.ok.inj htitle
    rwa [TitleRecord.encode_ofBytes hsize]
  · intro h
    exact ⟨_, h.range_eq title.size_encode, congrArg _ title.ofBytes_encode⟩

theorem decodeTitles_eq_ok_iff {titles : List TitleRecord} :
    decodeTitles file base = .ok titles ↔ TitlesAt file.data base titles := by
  simp only [decodeTitles, except_bind_eq_ok_iff (x := file.word16 base),
    IndexFile.word16_eq_ok_iff, mapM_range_eq_ok_iff, readTitle_eq_ok_iff]
  constructor
  · rintro ⟨count, hcount, hlength, hentry⟩
    refine ⟨hlength ▸ count.toNat_lt, ?_, fun {i title} => hentry i title⟩
    rwa [hlength, UInt16.ofNat_toNat]
  · intro h
    exact ⟨_, h.count, (UInt16.toNat_ofNat_of_lt' h.length_lt).symm, fun i title => h.entry⟩

/-- A manager is read from the files that store it, and from no others. -/
theorem decode_eq_ok_iff : decode data = .ok manager ↔ manager.StoredIn data := by
  simp only [decode, except_bind_eq_ok_iff]
  constructor
  · rintro ⟨_, hidentifier, count, hcount, base?, hpointer, h⟩
    cases base? with
    | none => cases h
    | some base =>
      obtain ⟨titles, htitles, h⟩ := except_bind_eq_ok_iff.1 h
      obtain rfl := Except.ok.inj h
      obtain ⟨sector, hnonzero, hsector, rfl, hinside⟩ :=
        IndexFile.table?_eq_some_iff.1 hpointer
      exact
        { identifier := IndexFile.requireIdentifier_eq_ok_iff.1 hidentifier
          titleSetCount := IndexFile.word16_eq_ok_iff.1 hcount
          table := ⟨sector, hnonzero, hsector, hinside, decodeTitles_eq_ok_iff.1 htitles⟩ }
  · intro h
    obtain ⟨sector, hnonzero, hsector, hinside, htitles⟩ := h.table
    refine ⟨(), h.identifier.requireIdentifier_eq, _, h.titleSetCount.word16_eq,
      some (sectorOffset sector.toNat), ?_, ?_⟩
    · exact IndexFile.table?_eq_some_iff.2 ⟨sector, hnonzero, hsector, rfl, hinside⟩
    · exact except_bind_eq_ok_iff.2 ⟨_, decodeTitles_eq_ok_iff.2 htitles, rfl⟩

def encodeTitles (titles : List TitleRecord) : ByteArray :=
  joinBytes [word16Bytes (.ofNat titles.length), zeroBytes 2,
    word32Bytes (.ofNat (tableHeaderSize + titles.length * TitleRecord.encodedSize - 1)),
    joinBytes (titles.map TitleRecord.encode)]

/-- The fields of the first sector, and the title table in the sectors behind it. -/
def encode (manager : VideoManager) : ByteArray :=
  joinBytes [identifier.toUTF8, zeroBytes 50, word16Bytes manager.titleSetCount, zeroBytes 132,
    word32Bytes 1, zeroBytes 1848, TitleSet.inSectors (encodeTitles manager.titles)]

theorem titlesAt_encodeTitles {titles : List TitleRecord} (hcount : titles.length < UInt16.size)
    (h : HoldsAt data base (encodeTitles titles)) : TitlesAt data base titles where
  length_lt := hcount
  count := h.part 0 rfl
  entry {i title} hi := by
    have hentry : (titles.map TitleRecord.encode)[i]? = some title.encode := by
      rw [List.getElem?_map, hi, Option.map_some]
    have hlt := (List.getElem?_eq_some_iff.1 hi).1
    refine ((h.part 3 rfl).part i hentry).at_eq ?_
    rw [← List.map_take, size_joinBytes_map TitleRecord.size_encode, List.length_take,
      Nat.min_eq_left hlt.le]
    simp [tableHeaderSize]

theorem storedIn_encode (hcount : manager.titles.length < UInt16.size) :
    manager.StoredIn manager.encode := by
  have hidentifier : identifier.utf8ByteSize = 12 := by decide
  have h := HoldsAt.refl manager.encode
  have htable : HoldsAt manager.encode (sectorOffset 1)
      (TitleSet.inSectors (encodeTitles manager.titles)) :=
    (h.part 6 rfl).at_eq (by simp [hidentifier, sectorOffset, sectorSize])
  have htitles := titlesAt_encodeTitles hcount htable.left
  have hinside := htitles.count.le_size
  rw [size_word16Bytes] at hinside
  exact
    { identifier := h.left
      titleSetCount := (h.part 2 rfl).at_eq (by simp [hidentifier, titleSetCountOffset])
      table := ⟨1, by decide,
        (h.part 4 rfl).at_eq (by simp [hidentifier, titleTablePointer]),
        Nat.lt_of_lt_of_le (Nat.lt_add_of_pos_right Nat.two_pos) hinside, htitles⟩ }

/-- Reading is the inverse of storing: a file gives a manager exactly when it stores that manager, and
a file that stores none is refused as a corrupt index. Each manager with a 16-bit number of titles
has a file. -/
theorem decode_stored (data : ByteArray) :
    (∀ manager, decode data = .ok manager ↔ manager.StoredIn data) ∧
      ((∃ manager : VideoManager, manager.StoredIn data) ∨
        ∃ text, decode data = .error (.corruptIndex text)) ∧
      ∀ manager : VideoManager, manager.titles.length < UInt16.size →
        manager.StoredIn manager.encode ∧ decode manager.encode = .ok manager := by
  refine ⟨fun manager => decode_eq_ok_iff, ?_, ?_⟩
  · rcases steady_decode.ok_or_corrupt ⟨"", data⟩ with ⟨manager, hdecode⟩ | hcorrupt
    · exact .inl ⟨manager, decode_eq_ok_iff.1 hdecode⟩
    · exact .inr hcorrupt
  · intro manager hcount
    have hstored := storedIn_encode hcount
    exact ⟨hstored, decode_eq_ok_iff.2 hstored⟩

end VideoManager

end OpticalDisc
