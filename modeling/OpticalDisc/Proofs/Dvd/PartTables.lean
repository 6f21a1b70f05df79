import Mathlib
import OpticalDisc.Proofs.Dvd.SteadyReaders
import OpticalDisc.Proofs.Dvd.TitleSetEncoding

/-!
# Chapter tables in their files

A chapter table gives the offset at which the chapters of each title start; they reach up to the offset
of the next title, and the last ones up to the end that the table declares. A reader checks each offset
against the next one only, and each stretch of bytes against the end of the file. Chained over the whole
table, these checks keep all chapters inside of the table and of the file, and apart from each other.
-/

namespace OpticalDisc

theorem PartOfTitle.ofBytes_eq_iff {bytes : ByteArray} {pos : Nat} {part : PartOfTitle}
    (h : pos + encodedSize ≤ bytes.size) :
    ofBytes bytes pos = part ↔ HoldsAt bytes pos part.encode := by
  have hsize : encodedSize = 4 := rfl
  refine ⟨?_, ofBytes_of_holdsAt⟩
  rintro rfl
  refine (HoldsAt.word16Bytes_word16At (by omega)).append ?_
  rw [size_word16Bytes]
  exact HoldsAt.word16Bytes_word16At (by omega)

/-- The chapters stand in the `length` bytes from `offset` on, as many as fit in whole. -/
structure PartsAt (data : ByteArray) (offset length : Nat) (list : List PartOfTitle) : Prop where
  length_eq : list.length = length / PartOfTitle.encodedSize
  part {i : Nat} {part : PartOfTitle} : list[i]? = some part →
    HoldsAt data (offset + i * PartOfTitle.encodedSize) part.encode

theorem PartsAt.encodedSize_le {data : ByteArray} {offset length : Nat} {list : List PartOfTitle}
    (h : PartsAt data offset length list) : PartOfTitle.encodedSize * list.length ≤ length := by
  rw [h.length_eq]
  exact Nat.mul_div_le ..

theorem PartOfTitle.listOfBytes_eq_iff {data bytes : ByteArray} {offset : Nat}
    {list : List PartOfTitle} (h : HoldsAt data offset bytes) :
    listOfBytes bytes = list ↔ PartsAt data offset bytes.size list := by
  have hfits {i : Nat} (hi : i < bytes.size / encodedSize) :
      i * encodedSize + encodedSize ≤ bytes.size := by
    rw [← Nat.succ_mul]
    exact (Nat.mul_le_mul_right _ hi).trans (Nat.div_mul_le_self ..)
  have hentry {i : Nat} (hi : i < bytes.size / encodedSize) (part : PartOfTitle) :
      ofBytes bytes (i * encodedSize) = part ↔
        HoldsAt data (offset + i * encodedSize) part.encode := by
    rw [ofBytes_eq_iff (hfits hi), h.inside_iff (by rw [size_encode]; exact hfits hi)]
  constructor
  · rintro rfl
    refine ⟨by simp [listOfBytes], fun {i part} hi => ?_⟩
    obtain ⟨hlt, rfl⟩ := List.getElem?_eq_some_iff.1 hi
    rw [listOfBytes, List.length_map, List.length_range] at hlt
    refine (hentry hlt _).1 ?_
    simp [listOfBytes]
  · intro hparts
    apply List.ext_getElem
    · simp [listOfBytes, hparts.length_eq]
    · intro i hi hi'
      rw [listOfBytes, List.length_map, List.length_range] at hi
      have hpart := hparts.part (List.getElem?_eq_getElem hi')
      simp [listOfBytes, (hentry hi _).2 hpart]

/-- The chapters of one title are read when they end behind their start and inside of the file. -/
theorem TitleSet.decodePartList_eq_ok_iff {file : IndexFile} {base start stop index : Nat}
    {list : List PartOfTitle} :
    decodePartList file base start stop index = .ok list ↔ start ≤ stop ∧
      base + stop ≤ file.data.size ∧ PartsAt file.data (base + start) (stop - start) list := by
  unfold decodePartList
  split
  · rename_i hdecrease
    constructor
    · intro h
      cases h
    · rintro ⟨hle, -, -⟩
      omega
  · rename_i hle
    rw [Nat.not_lt] at hle
    rw [except_bind_eq_ok_iff]
    constructor
    · rintro ⟨bytes, hrange, hlist⟩
      obtain ⟨hsize, hholds⟩ := IndexFile.range_eq_ok_iff.1 hrange
      have hinside := hholds.le_size
      refine ⟨hle, by omega, ?_⟩
      rw [← hsize]
      exact (PartOfTitle.listOfBytes_eq_iff hholds).1 (Except.ok.inj hlist)
    · rintro ⟨-, hinside, hparts⟩
      have hholds : HoldsAt file.data (base + start)
          (file.data.extract (base + start) (base + start + (stop - start))) :=
        .of_extract (by omega)
      have hsize : (file.data.extract (base + start) (base + start + (stop - start))).size =
          stop - start := by
        rw [ByteArray.size_extract]
        omega
      refine ⟨_, hholds.range_eq hsize, congrArg _ ?_⟩
      rw [PartOfTitle.listOfBytes_eq_iff hholds, hsize]
      exact hparts

/-- The words of a chapter table, and the sector at which it starts. -/
structure PartTable where
  sector : UInt32
  /-- The last byte of the table, from its start on. -/
  lastByte : UInt32
  /-- Where the chapters of each title start, from the start of the table on. -/
  starts : List UInt32

namespace PartTable

variable (table : PartTable)

def base : Nat := sectorOffset table.sector.toNat

def stop : Nat := table.lastByte.toNat + 1

/-- Where the chapters of a title start, and those of the title before it end. The last ones end with
the table. -/
def offset (title : Nat) : Nat :=
  (table.starts[title]?.map (·.toNat)).getD table.stop

/-- The places of the file that hold the chapters of a title. -/
def extent (title : Nat) : Set Nat :=
  Set.Ico (table.base + table.offset title) (table.base + table.offset (title + 1))

/-- The table of the file with these contents. -/
structure StandsIn (data : ByteArray) : Prop where
  sector_ne : table.sector ≠ 0
  pointer : HoldsAt data TitleSet.partTablePointer (word32Bytes table.sector)
  length_lt : table.starts.length < UInt16.size
  count : HoldsAt data table.base (word16Bytes (.ofNat table.starts.length))
  last : HoldsAt data (table.base + 4) (word32Bytes table.lastByte)
  start {i : Nat} {word : UInt32} : table.starts[i]? = some word →
    HoldsAt data (table.base + tableHeaderSize + i * 4) (word32Bytes word)

/-- What a reader checks: each title against the next one and against the end of the file. -/
structure Checked (data : ByteArray) : Prop where
  le_next {title : Nat} : title < table.starts.length →
    table.offset title ≤ table.offset (title + 1)
  inside {title : Nat} : title < table.starts.length →
    table.base + table.offset (title + 1) ≤ data.size

/-- The chapters of each title are those that stand in its places. -/
structure Lists (data : ByteArray) (parts : List (List PartOfTitle)) : Prop where
  length_eq : parts.length = table.starts.length
  partsAt {title : Nat} {list : List PartOfTitle} : parts[title]? = some list →
    PartsAt data (table.base + table.offset title)
      (table.offset (title + 1) - table.offset title) list

variable {table : PartTable} {data : ByteArray} {parts : List (List PartOfTitle)}

theorem offset_of_getElem? {title : Nat} {word : UInt32} (h : table.starts[title]? = some word) :
    table.offset title = word.toNat := by
  rw [offset, h]
  rfl

theorem offset_of_length_le {title : Nat} (h : table.starts.length ≤ title) :
    table.offset title = table.stop := by
  rw [offset, List.getElem?_eq_none h]
  rfl

/-- Checked against the next one only, the offsets never decrease. -/
theorem Checked.monotone (h : table.Checked data) : Monotone table.offset := by
  refine monotone_nat_of_le_succ fun title => ?_
  rcases Nat.lt_or_ge title table.starts.length with hlt | hge
  · exact h.le_next hlt
  · rw [offset_of_length_le hge, offset_of_length_le (Nat.le_succ_of_le hge)]

theorem Checked.offset_le (h : table.Checked data) (title : Nat) :
    table.offset title ≤ table.stop := by
  rw [← offset_of_length_le (Nat.le_max_right title table.starts.length)]
  exact h.monotone (Nat.le_max_left ..)

theorem Checked.stop_le (h : table.Checked data) (hsome : table.starts ≠ []) :
    table.base + table.stop ≤ data.size := by
  have hpos := List.length_pos_of_ne_nil hsome
  have hlast := h.inside (Nat.sub_lt hpos Nat.one_pos)
  rwa [Nat.sub_add_cancel hpos, offset_of_length_le le_rfl] at hlast

theorem Checked.disjoint (h : table.Checked data) :
    Pairwise (Function.onFun Disjoint table.extent) := by
  have hmonotone : Monotone fun title => table.base + table.offset title :=
    fun _ _ hle => Nat.add_le_add_left (h.monotone hle) _
  exact hmonotone.pairwise_disjoint_on_Ico_succ

theorem Checked.extent_subset (h : table.Checked data) (hsome : table.starts ≠ []) (title : Nat) :
    table.extent title ⊆ Set.Iio data.size := by
  intro place hplace
  have hlt : place < table.base + table.offset (title + 1) := hplace.2
  have hle := h.offset_le (title + 1)
  have hstop := h.stop_le hsome
  exact Set.mem_Iio.2 (by omega)

/-- The chapters of the first titles fill no more than what lies in front of the next one. -/
theorem Checked.size_take_le (h : table.Checked data) (hlists : table.Lists data parts)
    {title : Nat} (hle : title ≤ parts.length) :
    PartOfTitle.encodedSize * ((parts.take title).map List.length).sum ≤ table.offset title := by
  induction title with
  | zero => simp
  | succ title ih =>
    have hparts := (hlists.partsAt (List.getElem?_eq_getElem hle)).encodedSize_le
    have hnext := h.le_next (hlists.length_eq ▸ hle)
    have hbefore := ih (Nat.le_of_succ_le hle)
    rw [List.take_succ_eq_append_getElem hle, List.map_append, List.sum_append, Nat.mul_add,
      List.map_singleton, List.sum_singleton]
    omega

theorem Checked.size_le (h : table.Checked data) (hlists : table.Lists data parts) :
    PartOfTitle.encodedSize * (parts.map List.length).sum ≤ table.stop := by
  have hall := h.size_take_le hlists le_rfl
  rwa [List.take_length, offset_of_length_le hlists.length_eq.ge] at hall

section Reading

variable {file : IndexFile} (h : table.StandsIn file.data)

include h

theorem StandsIn.table?_eq : file.table? TitleSet.partTablePointer = .ok (some table.base) := by
  have hinside := h.count.le_size
  rw [size_word16Bytes] at hinside
  exact IndexFile.table?_eq_some_iff.2 ⟨_, h.sector_ne, h.pointer, rfl, by omega⟩

theorem StandsIn.decodeParts_eq : TitleSet.decodeParts file table.base =
    (List.range table.starts.length).mapM fun i =>
      TitleSet.decodePartList file table.base (table.offset i) (table.offset (i + 1)) i := by
  have hstarts : ((List.range table.starts.length).mapM fun i => do
      return (← file.word32 (table.base + tableHeaderSize + i * 4)).toNat) =
        .ok ((List.range table.starts.length).map table.offset) := by
    refine mapM_eq_ok_iff.2 (List.forall₂_map_right_iff.2 (List.forall₂_same.2 fun i hi => ?_))
    have hword := List.getElem?_eq_getElem (List.mem_range.1 hi)
    rw [(h.start hword).word32_eq, offset_of_getElem? hword]
    rfl
  rw [TitleSet.decodeParts, h.count.word16_eq, ok_bind, h.last.word32_eq, ok_bind,
    UInt16.toNat_ofNat_of_lt' h.length_lt, hstarts, ok_bind]
  have hstop : table.lastByte.toNat + 1 = table.offset table.starts.length :=
    (offset_of_length_le le_rfl).symm
  dsimp only
  rw [hstop, zipIdx_zip_stops_range, List.mapM_map]
  rfl

theorem StandsIn.decodeParts_eq_ok_iff :
    TitleSet.decodeParts file table.base = .ok parts ↔
      table.Checked file.data ∧ table.Lists file.data parts := by
  rw [h.decodeParts_eq, mapM_range_eq_ok_iff]
  constructor
  · rintro ⟨hlength, hread⟩
    have htitle {title : Nat} (hlt : title < table.starts.length) :=
      TitleSet.decodePartList_eq_ok_iff.1
        (hread title _ (List.getElem?_eq_getElem (hlength ▸ hlt)))
    refine ⟨⟨fun hlt => (htitle hlt).1, fun hlt => (htitle hlt).2.1⟩, hlength, ?_⟩
    intro title list hlist
    exact (TitleSet.decodePartList_eq_ok_iff.1 (hread title list hlist)).2.2
  · rintro ⟨hchecked, hlists⟩
    refine ⟨hlists.length_eq, fun title list hlist => ?_⟩
    have hlt : title < table.starts.length :=
      hlists.length_eq ▸ (List.getElem?_eq_some_iff.1 hlist).1
    exact TitleSet.decodePartList_eq_ok_iff.2
      ⟨hchecked.le_next hlt, hchecked.inside hlt, hlists.partsAt hlist⟩

end Reading

/-- Where chapters are read, a whole table stands at the sector that the pointer names. -/
theorem exists_standsIn {file : IndexFile} {sector : UInt32} (hne : sector ≠ 0)
    (hpointer : HoldsAt file.data TitleSet.partTablePointer (word32Bytes sector))
    (hread : TitleSet.decodeParts file (sectorOffset sector.toNat) = .ok parts) :
    ∃ table : PartTable, table.sector = sector ∧ table.StandsIn file.data := by
  obtain ⟨count, hcount, hread⟩ := except_bind_eq_ok_iff.1 hread
  obtain ⟨lastByte, hlast, hread⟩ := except_bind_eq_ok_iff.1 hread
  obtain ⟨starts, hstarts, -⟩ := except_bind_eq_ok_iff.1 hread
  obtain ⟨hlength, hstart⟩ := mapM_range_eq_ok_iff.1 hstarts
  refine ⟨⟨sector, lastByte, starts.map UInt32.ofNat⟩, rfl, hne, hpointer, ?_, ?_,
    IndexFile.word32_eq_ok_iff.1 hlast, ?_⟩
  · rw [List.length_map, hlength]
    exact count.toNat_lt
  · rw [List.length_map, hlength, UInt16.ofNat_toNat]
    exact IndexFile.word16_eq_ok_iff.1 hcount
  · intro i word hword
    rw [List.getElem?_map] at hword
    obtain ⟨start, hi, rfl⟩ := Option.map_eq_some_iff.1 hword
    obtain ⟨word, hread, heq⟩ := except_bind_eq_ok_iff.1 (hstart i start hi)
    obtain rfl := Except.ok.inj heq
    rw [UInt32.ofNat_toNat]
    exact IndexFile.word32_eq_ok_iff.1 hread

theorem StandsIn.of_decode (h : table.StandsIn data) {set : TitleSet}
    (hdecode : TitleSet.decode data = .ok set) :
    table.Checked data ∧ table.Lists data set.parts := by
  let file : IndexFile := ⟨"VTS IFO", data⟩
  have hfile : table.StandsIn file.data := h
  have hparts := TitleSet.partTable_of_decode hdecode
  rw [TitleSet.partTable, hfile.table?_eq, ok_bind] at hparts
  exact hfile.decodeParts_eq_ok_iff.1 hparts

/-- Where a file is accepted and names a place for its chapter table, the table stands there whole.
The chapters of its titles are those in their places; with at least one title, the offsets never
decrease and do not pass the end of the table, the places of two titles are apart and inside of the
file, and all chapters together are no larger than the table or the file. A file that is not accepted
is refused as a corrupt index, and so is one with a table of which an offset decreases or passes the
end of the table, or which ends behind the file. -/
theorem partTable_within (data : ByteArray) :
    (∀ (set : TitleSet) (sector : UInt32), TitleSet.decode data = .ok set → sector ≠ 0 →
      HoldsAt data TitleSet.partTablePointer (word32Bytes sector) →
      ∃ table : PartTable, table.sector = sector ∧ table.StandsIn data ∧
        table.Lists data set.parts ∧
        (table.starts ≠ [] →
          Monotone table.offset ∧ (∀ title, table.offset title ≤ table.stop) ∧
          Pairwise (Function.onFun Disjoint table.extent) ∧
          (∀ title, table.extent title ⊆ Set.Iio data.size) ∧
          PartOfTitle.encodedSize * (set.parts.map List.length).sum ≤ table.stop ∧
          PartOfTitle.encodedSize * (set.parts.map List.length).sum ≤ data.size)) ∧
    ((∃ set, TitleSet.decode data = .ok set) ∨
      ∃ text, TitleSet.decode data = .error (.corruptIndex text)) ∧
    ∀ table : PartTable, table.StandsIn data → table.starts ≠ [] →
      (∃ title, table.offset (title + 1) < table.offset title) ∨
        (∃ title, table.stop < table.offset title) ∨ data.size < table.base + table.stop →
      ∃ text, TitleSet.decode data = .error (.corruptIndex text) := by
  have hread := TitleSet.steady_decode.ok_or_corrupt ⟨"", data⟩
  refine ⟨?_, hread, ?_⟩
  · intro set sector hdecode hne hpointer
    obtain ⟨base?, htable, hread⟩ := except_bind_eq_ok_iff.1 (TitleSet.partTable_of_decode hdecode)
    obtain rfl := IndexFile.table?_of_pointer hne hpointer htable
    obtain ⟨table, hsector, h⟩ := exists_standsIn hne hpointer hread
    obtain ⟨hchecked, hlists⟩ := StandsIn.of_decode h hdecode
    refine ⟨table, hsector, h, hlists, fun hsome => ?_⟩
    have hsize := hchecked.size_le hlists
    have hstop : table.base + table.stop ≤ data.size := hchecked.stop_le hsome
    exact ⟨hchecked.monotone, hchecked.offset_le, hchecked.disjoint,
      hchecked.extent_subset hsome, hsize, by omega⟩
  · intro table h hsome hbroken
    rcases hread with ⟨set, hdecode⟩ | hcorrupt
    · have hchecked := (h.of_decode hdecode).1
      rcases hbroken with ⟨title, hdecrease⟩ | ⟨title, hpast⟩ | hbehind
      · exact absurd (hchecked.monotone (Nat.le_succ title)) (Nat.not_le.2 hdecrease)
      · exact absurd (hchecked.offset_le title) (Nat.not_le.2 hpast)
      · exact absurd (hchecked.stop_le hsome) (Nat.not_le.2 hbehind)
    · exact hcorrupt

/-- A table of two titles, whose last byte is the 27th. -/
def twoTitles (second : UInt32) : PartTable where
  sector := 1
  lastByte := 27
  starts := [16, second]

/-- One chapter is stored from the 16th byte of the table on and two from the 20th on, and the chapters
of the second title are said to start at `second`. There are no program chains. -/
def twoTitlesFile (second : UInt32) : ByteArray :=
  joinBytes [TitleSet.identifier.toUTF8, zeroBytes 188, word32Bytes 1, word32Bytes (.ofNat 0),
    zeroBytes 1840, word16Bytes (.ofNat 2), zeroBytes 2, word32Bytes 27, word32Bytes 16,
    word32Bytes second, PartOfTitle.encode ⟨1, 1⟩, PartOfTitle.encode ⟨1, 2⟩,
    PartOfTitle.encode ⟨2, 1⟩]

theorem size_twoTitlesFile (second : UInt32) : (twoTitlesFile second).size = 2076 := by
  simp [twoTitlesFile, TitleSet.size_identifier, PartOfTitle.size_encode, PartOfTitle.encodedSize]

theorem base_twoTitles (second : UInt32) : (twoTitles second).base = 2048 := by
  simp [twoTitles, base, sectorOffset, sectorSize]

theorem standsIn_twoTitles (second : UInt32) :
    (twoTitles second).StandsIn (twoTitlesFile second) where
  sector_ne := show (1 : UInt32) ≠ 0 by decide
  pointer := ((HoldsAt.refl _).part 2 rfl).at_eq
    (by simp [TitleSet.size_identifier, TitleSet.partTablePointer])
  length_lt := show 2 < UInt16.size by decide
  count := ((HoldsAt.refl _).part 5 rfl).at_eq
    (by simp [TitleSet.size_identifier, base_twoTitles])
  last := ((HoldsAt.refl _).part 7 rfl).at_eq
    (by simp [TitleSet.size_identifier, base_twoTitles])
  start {i word} hword := by
    rw [base_twoTitles]
    rcases i with _ | _ | i
    · obtain rfl := Option.some.inj hword
      exact ((HoldsAt.refl _).part 8 rfl).at_eq (by simp [TitleSet.size_identifier, tableHeaderSize])
    · obtain rfl := Option.some.inj hword
      exact ((HoldsAt.refl _).part 9 rfl).at_eq (by simp [TitleSet.size_identifier, tableHeaderSize])
    · cases hword

theorem offset_twoTitles :
    (twoTitles 20).offset 0 = 16 ∧ (twoTitles 20).offset 1 = 20 ∧ (twoTitles 20).offset 2 = 28 := by
  decide

theorem checked_twoTitles : (twoTitles 20).Checked (twoTitlesFile 20) := by
  have htitle {title : Nat} (hlt : title < (twoTitles 20).starts.length) : title = 0 ∨ title = 1 := by
    change title < 2 at hlt
    omega
  obtain ⟨hzero, hone, htwo⟩ := offset_twoTitles
  constructor
  · intro title hlt
    rcases htitle hlt with rfl | rfl <;> simp only [hzero, hone, htwo] <;> decide
  · intro title hlt
    rw [base_twoTitles, size_twoTitlesFile]
    rcases htitle hlt with rfl | rfl <;> simp only [hone, htwo] <;> decide

theorem lists_twoTitles :
    (twoTitles 20).Lists (twoTitlesFile 20) [[⟨1, 1⟩], [⟨1, 2⟩, ⟨2, 1⟩]] where
  length_eq := rfl
  partsAt {title list} hlist := by
    have hsizes := TitleSet.size_identifier
    have hencoded := PartOfTitle.size_encode
    have hpart : PartOfTitle.encodedSize = 4 := rfl
    obtain ⟨hzero, hone, htwo⟩ := offset_twoTitles
    rw [base_twoTitles]
    rcases title with _ | _ | title
    · obtain rfl := Option.some.inj hlist
      rw [hzero, hone]
      refine ⟨rfl, fun {i part} hi => ?_⟩
      rcases i with _ | i
      · obtain rfl := Option.some.inj hi
        exact ((HoldsAt.refl _).part 10 rfl).at_eq (by simp [hsizes])
      · cases hi
    · obtain rfl := Option.some.inj hlist
      rw [hone, htwo]
      refine ⟨rfl, fun {i part} hi => ?_⟩
      rcases i with _ | _ | i
      · obtain rfl := Option.some.inj hi
        exact ((HoldsAt.refl _).part 11 rfl).at_eq (by simp [hsizes, hencoded, hpart])
      · obtain rfl := Option.some.inj hi
        exact ((HoldsAt.refl _).part 12 rfl).at_eq (by simp [hsizes, hencoded, hpart])
      · cases hi
    · cases hlist

theorem decode_twoTitlesFile : TitleSet.decode (twoTitlesFile 20) =
    .ok { parts := [[⟨1, 1⟩], [⟨1, 2⟩, ⟨2, 1⟩]], chains := none } := by
  have h := HoldsAt.refl (twoTitlesFile 20)
  have hfile : (twoTitles 20).StandsIn (IndexFile.mk "VTS IFO" (twoTitlesFile 20)).data :=
    standsIn_twoTitles 20
  have hchains : HoldsAt (twoTitlesFile 20) TitleSet.chainTablePointer (word32Bytes (.ofNat 0)) :=
    (h.part 3 rfl).at_eq (by simp [TitleSet.size_identifier, TitleSet.chainTablePointer])
  have hnone : IndexFile.table? ⟨"VTS IFO", twoTitlesFile 20⟩ TitleSet.chainTablePointer = .ok none :=
    hchains.table?_eq_none
  refine TitleSet.decode_of_tables h.left ?_ ?_
  · rw [TitleSet.partTable, hfile.table?_eq, ok_bind]
    exact hfile.decodeParts_eq_ok_iff.2 ⟨checked_twoTitles, lists_twoTitles⟩
  · rw [TitleSet.chainTable, hnone]
    rfl

/-- A file whose two titles have three chapters is accepted. It is refused when the chapters of the
second title start in front of those of the first, or behind the end of the table. -/
theorem partTable_within_twoTitles :
    (∃ (set : TitleSet) (table : PartTable), TitleSet.decode (twoTitlesFile 20) = .ok set ∧
      table.StandsIn (twoTitlesFile 20) ∧ table.starts.length = 2 ∧ Monotone table.offset ∧
      Pairwise (Function.onFun Disjoint table.extent) ∧
      (∀ title, table.extent title ⊆ Set.Iio 2076) ∧ 12 ≤ table.stop) ∧
    ∀ second ∈ [12, 32], ∃ text,
      TitleSet.decode (twoTitlesFile second) = .error (.corruptIndex text) := by
  constructor
  · obtain ⟨table, -, hstands, hlists, hwithin⟩ := (partTable_within (twoTitlesFile 20)).1 _ 1
      decode_twoTitlesFile (by decide) (standsIn_twoTitles 20).pointer
    have hlength : 2 = table.starts.length := hlists.length_eq
    have hsome : table.starts ≠ [] := by
      rw [← List.length_pos_iff, ← hlength]
      exact Nat.two_pos
    obtain ⟨hmonotone, -, hdisjoint, hsubset, hsize, -⟩ := hwithin hsome
    rw [size_twoTitlesFile] at hsubset
    exact ⟨_, table, decode_twoTitlesFile, hstands, hlength.symm, hmonotone, hdisjoint, hsubset,
      hsize⟩
  · intro second hsecond
    refine (partTable_within (twoTitlesFile second)).2.2 _ (standsIn_twoTitles second)
      (List.cons_ne_nil _ _) ?_
    simp only [List.mem_cons, List.not_mem_nil, or_false] at hsecond
    rcases hsecond with rfl | rfl
    · exact .inl ⟨0, by decide⟩
    · exact .inr (.inl ⟨1, by decide⟩)

end PartTable

end OpticalDisc
