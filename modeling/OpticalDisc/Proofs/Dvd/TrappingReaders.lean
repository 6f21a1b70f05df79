import OpticalDisc.Proofs.Dvd.SteadyReaders

/-!
# Reading index files in machine words

The tables of a DVD once more, read with 64-bit addresses by a program that traps where a sum or a
product of addresses is no such word, where a difference is below zero, where a buffer is reserved
that no memory holds, and where a byte is taken from behind the end of its slice. No contents of a
file bring the program to a trap: it always answers, and it answers what the decoders answer.
-/

namespace OpticalDisc

open IndexFile (Steady)

/-- A computation that ends with an answer or with a failure, unless it traps: `none`. -/
abbrev Trapping (α : Type) := ExceptT Error Option α

/-- What memory holds stays below this number of bytes. -/
def memorySize : Nat := 2 ^ 63

namespace Trapping

variable {α β : Type}

def unlessTrap (c : Prop) [Decidable c] (a : α) : Trapping α :=
  ExceptT.mk (if c then some (.ok a) else none)

def sum (a b : Nat) : Trapping Nat := unlessTrap (a + b < UInt64.size) (a + b)

def product (a b : Nat) : Trapping Nat := unlessTrap (a * b < UInt64.size) (a * b)

def difference (a b : Nat) : Trapping Nat := unlessTrap (b ≤ a) (a - b)

def largestEntry : Nat := 64

def reserve (count : Nat) : Trapping Unit := unlessTrap (count * largestEntry < memorySize) ()

def byteOf (bytes : ByteArray) (pos : Nat) : Trapping UInt8 :=
  unlessTrap (pos < bytes.size) (byteAt bytes pos)

def natOf (bytes : ByteArray) (pos : Nat) : (width : Nat) → Trapping Nat
  | 0 => return 0
  | width + 1 => return (← natOf bytes pos width) * 256 + (← byteOf bytes (pos + width)).toNat

def word16Of (bytes : ByteArray) (pos : Nat) : Trapping UInt16 :=
  return UInt16.ofNat (← natOf bytes pos 2)

def word32Of (bytes : ByteArray) (pos : Nat) : Trapping UInt32 :=
  return UInt32.ofNat (← natOf bytes pos 4)

def timeOf (bytes : ByteArray) (pos : Nat) : Trapping PlaybackTime :=
  return {
    hour := ← byteOf bytes pos
    minute := ← byteOf bytes (pos + 1)
    second := ← byteOf bytes (pos + 2)
    frame := ← byteOf bytes (pos + 3) }

def pieces (size : Nat) (bytes : ByteArray) : List ByteArray :=
  (List.range (bytes.size / size)).map fun i => bytes.extract (i * size) (i * size + size)

/-- A range whose end is no word is outside of the file, like one that ends behind it. -/
def range (file : IndexFile) (offset length : Nat) : Trapping ByteArray :=
  if offset + length < UInt64.size ∧ offset + length ≤ file.data.size then
    return file.data.extract offset (offset + length)
  else
    let place := Text.markedHex offset
    throw (.corruptIndex
      s!"{file.name}: {length} bytes at offset {place} exceed file size {file.data.size}")

def byte (file : IndexFile) (offset : Nat) : Trapping UInt8 := do
  byteOf (← range file offset 1) 0

def word16 (file : IndexFile) (offset : Nat) : Trapping UInt16 := do
  word16Of (← range file offset 2) 0

def word32 (file : IndexFile) (offset : Nat) : Trapping UInt32 := do
  word32Of (← range file offset 4) 0

def time (file : IndexFile) (offset : Nat) : Trapping PlaybackTime := do
  timeOf (← range file offset 4) 0

def requireIdentifier (file : IndexFile) (identifier : String) : Trapping Unit := do
  let found ← range file 0 identifier.utf8ByteSize
  if found.data = identifier.toUTF8.data then return ()
  else throw (.corruptIndex s!"{file.name}: missing {identifier} identifier")

/-- An offset that is no word is outside of the file. -/
def table? (file : IndexFile) (pointer : Nat) : Trapping (Option Nat) := do
  let sector := (← word32 file pointer).toNat
  if sector = 0 then return none
  else if sectorOffset sector < UInt64.size ∧ sectorOffset sector < file.data.size then
    return some (sectorOffset sector)
  else
    let place := Text.markedHex pointer
    throw (.corruptIndex s!"{file.name}: table pointer at {place} (sector {sector}) outside file")

def titleRecord (bytes : ByteArray) : Trapping TitleRecord :=
  return {
    playbackType := ← byteOf bytes 0
    angleCount := ← byteOf bytes 1
    partCount := ← word16Of bytes 2
    parentalMask := ← word16Of bytes 4
    titleSet := ← byteOf bytes 6
    titleInSet := ← byteOf bytes 7
    startSector := ← word32Of bytes 8 }

def titles (file : IndexFile) (base : Nat) : Trapping (List TitleRecord) := do
  let count ← word16 file base
  reserve count.toNat
  (List.range count.toNat).mapM fun i => do
    let offset ← sum (← sum base tableHeaderSize) (← product i TitleRecord.encodedSize)
    titleRecord (← range file offset TitleRecord.encodedSize)

def videoManager (data : ByteArray) : Trapping VideoManager := do
  let file : IndexFile := ⟨VideoManager.fileName, data⟩
  requireIdentifier file VideoManager.identifier
  let titleSetCount ← word16 file VideoManager.titleSetCountOffset
  match ← table? file VideoManager.titleTablePointer with
  | none => throw (.corruptIndex "VIDEO_TS.IFO: no title search pointer table")
  | some base => return { titleSetCount, titles := ← titles file base }

def part (bytes : ByteArray) : Trapping PartOfTitle :=
  return { chain := ← word16Of bytes 0, program := ← word16Of bytes 2 }

def cell (bytes : ByteArray) : Trapping Cell := do
  let category := (← byteOf bytes 0).toNat
  return {
    firstSector := ← word32Of bytes 8
    lastSector := ← word32Of bytes 20
    role := AngleRole.ofModeAndType (category / 64) (category / 16 % 4)
    time := ← timeOf bytes 4 }

def programMap (file : IndexFile) (base count : Nat) : Trapping (List UInt8) := do
  if count = 0 then return []
  else
    let offset := (← word16 file (← sum base ProgramChain.programMapPointer)).toNat
    if offset = 0 then
      let place := Text.markedHex base
      throw (.corruptIndex s!"PGC at {place}: {count} programs but no program map")
    else return (← range file (← sum base offset) count).data.toList

def cells (file : IndexFile) (base count : Nat) : Trapping (List Cell) := do
  if count = 0 then return []
  else
    let offset := (← word16 file (← sum base ProgramChain.cellTablePointer)).toNat
    if offset = 0 then
      let place := Text.markedHex base
      throw (.corruptIndex s!"PGC at {place}: {count} cells but no cell playback table")
    else
      let bytes ← range file (← sum base offset) (← product count Cell.encodedSize)
      (pieces Cell.encodedSize bytes).mapM cell

def chain (file : IndexFile) (base : Nat) : Trapping ProgramChain := do
  let programCount ← byte file (← sum base ProgramChain.programCountOffset)
  let cellCount ← byte file (← sum base ProgramChain.cellCountOffset)
  let time ← time file (← sum base ProgramChain.timeOffset)
  let programMap ← programMap file base programCount.toNat
  let cells ← cells file base cellCount.toNat
  return { time, programMap, cells }

def partList (file : IndexFile) (base start stop index : Nat) : Trapping (List PartOfTitle) := do
  if stop < start then
    let number ← sum index 1
    let from_ := Text.markedHex start
    let upTo := Text.markedHex stop
    throw (.corruptIndex s!"VTS_PTT_SRPT: title {number} offsets decrease ({from_} > {upTo})")
  else
    let bytes ← range file (← sum base start) (← difference stop start)
    (pieces PartOfTitle.encodedSize bytes).mapM part

/-- A title reaches up to the offset behind its own, where there is one. -/
def parts (file : IndexFile) (base : Nat) : Trapping (List (List PartOfTitle)) := do
  let count ← word16 file base
  let tableEnd ← sum (← word32 file (← sum base 4)).toNat 1
  reserve count.toNat
  let starts ← (List.range count.toNat).mapM fun i => do
    return (← word32 file (← sum (← sum base tableHeaderSize) (← product i 4))).toNat
  reserve count.toNat
  starts.zipIdx.mapM fun (start, index) => do
    let next ← sum index 1
    partList file base start (starts[next]?.getD tableEnd) index

def chains (file : IndexFile) (base : Nat) : Trapping (Array ProgramChain) := do
  let count ← word16 file base
  reserve count.toNat
  let chains ← (List.range count.toNat).mapM fun i => do
    let pointer ← sum (← sum base tableHeaderSize) (← product i TitleSet.chainPointerSize)
    let offset ← word32 file (← sum pointer 4)
    chain file (← sum base offset.toNat)
  return chains.toArray

def partTable (file : IndexFile) : Trapping (List (List PartOfTitle)) := do
  match ← table? file TitleSet.partTablePointer with
  | some base => parts file base
  | none => return []

def chainTable (file : IndexFile) : Trapping (Option (Array ProgramChain)) := do
  match ← table? file TitleSet.chainTablePointer with
  | some base => return some (← chains file base)
  | none => return none

def titleSet (data : ByteArray) : Trapping TitleSet := do
  let file : IndexFile := ⟨"VTS IFO", data⟩
  requireIdentifier file TitleSet.identifier
  return { parts := ← partTable file, chains := ← chainTable file }

/-- The computation does not trap, and ends as a decoder does. -/
def Answers (x : Trapping α) (answer : Except Error α) : Prop :=
  x.run = some answer

namespace Answers

theorem pure (a : α) : Answers (Pure.pure a) (.ok a) := rfl

theorem throw (e : Error) : Answers (MonadExcept.throw e : Trapping α) (.error e) := rfl

theorem unlessTrap {c : Prop} [Decidable c] (h : c) (a : α) : Answers (unlessTrap c a) (.ok a) :=
  if_pos h

theorem bind {x : Trapping α} {answer : Except Error α} {f : α → Trapping β}
    {next : α → Except Error β} (hx : Answers x answer)
    (hf : ∀ a, answer = .ok a → Answers (f a) (next a)) : Answers (x >>= f) (answer >>= next) := by
  have hrun : (x >>= f).run = x.run >>= ExceptT.bindCont f := rfl
  cases answer with
  | error e => exact hrun.trans (by rw [hx]; rfl)
  | ok a => exact (hrun.trans (by rw [hx]; rfl)).trans (hf a rfl)

theorem after {x : Trapping α} {a : α} {f : α → Trapping β} {answer : Except Error β}
    (hx : Answers x (.ok a)) (hf : Answers (f a) answer) : Answers (x >>= f) answer :=
  bind hx fun _ h => Except.ok.inj h ▸ hf

theorem mapM {list : List β} {f : β → Trapping α} {read : β → Except Error α}
    (h : ∀ b ∈ list, Answers (f b) (read b)) : Answers (list.mapM f) (list.mapM read) := by
  induction list with
  | nil => exact pure []
  | cons b rest ih =>
    have hrest : Answers (rest.mapM f) (rest.mapM read) := by
      apply ih
      intro later hlater
      exact h later (List.mem_cons_of_mem _ hlater)
    rw [List.mapM_cons, List.mapM_cons]
    exact bind (h b (List.mem_cons_self ..)) fun a _ => bind hrest fun more _ => pure (a :: more)

end Answers

theorem answers_sum {a b : Nat} (h : a + b < 2 ^ 64) : Answers (sum a b) (.ok (a + b)) :=
  .unlessTrap h _

theorem answers_product {a b : Nat} (h : a * b < 2 ^ 64) :
    Answers (product a b) (.ok (a * b)) :=
  .unlessTrap h _

/-- A 16-bit count of entries finds room in memory. -/
theorem answers_reserve (count : UInt16) : Answers (reserve count.toNat) (.ok ()) := by
  have hcount := count.toNat_lt
  exact .unlessTrap (by simp only [largestEntry, memorySize]; omega) ()

section Slices

variable {bytes : ByteArray} {pos : Nat}

theorem answers_byteOf (h : pos < bytes.size) :
    Answers (byteOf bytes pos) (.ok (byteAt bytes pos)) :=
  .unlessTrap h _

theorem answers_natOf {width : Nat} (h : pos + width ≤ bytes.size) :
    Answers (natOf bytes pos width) (.ok (natAt bytes pos width)) := by
  induction width with
  | zero => exact .pure 0
  | succ width ih => exact (ih (by omega)).after ((answers_byteOf (by omega)).after (.pure _))

theorem answers_word16Of (h : pos + 2 ≤ bytes.size) :
    Answers (word16Of bytes pos) (.ok (word16At bytes pos)) :=
  (answers_natOf h).after (.pure _)

theorem answers_word32Of (h : pos + 4 ≤ bytes.size) :
    Answers (word32Of bytes pos) (.ok (word32At bytes pos)) :=
  (answers_natOf h).after (.pure _)

example : (word16Of ⟨#[1]⟩ 0).run = none := rfl

theorem answers_timeOf (h : pos + 4 ≤ bytes.size) :
    Answers (timeOf bytes pos) (.ok {
      hour := byteAt bytes pos
      minute := byteAt bytes (pos + 1)
      second := byteAt bytes (pos + 2)
      frame := byteAt bytes (pos + 3) }) :=
  (answers_byteOf (by omega)).after <| (answers_byteOf (by omega)).after <|
    (answers_byteOf (by omega)).after <| (answers_byteOf (by omega)).after (.pure _)

theorem answers_titleRecord (h : bytes.size = TitleRecord.encodedSize) :
    Answers (titleRecord bytes) (.ok (TitleRecord.ofBytes bytes)) := by
  rw [TitleRecord.encodedSize] at h
  exact (answers_byteOf (by omega)).after <| (answers_byteOf (by omega)).after <|
    (answers_word16Of (by omega)).after <| (answers_word16Of (by omega)).after <|
      (answers_byteOf (by omega)).after <| (answers_byteOf (by omega)).after <|
        (answers_word32Of (by omega)).after (.pure _)

theorem answers_part (h : bytes.size = PartOfTitle.encodedSize) :
    Answers (part bytes) (.ok (PartOfTitle.ofBytes bytes 0)) := by
  rw [PartOfTitle.encodedSize] at h
  exact (answers_word16Of (by omega)).after ((answers_word16Of (by omega)).after (.pure _))

theorem answers_cell (h : bytes.size = Cell.encodedSize) :
    Answers (cell bytes) (.ok (Cell.ofBytes bytes 0)) := by
  rw [Cell.encodedSize] at h
  exact (answers_byteOf (by omega)).after <| (answers_word32Of (by omega)).after <|
    (answers_word32Of (by omega)).after <| (answers_timeOf (by omega)).after (.pure _)

/-- Entries read from the pieces that they fill are those read from the whole. -/
theorem answers_pieces {size : Nat} {f : ByteArray → Trapping α} {ofBytes : ByteArray → Nat → α}
    (hf : ∀ piece, piece.size = size → Answers (f piece) (.ok (ofBytes piece 0)))
    (hpiece : ∀ i, i * size + size ≤ bytes.size →
      ofBytes (bytes.extract (i * size) (i * size + size)) 0 = ofBytes bytes (i * size)) :
    Answers ((pieces size bytes).mapM f)
      (.ok ((List.range (bytes.size / size)).map fun i => ofBytes bytes (i * size))) := by
  have hentries : ∀ i ∈ List.range (bytes.size / size),
      Answers (f (bytes.extract (i * size) (i * size + size))) (.ok (ofBytes bytes (i * size))) := by
    intro i hi
    have hin : i * size + size ≤ bytes.size := by
      rw [← Nat.succ_mul]
      exact (Nat.mul_le_mul_right size (List.mem_range.1 hi)).trans (Nat.div_mul_le_self ..)
    rw [← hpiece i hin]
    apply hf
    rw [ByteArray.size_extract]
    omega
  have hall : ((List.range (bytes.size / size)).mapM fun i =>
      (.ok (ofBytes bytes (i * size)) : Except Error α)) = .ok _ := List.mapM_pure
  rw [pieces, List.mapM_map, ← hall]
  exact .mapM hentries

end Slices

section Files

variable {file : IndexFile} (hsize : file.data.size < memorySize)

include hsize

theorem answers_range (offset length : Nat) :
    Answers (range file offset length) (file.range offset length) := by
  unfold range IndexFile.range
  by_cases hfits : offset + length ≤ file.data.size
  · have hword : offset + length < UInt64.size := by
      simp only [memorySize, UInt64.size] at hsize ⊢
      omega
    rw [if_pos ⟨hword, hfits⟩, if_pos hfits]
    exact .pure _
  · rw [if_neg fun h => hfits h.2, if_neg hfits]
    exact .throw _

theorem answers_byte (offset : Nat) : Answers (byte file offset) (file.byte offset) := by
  refine (answers_range hsize offset 1).bind fun bytes h => answers_byteOf ?_
  rw [IndexFile.size_of_range h]
  exact Nat.one_pos

theorem answers_word16 (offset : Nat) : Answers (word16 file offset) (file.word16 offset) :=
  (answers_range hsize offset 2).bind fun _ h =>
    answers_word16Of (Nat.le_of_eq (IndexFile.size_of_range h).symm)

theorem answers_word32 (offset : Nat) : Answers (word32 file offset) (file.word32 offset) :=
  (answers_range hsize offset 4).bind fun _ h =>
    answers_word32Of (Nat.le_of_eq (IndexFile.size_of_range h).symm)

theorem answers_time (offset : Nat) :
    Answers (time file offset) (ProgramChain.decodeTime file offset) :=
  (answers_range hsize offset 4).bind fun _ h =>
    answers_timeOf (Nat.le_of_eq (IndexFile.size_of_range h).symm)

theorem answers_requireIdentifier (identifier : String) :
    Answers (requireIdentifier file identifier) (file.requireIdentifier identifier) := by
  refine (answers_range hsize 0 _).bind fun found _ => ?_
  split
  · exact .pure _
  · exact .throw _

theorem answers_table? (pointer : Nat) : Answers (table? file pointer) (file.table? pointer) := by
  refine (answers_word32 hsize pointer).bind fun sector _ => ?_
  dsimp only
  split
  · exact .pure _
  · by_cases hinside : sectorOffset sector.toNat < file.data.size
    · have hword : sectorOffset sector.toNat < UInt64.size := by
        simp only [memorySize, UInt64.size] at hsize ⊢
        omega
      rw [if_pos ⟨hword, hinside⟩, if_pos hinside]
      exact .pure _
    · rw [if_neg fun h => hinside h.2, if_neg hinside]
      exact .throw _

variable {base : Nat}

theorem answers_titles (hbase : base < memorySize) :
    Answers (titles file base) (VideoManager.decodeTitles file base) := by
  simp only [memorySize] at hbase
  refine (answers_word16 hsize base).bind fun count _ => (answers_reserve count).after <|
    .mapM fun i hi => ?_
  have hcount := count.toNat_lt
  have hi := List.mem_range.1 hi
  refine (answers_sum ?_).after <| (answers_product ?_).after <| (answers_sum ?_).after <|
    (answers_range hsize _ _).bind fun bytes h => answers_titleRecord (IndexFile.size_of_range h)
  all_goals
    simp only [tableHeaderSize, TitleRecord.encodedSize]
    omega

theorem answers_programMap (hbase : base + 2 ^ 16 < 2 ^ 64) (count : Nat) :
    Answers (programMap file base count) (ProgramChain.decodeProgramMap file base count) := by
  unfold programMap ProgramChain.decodeProgramMap
  split
  · exact .pure _
  · refine (answers_sum ?_).after <| (answers_word16 hsize _).bind fun pointer _ => ?_
    · simp only [ProgramChain.programMapPointer]
      omega
    · have hpointer := pointer.toNat_lt
      dsimp only
      split
      · exact .throw _
      · exact (answers_sum (by omega)).after <|
          (answers_range hsize _ count).bind fun _ _ => .pure _

theorem answers_cells (hbase : base + 2 ^ 16 < 2 ^ 64) {count : Nat} (hcount : count < 2 ^ 8) :
    Answers (cells file base count) (ProgramChain.decodeCells file base count) := by
  unfold cells ProgramChain.decodeCells
  split
  · exact .pure _
  · refine (answers_sum ?_).after <| (answers_word16 hsize _).bind fun pointer _ => ?_
    · simp only [ProgramChain.cellTablePointer]
      omega
    · have hpointer := pointer.toNat_lt
      dsimp only
      split
      · exact .throw _
      · refine (answers_sum (by omega)).after <| (answers_product ?_).after <|
          (answers_range hsize _ _).bind fun bytes h => ?_
        · simp only [Cell.encodedSize]
          omega
        · have hbytes : bytes.size / Cell.encodedSize = count := by
            rw [IndexFile.size_of_range h, Nat.mul_div_cancel count (by decide)]
          rw [← hbytes]
          exact answers_pieces (fun _ => answers_cell) fun _ => Cell.ofBytes_extract

theorem answers_chain (hbase : base + 2 ^ 16 < 2 ^ 64) :
    Answers (chain file base) (ProgramChain.decode file base) := by
  have hplace {place : Nat} (h : place ≤ 4) : base + place < 2 ^ 64 := by omega
  refine (answers_sum (hplace (by decide))).after <| (answers_byte hsize _).bind fun programs _ => ?_
  refine (answers_sum (hplace (by decide))).after <| (answers_byte hsize _).bind fun count _ => ?_
  refine (answers_sum (hplace (by decide))).after <| (answers_time hsize _).bind fun time _ => ?_
  exact (answers_programMap hsize hbase _).bind fun map _ =>
    (answers_cells hsize hbase count.toNat_lt).bind fun cells _ => .pure _

theorem answers_partList {start stop index : Nat} (hstart : base + start < 2 ^ 64)
    (hindex : index < 2 ^ 16) :
    Answers (partList file base start stop index)
      (TitleSet.decodePartList file base start stop index) := by
  unfold partList TitleSet.decodePartList
  split
  · exact (answers_sum (by omega)).after (.throw _)
  · refine (answers_sum hstart).after <| (Answers.unlessTrap (by omega) _).after <|
      (answers_range hsize _ _).bind fun bytes _ => ?_
    exact answers_pieces (fun _ => answers_part) fun _ => PartOfTitle.ofBytes_extract

theorem answers_parts (hbase : base < memorySize) :
    Answers (parts file base) (TitleSet.decodeParts file base) := by
  simp only [memorySize] at hbase
  refine (answers_word16 hsize base).bind fun count _ => ?_
  refine (answers_sum (by omega)).after <| (answers_word32 hsize _).bind fun lastByte _ => ?_
  have hcount := count.toNat_lt
  have hlast := lastByte.toNat_lt
  refine (answers_sum (by omega)).after <| (answers_reserve count).after ?_
  refine Answers.bind (.mapM fun i hi => ?_) fun starts hstarts => ?_
  · have hi := List.mem_range.1 hi
    refine (answers_sum ?_).after <| (answers_product (by omega)).after <| (answers_sum ?_).after <|
      (answers_word32 hsize _).bind fun _ _ => .pure _
    all_goals
      simp only [tableHeaderSize]
      omega
  · refine (answers_reserve count).after ?_
    have hlength : starts.length = count.toNat := by
      rw [← (mapM_eq_ok_iff.1 hstarts).length_eq, List.length_range]
    have hstart : ∀ start ∈ starts, start < 2 ^ 32 := by
      refine forall_mem_of_mapM_eq_ok hstarts fun i start h => ?_
      cases hword : file.word32 (base + tableHeaderSize + i * 4) with
      | error e => simp [hword, bind, Except.bind] at h
      | ok word =>
        obtain rfl : word.toNat = start := by
          simpa [hword, bind, Except.bind, pure, Except.pure] using h
        exact word.toNat_lt
    dsimp only
    rw [zipIdx_zip_stops, List.mapM_map]
    refine .mapM fun (start, index) hentry => ?_
    obtain ⟨-, hindex, -⟩ := List.mem_zipIdx hentry
    have hstart := hstart start (List.fst_mem_of_mem_zipIdx hentry)
    have hnext : index + 1 < 2 ^ 64 := by omega
    exact (answers_sum hnext).after (answers_partList hsize (by omega) (by omega))

theorem answers_chains (hbase : base < memorySize) :
    Answers (chains file base) (TitleSet.decodeChains file base) := by
  simp only [memorySize] at hbase
  refine (answers_word16 hsize base).bind fun count _ => (answers_reserve count).after ?_
  refine Answers.bind (.mapM fun i hi => ?_) fun chains _ => .pure _
  have hcount := count.toNat_lt
  have hi := List.mem_range.1 hi
  refine (answers_sum ?_).after <| (answers_product ?_).after <| (answers_sum ?_).after <|
    (answers_sum ?_).after <| (answers_word32 hsize _).bind fun offset _ => ?_
  rotate_right
  · have hoffset := offset.toNat_lt
    exact (answers_sum (by omega)).after (answers_chain hsize (by omega))
  all_goals
    simp only [tableHeaderSize, TitleSet.chainPointerSize]
    omega

theorem answers_partTable : Answers (partTable file) (TitleSet.partTable file) := by
  refine (answers_table? hsize _).bind fun base? h => ?_
  cases base? with
  | none => exact .pure []
  | some base => exact answers_parts hsize ((IndexFile.lt_size_of_table? h).trans hsize)

theorem answers_chainTable : Answers (chainTable file) (TitleSet.chainTable file) := by
  refine (answers_table? hsize _).bind fun base? h => ?_
  cases base? with
  | none => exact .pure none
  | some base =>
    exact (answers_chains hsize ((IndexFile.lt_size_of_table? h).trans hsize)).bind fun _ _ => .pure _

end Files

theorem answers_videoManager {data : ByteArray} (hsize : data.size < memorySize) :
    Answers (videoManager data) (VideoManager.decode data) := by
  have hfile : (⟨VideoManager.fileName, data⟩ : IndexFile).data.size < memorySize := hsize
  refine (answers_requireIdentifier hfile _).bind fun _ _ =>
    (answers_word16 hfile _).bind fun count _ => (answers_table? hfile _).bind fun base? h => ?_
  cases base? with
  | none => exact .throw _
  | some base =>
    exact (answers_titles hfile ((IndexFile.lt_size_of_table? h).trans hsize)).bind
      fun titles _ => .pure _

theorem answers_titleSet {data : ByteArray} (hsize : data.size < memorySize) :
    Answers (titleSet data) (TitleSet.decode data) := by
  have hfile : (⟨"VTS IFO", data⟩ : IndexFile).data.size < memorySize := hsize
  rw [TitleSet.decode_eq]
  exact (answers_requireIdentifier hfile _).bind fun _ _ =>
    (answers_partTable hfile).bind fun parts _ =>
      (answers_chainTable hfile).bind fun chains _ => .pure _

end Trapping

/-- A decoder of index files that bytes behind the end do not sway and that refuses a file only as
a corrupt index, beside the program that reads the same in machine words. -/
structure StableDecoder {α : Type} (decode : ByteArray → Except Error α)
    (inWords : ByteArray → Trapping α) : Prop where
  append {data : ByteArray} {a : α} (more : ByteArray) :
    decode data = .ok a → decode (data ++ more) = .ok a
  /-- A front of a file is read as the whole file is, or refused. -/
  front (data more : ByteArray) :
    (∃ a, decode data = .ok a ∧ decode (data ++ more) = .ok a) ∨
      ∃ text, decode data = .error (.corruptIndex text)
  corrupt {data : ByteArray} {e : Error} : decode data = .error e → ∃ text, e = .corruptIndex text
  noTrap {data : ByteArray} : data.size < memorySize → (inWords data).run = some (decode data)

theorem StableDecoder.of_steady {α : Type} {decode : ByteArray → Except Error α}
    {inWords : ByteArray → Trapping α} (hsteady : Steady fun file => decode file.data)
    (hwords : ∀ {data : ByteArray}, data.size < memorySize → (inWords data).Answers (decode data)) :
    StableDecoder decode inWords where
  append {data a} more h := @Steady.read_extend α _ hsteady ⟨"", data⟩ a more h
  front data more := by
    rcases hsteady.ok_or_corrupt ⟨"", data⟩ with ⟨a, h⟩ | hcorrupt
    · exact .inl ⟨a, h, @Steady.read_extend α _ hsteady ⟨"", data⟩ a more h⟩
    · exact .inr hcorrupt
  corrupt {data e} h := @Steady.corrupt α _ hsteady ⟨"", data⟩ e h
  noTrap h := hwords h

/-- Truncation and trailing bytes never change what an index file means, and no contents make its
decoder trap. -/
theorem IndexFile.decoders_stable :
    StableDecoder VideoManager.decode Trapping.videoManager ∧
      StableDecoder TitleSet.decode Trapping.titleSet :=
  ⟨.of_steady VideoManager.steady_decode Trapping.answers_videoManager,
    .of_steady TitleSet.steady_decode Trapping.answers_titleSet⟩

end OpticalDisc
