import OpticalDisc.Proofs.Dvd.IndexTables

/-!
# Readers of index files

A reader is steady when bytes behind the end of a file make no difference to what it reads, and when
it refuses a file as a corrupt index and in no other way. Readers that are made of steady ones are
steady, and so every table of a DVD is read by a steady reader.
-/

namespace OpticalDisc

namespace IndexFile

def extend (file : IndexFile) (more : ByteArray) : IndexFile :=
  { file with data := file.data ++ more }

/-- What is read stays the same when bytes come behind the end, and a failure is a corrupt index. -/
structure Steady {α : Type} (read : IndexFile → Except Error α) : Prop where
  read_extend {file : IndexFile} {a : α} (more : ByteArray) :
    read file = .ok a → read (file.extend more) = .ok a
  corrupt {file : IndexFile} {e : Error} : read file = .error e → ∃ text, e = .corruptIndex text

namespace Steady

variable {α β : Type}

theorem ok_or_corrupt {read : IndexFile → Except Error α} (h : Steady read) (file : IndexFile) :
    (∃ a, read file = .ok a) ∨ ∃ text, read file = .error (.corruptIndex text) := by
  cases hread : read file with
  | ok a => exact .inl ⟨a, rfl⟩
  | error e =>
    obtain ⟨text, rfl⟩ := h.corrupt hread
    exact .inr ⟨text, rfl⟩

theorem pure (a : α) : Steady fun _ => .ok a where
  read_extend _ h := h
  corrupt h := nomatch h

theorem refuse (text : IndexFile → String) :
    Steady fun file => (.error (.corruptIndex (text file)) : Except Error α) where
  read_extend _ h := nomatch h
  corrupt h := ⟨_, (Except.error.inj h).symm⟩

theorem bind {read : IndexFile → Except Error α} {next : α → IndexFile → Except Error β}
    (h : Steady read) (hnext : ∀ a, Steady (next a)) :
    Steady fun file => read file >>= fun a => next a file where
  read_extend {file b} more hb := by
    cases ha : read file with
    | error e => simp [ha, Bind.bind, Except.bind] at hb
    | ok a =>
      have hb' : next a file = .ok b := by simpa [ha, Bind.bind, Except.bind] using hb
      simp only [h.read_extend more ha, Bind.bind, Except.bind]
      exact (hnext a).read_extend more hb'
  corrupt {file e} he := by
    cases ha : read file with
    | error e' =>
      obtain rfl : e' = e := by simpa [ha, Bind.bind, Except.bind] using he
      exact h.corrupt ha
    | ok a => exact (hnext a).corrupt (by simpa [ha, Bind.bind, Except.bind] using he)

theorem ite {c : Prop} [Decidable c] {read other : IndexFile → Except Error α}
    (h : Steady read) (hother : Steady other) :
    Steady fun file => if c then read file else other file := by
  split
  · exact h
  · exact hother

theorem rename {read : IndexFile → Except Error α} (h : Steady read) (name : String) :
    Steady fun file => read ⟨name, file.data⟩ where
  read_extend more ha := h.read_extend more ha
  corrupt he := h.corrupt he

theorem mapM {read : β → IndexFile → Except Error α} (h : ∀ b, Steady (read b)) (list : List β) :
    Steady fun file => list.mapM fun b => read b file := by
  induction list with
  | nil => exact pure []
  | cons b rest ih =>
    simp only [List.mapM_cons]
    exact (h b).bind fun a => ih.bind fun more => pure (a :: more)

end Steady

theorem steady_range (offset length : Nat) : Steady fun file => file.range offset length where
  read_extend {file bytes} more h := by
    unfold range at h ⊢
    split at h
    · rename_i hfits
      obtain rfl := Except.ok.inj h
      have hsize : offset + length ≤ (file.extend more).data.size := by
        simp only [extend, ByteArray.size_append]
        omega
      rw [if_pos hsize, extend, extract_append_left hfits]
    · simp at h
  corrupt {file e} h := by
    unfold range at h
    split at h
    · simp at h
    · exact ⟨_, (Except.error.inj h).symm⟩

theorem steady_byte (offset : Nat) : Steady fun file => file.byte offset :=
  (steady_range offset 1).bind fun bytes => .pure (byteAt bytes 0)

theorem steady_word16 (offset : Nat) : Steady fun file => file.word16 offset :=
  (steady_range offset 2).bind fun bytes => .pure (word16At bytes 0)

theorem steady_word32 (offset : Nat) : Steady fun file => file.word32 offset :=
  (steady_range offset 4).bind fun bytes => .pure (word32At bytes 0)

theorem steady_requireIdentifier (identifier : String) :
    Steady fun file => file.requireIdentifier identifier :=
  (steady_range 0 identifier.utf8ByteSize).bind fun _ =>
    .ite (.pure ()) (.refuse fun file => s!"{file.name}: missing {identifier} identifier")

/-- A table that starts inside the file starts inside any longer one. -/
theorem steady_table? (pointer : Nat) : Steady fun file => file.table? pointer := by
  refine (steady_word32 pointer).bind fun sector => ?_
  refine .ite (.pure none) ⟨?_, ?_⟩
  · intro file base more h
    split at h
    · rename_i hinside
      have hsize : sectorOffset sector.toNat < (file.extend more).data.size := by
        simp only [extend, ByteArray.size_append]
        omega
      rw [if_pos hsize]
      exact h
    · cases h
  · intro file e h
    split at h
    · cases h
    · exact ⟨_, (Except.error.inj h).symm⟩

end IndexFile

open IndexFile (Steady)

namespace VideoManager

theorem steady_decodeTitles (base : Nat) : Steady fun file => decodeTitles file base :=
  (IndexFile.steady_word16 base).bind fun _ =>
    .mapM (fun i => (IndexFile.steady_range (base + tableHeaderSize + i * TitleRecord.encodedSize)
      TitleRecord.encodedSize).bind fun bytes => .pure (TitleRecord.ofBytes bytes)) _

theorem steady_decode : Steady fun file => decode file.data := by
  refine Steady.bind ((IndexFile.steady_requireIdentifier identifier).rename fileName) fun _ => ?_
  refine Steady.bind ((IndexFile.steady_word16 _).rename fileName) fun titleSetCount => ?_
  refine Steady.bind ((IndexFile.steady_table? _).rename fileName) fun base => ?_
  cases base with
  | none => exact .refuse fun _ => _
  | some base =>
    exact Steady.bind ((steady_decodeTitles base).rename fileName) fun titles => .pure _

end VideoManager

namespace ProgramChain

theorem steady_decodeTime (offset : Nat) : Steady fun file => decodeTime file offset :=
  (IndexFile.steady_range offset 4).bind fun _ => .pure _

theorem steady_decodeProgramMap (base count : Nat) :
    Steady fun file => decodeProgramMap file base count := by
  refine .ite (.pure []) ((IndexFile.steady_word16 _).bind fun offset => ?_)
  refine .ite (.refuse fun _ => _) ((IndexFile.steady_range _ count).bind fun bytes => .pure _)

theorem steady_decodeCells (base count : Nat) :
    Steady fun file => decodeCells file base count := by
  refine .ite (.pure []) ((IndexFile.steady_word16 _).bind fun offset => ?_)
  refine .ite (.refuse fun _ => _) ((IndexFile.steady_range _ _).bind fun bytes => .pure _)

theorem steady_decode (base : Nat) : Steady fun file => decode file base :=
  (IndexFile.steady_byte _).bind fun _ => (IndexFile.steady_byte _).bind fun _ =>
    (steady_decodeTime _).bind fun _ => (steady_decodeProgramMap _ _).bind fun _ =>
      (steady_decodeCells _ _).bind fun _ => .pure _

end ProgramChain

namespace TitleSet

theorem steady_decodePartList (base start stop index : Nat) :
    Steady fun file => decodePartList file base start stop index :=
  .ite (.refuse fun _ => _) ((IndexFile.steady_range _ _).bind fun _ => .pure _)

theorem steady_decodeParts (base : Nat) : Steady fun file => decodeParts file base := by
  refine (IndexFile.steady_word16 base).bind fun count => ?_
  refine (IndexFile.steady_word32 (base + 4)).bind fun lastByte => ?_
  refine Steady.bind (.mapM (fun i => (IndexFile.steady_word32 _).bind fun _ => .pure _) _)
    fun starts => ?_
  exact .mapM (fun ((start, stop), index) => steady_decodePartList base start stop index) _

theorem steady_decodeChains (base : Nat) : Steady fun file => decodeChains file base := by
  refine (IndexFile.steady_word16 base).bind fun count => ?_
  refine Steady.bind (.mapM (fun i => ?_) _) fun chains => .pure chains.toArray
  exact (IndexFile.steady_word32 _).bind fun offset => ProgramChain.steady_decode _

theorem steady_partTable : Steady partTable := by
  refine (IndexFile.steady_table? _).bind fun base? => ?_
  cases base? with
  | none => exact .pure []
  | some base => exact steady_decodeParts base

theorem steady_chainTable : Steady chainTable := by
  refine (IndexFile.steady_table? _).bind fun base? => ?_
  cases base? with
  | none => exact .pure none
  | some base => exact (steady_decodeChains base).bind fun chains => .pure (some chains)

theorem steady_decode : Steady fun file => decode file.data := by
  simp only [decode_eq]
  exact Steady.bind ((IndexFile.steady_requireIdentifier identifier).rename "VTS IFO") fun _ =>
    Steady.bind (steady_partTable.rename "VTS IFO") fun parts =>
      Steady.bind (steady_chainTable.rename "VTS IFO") fun chains =>
        Steady.pure (⟨parts, chains⟩ : TitleSet)

end TitleSet

end OpticalDisc
