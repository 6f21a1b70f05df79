import OpticalDisc.Dvd.Folder
import OpticalDisc.Proofs.Storage.StoreContents

/-!
# The files of a title set

The names that the files of a disc folder go by, and which of them hold the video of a title set: the
numbered parts in order, up to the first number that is missing.
-/

namespace OpticalDisc

/-- The values of `f` at the numbers from `start` on, up to the first number that has none and never
more than `most`. -/
structure LeadingValues {α : Type} (f : Nat → Option α) (start most : Nat) (values : List α) : Prop where
  length_le : values.length ≤ most
  value_at : ∀ i value, values[i]? = some value → f (start + i) = some value
  stops : values.length < most → f (start + values.length) = none

namespace LeadingValues

variable {α : Type} {f : Nat → Option α}

theorem cons {start most : Nat} {value : α} {rest : List α} (hvalue : f start = some value)
    (hrest : LeadingValues f (start + 1) most rest) :
    LeadingValues f start (most + 1) (value :: rest) where
  length_le := by simpa using hrest.length_le
  value_at := by
    intro i found hfound
    cases i with
    | zero =>
      obtain rfl := Option.some.inj hfound
      exact hvalue
    | succ i =>
      have := hrest.value_at i found hfound
      rwa [Nat.add_assoc, Nat.add_comm 1] at this
  stops := by
    intro hshort
    have := hrest.stops (Nat.lt_of_succ_lt_succ hshort)
    rwa [Nat.add_assoc, Nat.add_comm 1] at this

theorem takeWhile_range' (f : Nat → Option α) (start most : Nat) :
    LeadingValues f start most
      ((((List.range' start most).map f).takeWhile (·.isSome)).filterMap id) := by
  induction most generalizing start with
  | zero => exact ⟨Nat.le_refl 0, by simp, by simp⟩
  | succ most ih =>
    rw [List.range'_succ, List.map_cons]
    cases hvalue : f start with
    | none => exact ⟨Nat.zero_le _, by simp, fun _ => hvalue⟩
    | some value => exact cons hvalue (ih (start + 1))

theorem unique {start most : Nat} {values values' : List α} (h : LeadingValues f start most values)
    (h' : LeadingValues f start most values') : values = values' := by
  have hlength : ∀ {some others : List α}, LeadingValues f start most some →
      LeadingValues f start most others → some.length ≤ others.length := by
    intro some others hsome hothers
    by_contra hlt
    rw [Nat.not_le] at hlt
    have hnone := hothers.stops (hlt.trans_le hsome.length_le)
    have hvalue := hsome.value_at others.length _ (List.getElem?_eq_getElem hlt)
    exact absurd (hnone.symm.trans hvalue) (by simp)
  refine List.ext_getElem ((hlength h h').antisymm (hlength h' h)) ?_
  intro i hi hi'
  have hvalue := h.value_at i _ (List.getElem?_eq_getElem hi)
  have hvalue' := h'.value_at i _ (List.getElem?_eq_getElem hi')
  exact Option.some.inj (hvalue.symm.trans hvalue')

end LeadingValues

namespace DiscFolder

variable {folder : DiscFolder}

/-- The number of a title set in a file name, in two digits or more. -/
def setDigits (number : Nat) : String :=
  if number < 10 then "0" ++ toString number else toString number

def indexName (number : Nat) : String :=
  "VTS_" ++ setDigits number ++ "_0.IFO"

def partName (number part : Nat) : String :=
  "VTS_" ++ setDigits number ++ "_" ++ toString part ++ ".VOB"

/-- The video of a title set is split into the files `VTS_nn_1.VOB`, `VTS_nn_2.VOB` and so on up to
the first missing number, nine at most. -/
def ListsVideo (folder : DiscFolder) (number : Nat) : List Path → Prop :=
  LeadingValues (fun part => folder.files.lookup (partName number part)) 1 9

/-- The folder has a file of this name with this content. -/
def Holds (folder : DiscFolder) (name : String) (content : ByteArray) : Prop :=
  ∃ path, folder.files.lookup name = some path ∧ folder.tree.content path = .ok content

theorem zeroPadded_two (number : Nat) : Text.zeroPadded 2 number = setDigits number := by
  have hdigits : (toString number).length = (Nat.toDigits 10 number).length := by
    rw [Nat.toString_eq_repr, Nat.repr_eq_ofList_toDigits, String.length_ofList]
  have hpos : 0 < (Nat.toDigits 10 number).length := Nat.length_toDigits_pos
  have hone : (Nat.toDigits 10 number).length ≤ 1 ↔ number < 10 :=
    Nat.length_toDigits_le_iff (by decide) Nat.one_pos
  unfold Text.zeroPadded Text.padded setDigits
  split
  · have hmissing : 2 - (toString number).length = 1 := by omega
    rw [hmissing]
    rfl
  · have hmissing : 2 - (toString number).length = 0 := by omega
    rw [hmissing]
    exact String.empty_append

theorem titleSetFileName_eq (number : Nat) : titleSetFileName number = indexName number := by
  rw [titleSetFileName, zeroPadded_two]
  rfl

theorem videoFileName_eq (number part : Nat) : videoFileName number part = partName number part := by
  rw [videoFileName, zeroPadded_two]
  rfl

/-- The files that are joined are the files that the video is split into. -/
theorem listsVideo_videoFiles (folder : DiscFolder) (number : Nat) :
    folder.ListsVideo number (folder.videoFiles number) := by
  have hvalues := LeadingValues.takeWhile_range'
    (fun part => folder.files.lookup (videoFileName number part)) 1 maxVideoFiles
  simp only [videoFileName_eq] at hvalues
  unfold videoFiles
  simp only [videoFileName_eq]
  exact hvalues

theorem ListsVideo.videoFiles_eq {number : Nat} {paths : List Path}
    (h : folder.ListsVideo number paths) : folder.videoFiles number = paths :=
  (folder.listsVideo_videoFiles number).unique h

example (folder : DiscFolder) : videoFiles
    { folder with files := (List.range' 1 12).map fun part => (partName 7 part, ⟨partName 7 part⟩) } 7 =
      (List.range' 1 9).map fun part => ⟨partName 7 part⟩ :=
  rfl

theorem openFile_eq_ok {path : Path} {file : OpenFile} (h : folder.openFile path = .ok file) :
    ∃ content, folder.tree.content path = .ok content ∧ OpenFile.At content 0 file := by
  unfold openFile FileTree.openFile at h
  cases hnames : folder.tree.names path with
  | error cause => simp [hnames, bind, Except.bind, Except.mapError] at h
  | ok names =>
    cases hcontent : folder.tree.content path with
    | error cause => simp [hnames, hcontent, bind, Except.bind, Except.mapError] at h
    | ok content =>
      simp only [hnames, hcontent, bind, Except.bind, pure, Except.pure, Except.mapError,
        Except.ok.injEq] at h
      subst h
      exact ⟨content, rfl, rfl, rfl⟩

theorem exists_openFile {path : Path} {content : ByteArray}
    (h : folder.tree.content path = .ok content) :
    ∃ file, folder.openFile path = .ok file ∧ OpenFile.At content 0 file := by
  obtain ⟨node, hnode, -⟩ := except_bind_eq_ok_iff.1 h
  obtain ⟨names, hnames, -⟩ := except_bind_eq_ok_iff.1 hnode
  refine ⟨{ names, bytes := { content } }, ?_, rfl, rfl⟩
  simp only [openFile, FileTree.openFile, hnames, h, bind, Except.bind, pure, Except.pure,
    Except.mapError]

theorem Holds.unique {name : String} {content content' : ByteArray} (h : folder.Holds name content)
    (h' : folder.Holds name content') : content = content' := by
  obtain ⟨path, hpath, hcontent⟩ := h
  obtain ⟨path', hpath', hcontent'⟩ := h'
  obtain rfl := Option.some.inj (hpath.symm.trans hpath')
  exact Except.ok.inj (hcontent.symm.trans hcontent')

/-- An index file is read exactly if the folder has it and it is not too long. -/
theorem readIndex_eq_ok_iff {name : String} {data : ByteArray} :
    folder.readIndex name = .ok data ↔ folder.Holds name data ∧ data.size ≤ IndexFile.maxSize := by
  unfold readIndex Holds
  cases folder.files.lookup name with
  | none => simp
  | some path =>
    simp only [except_bind_eq_ok_iff, IndexFile.checkSize, Option.some.injEq]
    constructor
    · rintro ⟨file, hfile, hdata⟩
      obtain ⟨content, hcontent, hat⟩ := openFile_eq_ok hfile
      split at hdata
      · rename_i hsize
        obtain rfl := Except.ok.inj hdata
        exact ⟨⟨path, rfl, hcontent.trans (congrArg Except.ok hat.1.symm)⟩, hsize⟩
      · exact absurd hdata (by simp)
    · rintro ⟨⟨_, rfl, hcontent⟩, hsize⟩
      obtain ⟨file, hfile, rfl, -⟩ := exists_openFile hcontent
      exact ⟨file, hfile, if_pos hsize⟩

theorem readManager_eq_ok {manager : VideoManager} (h : folder.readManager = .ok manager) :
    ∃ data, folder.Holds "VIDEO_TS.IFO" data ∧ VideoManager.decode data = .ok manager := by
  obtain ⟨data, hread, hdecode⟩ := except_bind_eq_ok_iff.1 h
  exact ⟨data, (readIndex_eq_ok_iff.1 hread).1, hdecode⟩

theorem readTitleSet_eq_ok {number : Nat} {set : TitleSet} (h : folder.readTitleSet number = .ok set) :
    ∃ data, folder.Holds (indexName number) data ∧ TitleSet.decode data = .ok set := by
  obtain ⟨data, hread, hdecode⟩ := except_bind_eq_ok_iff.1 h
  rw [titleSetFileName_eq] at hread
  exact ⟨data, (readIndex_eq_ok_iff.1 hread).1, hdecode⟩

end DiscFolder

end OpticalDisc
