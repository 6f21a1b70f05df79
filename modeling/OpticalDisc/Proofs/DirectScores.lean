import OpticalDisc.Location
import OpticalDisc.Proofs.Files.FileExtensions

/-!
# Scores of direct inputs

A location with a `bluray:` mark at its start is opened with the mark taken off, so its name should
score nothing, while any other name scores by its extension. The score looks for the mark anywhere,
so a name of an image that has the mark further in loses its score, although nothing is taken off.
-/

namespace OpticalDisc

theorem occursIn_iff {part text : List Char} : occursIn part text = true ↔ part <:+: text := by
  induction text with
  | nil => simp [occursIn]
  | cons c rest ih =>
    rw [occursIn, Bool.or_eq_true, List.isPrefixOf_iff_prefix, ih, List.infix_cons_iff]

theorem afterMark?_eq_some_iff {mark text rest : List Char} :
    afterMark? mark text = some rest ↔
      ∃ head, text = head ++ rest ∧ head.map Char.toLower = mark := by
  unfold afterMark?
  constructor
  · intro h
    split_ifs at h with hmark
    obtain rfl := Option.some_inj.1 h
    exact ⟨text.take mark.length, (List.take_append_drop mark.length text).symm, hmark⟩
  · rintro ⟨head, rfl, rfl⟩
    rw [List.length_map, List.take_left, List.drop_left, if_pos rfl]

namespace Location

/-- The name starts with the `bluray:` mark, in upper or lower case. -/
def StartsWithMark (name : String) : Prop :=
  ∃ mark rest, name.toList = mark ++ rest ∧ mark.map Char.toLower = blurayMark

/-- The `bluray:` mark stands somewhere in the name, in upper or lower case. -/
def BearsMark (name : String) : Prop :=
  ∃ front mark rest, name.toList = front ++ mark ++ rest ∧ mark.map Char.toLower = blurayMark

/-- The name is that of a Blu-ray disc whose path is the name without its start. -/
def StripsStart (tree : FileTree) (name : String) : Prop :=
  ∃ mark rest, name.toList = mark ++ rest ∧ mark ≠ [] ∧
    ofText tree name = ⟨.bluray, ⟨String.ofList rest⟩⟩

variable {tree : FileTree} {name : String}

theorem startsWithMark_iff :
    StartsWithMark name ↔ (afterMark? blurayMark name.toList).isSome = true := by
  simp only [StartsWithMark, Option.isSome_iff_exists, afterMark?_eq_some_iff]
  exact exists_comm

theorem bearsMark_iff :
    BearsMark name ↔ occursIn blurayMark (name.toList.map Char.toLower) = true := by
  rw [occursIn_iff]
  constructor
  · rintro ⟨front, mark, rest, hname, hmark⟩
    exact ⟨front.map Char.toLower, rest.map Char.toLower, by simp [hname, hmark]⟩
  · rintro ⟨front, rest, h⟩
    obtain ⟨behind, tail, hname, hbehind, -⟩ := List.map_eq_append_iff.1 h.symm
    obtain ⟨start, mark, rfl, -, hmark⟩ := List.map_eq_append_iff.1 hbehind
    exact ⟨start, mark, tail, hname, hmark⟩

instance : Decidable (StartsWithMark name) := decidable_of_iff' _ startsWithMark_iff

instance : Decidable (BearsMark name) := decidable_of_iff' _ bearsMark_iff

theorem StartsWithMark.bearsMark (h : StartsWithMark name) : BearsMark name := by
  obtain ⟨mark, rest, hname, hmark⟩ := h
  exact ⟨[], mark, rest, hname, hmark⟩

/-- Neither mark is a start of the other one, so no name starts with both. -/
theorem StartsWithMark.afterMark?_dvdMark (h : StartsWithMark name) :
    afterMark? dvdMark name.toList = none := by
  obtain ⟨mark, rest, hname, hmark⟩ := h
  rw [Option.eq_none_iff_forall_ne_some]
  intro behind hbehind
  obtain ⟨head, hhead, hdvd⟩ := afterMark?_eq_some_iff.1 hbehind
  have hblurayMark : blurayMark <+: name.toList.map Char.toLower :=
    ⟨rest.map Char.toLower, by rw [hname, List.map_append, hmark]⟩
  have hdvdMark : dvdMark <+: name.toList.map Char.toLower :=
    ⟨behind.map Char.toLower, by rw [hhead, List.map_append, hdvd]⟩
  rcases List.prefix_or_prefix_of_prefix hblurayMark hdvdMark with hstart | hstart
  · exact absurd hstart (by decide)
  · exact absurd hstart (by decide)

theorem stripsStart_iff : StripsStart tree name ↔ StartsWithMark name := by
  constructor
  · rintro ⟨mark, rest, hname, hmark, h⟩
    rw [startsWithMark_iff]
    unfold ofText at h
    split at h
    · cases h
    · split at h
      · rename_i hbehind
        rw [hbehind, Option.isSome_some]
      · -- the path is the whole name
        obtain ⟨-, hpath⟩ := Location.mk.inj h
        have hwhole : name.toList = rest := by
          rw [Path.mk.inj hpath, String.toList_ofList]
        rw [hwhole] at hname
        exact absurd (List.append_left_eq_self.1 hname.symm) hmark
  · intro h
    have hdvd := h.afterMark?_dvdMark
    obtain ⟨mark, rest, hname, hmark⟩ := h
    refine ⟨mark, rest, hname, ?_, ?_⟩
    · rintro rfl
      exact absurd hmark (by decide)
    · rw [ofText, hdvd, afterMark?_eq_some_iff.2 ⟨mark, hname, hmark⟩]

end Location

open Location

/-- The name is that of a Blu-ray image or index, by its extension in upper or lower case. -/
def NamesImage (name : String) : Prop :=
  ∃ extension, Path.HasExtension name.toList extension ∧
    (extension.map Char.toLower = "bdmv".toList ∨ extension.map Char.toLower = "iso".toList)

/-- The score by the start of a name: nothing if the start is taken off, and otherwise 50 for an image
and nothing for any other name. -/
structure ScoresByStart (tree : FileTree) (name : String) (score : Nat) : Prop where
  stripped : StripsStart tree name → score = 0
  image : ¬ StripsStart tree name → NamesImage name → score = 50
  other : ¬ StripsStart tree name → ¬ NamesImage name → score = 0

variable {tree : FileTree} {name : String}

theorem namesImage_iff :
    NamesImage name ↔ ∃ extension, (Path.mk name).extension? = some extension ∧
      blurayImageExtensions.contains (String.ofList (extension.toList.map Char.toLower)) =
        true := by
  simp only [Path.extension?_eq_some_iff, blurayImageExtensions, List.contains_eq_mem,
    List.mem_cons, List.not_mem_nil, or_false, String.ofList_eq, decide_eq_true_eq]
  constructor
  · rintro ⟨extension, hextension, hlower⟩
    refine ⟨String.ofList extension, ?_⟩
    rw [String.toList_ofList]
    exact ⟨hextension, hlower⟩
  · rintro ⟨extension, h⟩
    exact ⟨extension.toList, h⟩

theorem directScore_of_mark (h : BearsMark name) : directScore name = 0 := by
  rw [directScore, if_pos (bearsMark_iff.1 h)]

theorem directScore_of_image (h : ¬ BearsMark name) (himage : NamesImage name) :
    directScore name = 50 := by
  obtain ⟨extension, hextension, hcontains⟩ := namesImage_iff.1 himage
  rw [bearsMark_iff] at h
  simp only [directScore, if_neg h, hextension, if_pos hcontains, extensionScore]

theorem directScore_of_other (h : ¬ NamesImage name) : directScore name = 0 := by
  rw [namesImage_iff] at h
  unfold directScore
  split_ifs
  · rfl
  · split
    · rename_i extension hextension
      exact if_neg fun hcontains => h ⟨extension, hextension, hcontains⟩
    · rfl

theorem directScore_eq_image_iff :
    directScore name = 50 ↔ ¬ BearsMark name ∧ NamesImage name := by
  by_cases hmark : BearsMark name
  · simp [directScore_of_mark hmark, hmark]
  · by_cases himage : NamesImage name
    · simp [directScore_of_image hmark himage, hmark, himage]
    · simp [directScore_of_other himage, himage]

theorem directScore_eq_zero_iff :
    directScore name = 0 ↔ BearsMark name ∨ ¬ NamesImage name := by
  by_cases hmark : BearsMark name
  · simp [directScore_of_mark hmark, hmark]
  · by_cases himage : NamesImage name
    · simp [directScore_of_image hmark himage, hmark, himage]
    · simp [directScore_of_other himage, himage]

/-- The start of a name is taken off where it is the mark. A name scores 50 if it is that of an image
and the mark stands nowhere in it, and nothing otherwise. This is the score by its start, unless the
name is that of an image in which the mark stands only further in. -/
theorem directScore_byStart (tree : FileTree) (name : String) :
    (StripsStart tree name ↔ StartsWithMark name) ∧
      (directScore name = 50 ↔ ¬ BearsMark name ∧ NamesImage name) ∧
      (directScore name = 0 ↔ BearsMark name ∨ ¬ NamesImage name) ∧
      (ScoresByStart tree name (directScore name) ↔
        (BearsMark name → NamesImage name → StartsWithMark name)) := by
  refine ⟨stripsStart_iff, directScore_eq_image_iff, directScore_eq_zero_iff, ?_, ?_⟩
  · intro h hmark himage
    by_contra hstart
    have himageScore := h.image (stripsStart_iff.not.2 hstart) himage
    rw [directScore_of_mark hmark] at himageScore
    cases himageScore
  · intro h
    exact
      { stripped := fun hstart => directScore_of_mark (stripsStart_iff.1 hstart).bearsMark
        image := fun hstart himage =>
          directScore_of_image (fun hmark => hstart (stripsStart_iff.2 (h hmark himage))) himage
        other := fun _ himage => directScore_of_other himage }

/-- An image in the directory `disc` whose name has the mark in it scores nothing, although nothing is
taken off its start. -/
theorem directScore_markInside :
    ¬ ScoresByStart { root := .directory [] } "disc/bluray:x.iso"
      (directScore "disc/bluray:x.iso") := by
  intro h
  have hstart : ¬ StripsStart { root := .directory [] } "disc/bluray:x.iso" :=
    stripsStart_iff.not.2 (by decide)
  have hname : Path.IsName "bluray:x.iso".toList := ⟨by decide, by decide, by decide, by decide⟩
  have himage : NamesImage "disc/bluray:x.iso" :=
    ⟨"iso".toList, ⟨"bluray:x".toList, .behind "disc".toList hname .nil, by decide, by decide⟩,
      .inr (by decide)⟩
  have hscore := h.image hstart himage
  rw [directScore_of_mark (by decide)] at hscore
  cases hscore

end OpticalDisc
