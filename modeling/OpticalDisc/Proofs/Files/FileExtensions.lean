import Mathlib.Data.List.TakeWhile
import OpticalDisc.Proofs.Files.PathPieces

/-!
# File names and extensions of paths

The file name of a path is its last part, if that is a name. It may have slashes behind it, also with
single dots between them, which do not count. Its extension stands behind its last dot, unless that
dot is its first character.
-/

namespace OpticalDisc

namespace Path

/-- A piece that is the name of a file or a directory. -/
structure IsName (piece : List Char) : Prop where
  notMem : '/' ∉ piece
  ne_empty : piece ≠ []
  ne_here : piece ≠ ['.']
  ne_up : piece ≠ ['.', '.']

/-- What does not count behind the last part: slashes, each of them alone or before a single dot. -/
inductive Trailing : List Char → Prop
  | nil : Trailing []
  | slash {rest : List Char} : Trailing rest → Trailing ('/' :: rest)
  | here {rest : List Char} : Trailing rest → Trailing ('/' :: '.' :: rest)

/-- The last part of a path is a name: all of the path, or what stands behind one of its slashes. -/
inductive FinalName : List Char → List Char → Prop
  | first {name tail : List Char} : IsName name → Trailing tail → FinalName (name ++ tail) name
  | behind (front : List Char) {name tail : List Char} : IsName name → Trailing tail →
      FinalName (front ++ '/' :: (name ++ tail)) name

/-- The extension is what stands behind the last dot of the name, which has a stem before that dot. -/
inductive HasExtension (text extension : List Char) : Prop
  | mk (stem : List Char) : FinalName text (stem ++ '.' :: extension) → stem ≠ [] →
      '.' ∉ extension → HasExtension text extension

theorem trailing_iff {tail : List Char} :
    Trailing tail ↔ ∃ pieces : List (List Char), tail = pieces.flatMap ('/' :: ·) ∧
      ∀ piece ∈ pieces, piece = [] ∨ piece = ['.'] := by
  constructor
  · intro h
    induction h with
    | nil => exact ⟨[], rfl, by simp⟩
    | slash _ ih =>
      obtain ⟨pieces, rfl, hpieces⟩ := ih
      exact ⟨[] :: pieces, by simp, List.forall_mem_cons.2 ⟨.inl rfl, hpieces⟩⟩
    | here _ ih =>
      obtain ⟨pieces, rfl, hpieces⟩ := ih
      exact ⟨['.'] :: pieces, by simp, List.forall_mem_cons.2 ⟨.inr rfl, hpieces⟩⟩
  · rintro ⟨pieces, rfl, hpieces⟩
    induction pieces with
    | nil => exact .nil
    | cons piece pieces ih =>
      obtain ⟨hpiece, hrest⟩ := List.forall_mem_cons.1 hpieces
      have htrailing := ih hrest
      rcases hpiece with rfl | rfl
      · exact .slash htrailing
      · exact .here htrailing

/-- A path that begins with a name has that name as its first piece, and only pieces that do not count
behind it. -/
theorem splitOn_eq_name_iff {text name : List Char} (hname : IsName name) :
    (∃ more, text.splitOn '/' = name :: more ∧ ∀ piece ∈ more, piece = [] ∨ piece = ['.']) ↔
      ∃ tail, text = name ++ tail ∧ Trailing tail := by
  constructor
  · rintro ⟨more, hsplit, hmore⟩
    exact ⟨_, (splitOn_eq_cons_iff.1 hsplit).1, trailing_iff.2 ⟨more, rfl, hmore⟩⟩
  · rintro ⟨tail, rfl, htail⟩
    obtain ⟨more, rfl, hmore⟩ := trailing_iff.1 htail
    refine ⟨more, splitOn_eq_cons_iff.2 ⟨rfl, hname.notMem, fun piece hmem => ?_⟩, hmore⟩
    rcases hmore piece hmem with rfl | rfl
    · exact List.not_mem_nil
    · decide

theorem finalName_iff {text name : List Char} :
    FinalName text name ↔ IsName name ∧ ∃ pieces more,
      text.splitOn '/' = pieces ++ name :: more ∧ ∀ piece ∈ more, piece = [] ∨ piece = ['.'] := by
  constructor
  · rintro (⟨hname, htail⟩ | ⟨front, hname, htail⟩)
    · obtain ⟨more, hsplit, hmore⟩ := (splitOn_eq_name_iff hname).2 ⟨_, rfl, htail⟩
      exact ⟨hname, [], more, hsplit, hmore⟩
    · obtain ⟨more, hsplit, hmore⟩ := (splitOn_eq_name_iff hname).2 ⟨_, rfl, htail⟩
      exact ⟨hname, front.splitOn '/', more,
        splitOn_eq_append_iff.2 (.inr ⟨front, _, rfl, rfl, hsplit⟩), hmore⟩
  · rintro ⟨hname, pieces, more, hsplit, hmore⟩
    rcases splitOn_eq_append_iff.1 hsplit with ⟨-, hfirst⟩ | ⟨front, rest, rfl, -, hlast⟩
    · obtain ⟨tail, rfl, htail⟩ := (splitOn_eq_name_iff hname).1 ⟨more, hfirst, hmore⟩
      exact .first hname htail
    · obtain ⟨tail, rfl, htail⟩ := (splitOn_eq_name_iff hname).1 ⟨more, hlast, hmore⟩
      exact .behind front hname htail

theorem componentOf?_ofList (piece : List Char) :
    componentOf? (String.ofList piece) =
      if piece = [] ∨ piece = ['.'] then none
      else if piece = ['.', '.'] then some .up
      else some (.name (String.ofList piece)) := by
  have hhere : String.ofList piece = "." ↔ piece = ['.'] := String.ofList_eq
  have hup : String.ofList piece = ".." ↔ piece = ['.', '.'] := String.ofList_eq
  simp only [componentOf?, String.ofList_eq_empty_iff, hhere, hup]

theorem componentOf?_eq_none_iff {piece : List Char} :
    componentOf? (String.ofList piece) = none ↔ piece = [] ∨ piece = ['.'] := by
  rw [componentOf?_ofList]
  split_ifs with hnone <;> simp [hnone]

theorem componentOf?_eq_name_iff {piece : List Char} (hslash : '/' ∉ piece) {name : String} :
    componentOf? (String.ofList piece) = some (.name name) ↔
      piece = name.toList ∧ IsName piece := by
  rw [componentOf?_ofList]
  split_ifs with hnone hup
  · refine iff_of_false (by simp) fun h => ?_
    exact hnone.elim h.2.ne_empty h.2.ne_here
  · exact iff_of_false (by simp) fun h => h.2.ne_up hup
  · rw [not_or] at hnone
    rw [Option.some_inj, Component.name.injEq, String.ofList_eq]
    exact (and_iff_left ⟨hslash, hnone.1, hnone.2, hup⟩).symm

theorem fileName?_eq_findSome? {path : Path} {name : String} :
    path.fileName? = some name ↔ (path.text.toList.splitOn '/').reverse.findSome?
      (componentOf? ∘ String.ofList) = some (.name name) := by
  have hlast : path.fileName? = some name ↔ path.components.getLast? = some (.name name) := by
    unfold fileName?
    split <;> simp_all
  rw [hlast, ← List.findSome?_map, List.map_reverse, ← pieces_eq, ← List.getLast?_filterMap,
    components]
  split_ifs
  · rw [List.getLast?_cons]
    cases (path.pieces.filterMap componentOf?).getLast? <;> simp
  · rw [List.getLast?_cons]
    cases (path.pieces.filterMap componentOf?).getLast? <;> simp
  · rfl

theorem fileName?_eq_some_iff {path : Path} {name : String} :
    path.fileName? = some name ↔ FinalName path.text.toList name.toList := by
  rw [fileName?_eq_findSome?, finalName_iff, List.findSome?_eq_some_iff]
  constructor
  · rintro ⟨skipped, piece, front, hsplit, hpiece, hskipped⟩
    have hsplit := List.reverse_eq_iff.1 hsplit
    rw [List.reverse_append, List.reverse_cons, List.append_assoc, List.singleton_append] at hsplit
    have hmem : piece ∈ path.text.toList.splitOn '/' := by simp [hsplit]
    obtain ⟨rfl, hname⟩ := (componentOf?_eq_name_iff (notMem_of_mem_splitOn hmem)).1 hpiece
    exact ⟨hname, front.reverse, skipped.reverse, hsplit, fun piece hmem =>
      componentOf?_eq_none_iff.1 (hskipped piece (List.mem_reverse.1 hmem))⟩
  · rintro ⟨hname, pieces, more, hsplit, hmore⟩
    refine ⟨more.reverse, name.toList, pieces.reverse, ?_, ?_, fun piece hmem => ?_⟩
    · simp [hsplit]
    · exact (componentOf?_eq_name_iff hname.notMem).2 ⟨rfl, hname⟩
    · exact componentOf?_eq_none_iff.2 (hmore piece (List.mem_reverse.1 hmem))

theorem extension?_of_dot {path : Path} {name : String} {stem after : List Char}
    (hfile : path.fileName? = some name) (hname : name.toList = stem ++ '.' :: after)
    (hdot : '.' ∉ after) :
    path.extension? = if stem = [] then none else some (String.ofList after) := by
  have hreversed : name.toList.reverse = after.reverse ++ '.' :: stem.reverse := by simp [hname]
  have hpass : ∀ c ∈ after.reverse, decide (c ≠ '.') = true := fun c hc =>
    decide_eq_true fun heq => hdot (heq ▸ List.mem_reverse.1 hc)
  have hafter : (after.reverse ++ '.' :: stem.reverse).takeWhile (fun c => decide (c ≠ '.')) =
      after.reverse := by
    rw [List.takeWhile_append_of_pos hpass, List.takeWhile_cons_of_neg (by simp), List.append_nil]
  simp only [extension?, hfile, Option.bind_eq_bind, Option.bind_some, hreversed, hafter,
    List.drop_left]
  by_cases hstem : stem = []
  · subst hstem
    rfl
  · have hne : stem.reverse ≠ [] := by simpa using hstem
    obtain ⟨c, rest, hrest⟩ := List.exists_cons_of_ne_nil hne
    simp [hstem, hrest]

theorem extension?_of_notMem {path : Path} {name : String} (hfile : path.fileName? = some name)
    (hdot : '.' ∉ name.toList) : path.extension? = none := by
  have hafter : name.toList.reverse.takeWhile (fun c => decide (c ≠ '.')) =
      name.toList.reverse := by
    refine List.takeWhile_eq_self_iff.2 fun c hc => decide_eq_true fun heq => ?_
    exact hdot (heq ▸ List.mem_reverse.1 hc)
  simp only [extension?, hfile, Option.bind_eq_bind, Option.bind_some, hafter, List.drop_length]

theorem extension?_eq_some_iff {path : Path} {extension : String} :
    path.extension? = some extension ↔ HasExtension path.text.toList extension.toList := by
  constructor
  · intro h
    obtain ⟨name, hfile, -⟩ := Option.bind_eq_some_iff.1 h
    by_cases hdot : '.' ∈ name.toList
    · -- the last dot is the first one of the reversed name
      obtain ⟨after, stem, hreversed, hafter⟩ :=
        List.eq_append_cons_of_mem (List.mem_reverse.2 hdot)
      have hname := List.reverse_eq_iff.1 hreversed
      rw [List.reverse_append, List.reverse_cons, List.append_assoc, List.singleton_append]
        at hname
      have hafter : '.' ∉ after.reverse := fun hmem => hafter (List.mem_reverse.1 hmem)
      rw [extension?_of_dot hfile hname hafter] at h
      split_ifs at h with hstem
      obtain rfl := Option.some_inj.1 h
      rw [String.toList_ofList]
      exact ⟨stem.reverse, hname ▸ fileName?_eq_some_iff.1 hfile, hstem, hafter⟩
    · rw [extension?_of_notMem hfile hdot] at h
      cases h
  · rintro ⟨stem, hname, hstem, hdot⟩
    rw [← String.toList_ofList (l := stem ++ '.' :: extension.toList)] at hname
    rw [extension?_of_dot (fileName?_eq_some_iff.2 hname) String.toList_ofList hdot,
      if_neg hstem, String.ofList_toList]

end Path

end OpticalDisc
