import Mathlib.Data.String.Basic
import Mathlib.Tactic
import OpticalDisc.Files.Path

/-!
# The pieces of a path

A path is split into pieces by a scan over the text in its UTF-8 encoding. The pieces are those of
the list of characters, split at its slashes.
-/

namespace OpticalDisc

theorem extract_piece (front piece rest : List Char) :
    String.Pos.Raw.extract (String.ofList (front ++ piece ++ rest)) ⟨String.utf8Len front⟩
      ⟨String.utf8Len (front ++ piece)⟩ = String.ofList piece := by
  rw [String.utf8Len_append]
  exact String.extract_of_valid front piece rest

/-- The scan stands behind `piece`, which began behind `front`, and has found the pieces `done`. -/
theorem splitOnAux_slash (front piece rest : List Char) (done : List String) :
    String.splitOnAux (String.ofList (front ++ piece ++ rest)) "/" ⟨String.utf8Len front⟩
        ⟨String.utf8Len (front ++ piece)⟩ 0 done =
      done.reverse ++ (rest.splitOnPPrepend (· == '/') piece.reverse).map String.ofList := by
  induction rest generalizing front piece done with
  | nil =>
    have hend := (String.atEnd_of_valid (front ++ piece) []).2 rfl
    rw [String.splitOnAux, if_pos hend, extract_piece]
    simp
  | cons c rest ih =>
    have hend : ¬ String.Pos.Raw.atEnd (String.ofList (front ++ piece ++ c :: rest))
        ⟨String.utf8Len (front ++ piece)⟩ := by
      rw [String.atEnd_of_valid]
      exact List.cons_ne_nil c rest
    have hget := String.get_of_valid (front ++ piece) (c :: rest)
    have hnext := String.next_of_valid (front ++ piece) c rest
    have hlength : String.utf8Len (front ++ piece) + c.utf8Size =
        String.utf8Len (front ++ piece ++ [c]) := by
      rw [String.utf8Len_append _ [c], String.utf8Len_cons, String.utf8Len_nil, Nat.zero_add]
    have htext : front ++ piece ++ c :: rest = front ++ piece ++ [c] ++ rest := by simp
    have hslash : String.Pos.Raw.get "/" 0 = '/' := rfl
    rw [String.splitOnAux, if_neg hend, hget, hslash, List.splitOnPPrepend_cons_eq_if]
    simp only [List.headD_cons, hnext]
    by_cases hc : (c == '/') = true
    · -- the piece ends, and the next one begins behind the slash
      obtain rfl : c = '/' := by simpa using hc
      have hslashEnd : String.Pos.Raw.atEnd "/" (String.Pos.Raw.next "/" 0) = true := rfl
      have hback : (⟨String.utf8Len (front ++ piece) + '/'.utf8Size⟩ : String.Pos.Raw).unoffsetBy
          (String.Pos.Raw.next "/" 0) = ⟨String.utf8Len (front ++ piece)⟩ := rfl
      have htail := ih (front ++ piece ++ ['/']) [] (String.ofList piece :: done)
      rw [if_pos hc, if_pos hslashEnd, if_pos hc, hback, extract_piece, hlength, htext]
      rw [List.append_nil] at htail
      simpa using htail
    · have hback : (⟨String.utf8Len (front ++ piece)⟩ : String.Pos.Raw).unoffsetBy 0 =
        ⟨String.utf8Len (front ++ piece)⟩ := rfl
      have htail := ih front (piece ++ [c]) done
      rw [if_neg hc, if_neg hc, hback, hnext, hlength, htext, List.append_assoc front piece [c],
        htail, List.reverse_append]
      rfl

/-- The pieces of a path are the texts between its slashes. -/
theorem Path.pieces_eq (path : Path) :
    path.pieces = (path.text.toList.splitOn '/').map String.ofList := by
  have hsplit := splitOnAux_slash [] [] path.text.toList []
  simpa [Path.pieces, String.splitOn, List.splitOn_eq_splitOnP] using hsplit

theorem intercalate_cons (a : Char) (piece : List Char) (more : List (List Char)) :
    [a].intercalate (piece :: more) = piece ++ more.flatMap (a :: ·) := by
  induction more generalizing piece with
  | nil => simp
  | cons next more ih => simp [List.intercalate_cons_cons, ih]

theorem notMem_of_mem_splitOn {a : Char} {text piece : List Char} (h : piece ∈ text.splitOn a) :
    a ∉ piece := by
  induction text generalizing piece with
  | nil =>
    obtain rfl : piece = [] := by simpa using h
    exact List.not_mem_nil
  | cons c text ih =>
    rw [List.splitOn_cons_eq_if_modifyHead] at h
    split at h
    · rcases List.mem_cons.1 h with rfl | h
      · exact List.not_mem_nil
      · exact ih h
    · rename_i hc
      cases hsplit : text.splitOn a with
      | nil => exact absurd hsplit (List.splitOn_ne_nil a text)
      | cons first more =>
        rw [hsplit, List.modifyHead_cons] at h
        rcases List.mem_cons.1 h with rfl | h
        · have hfirst := ih (hsplit ▸ List.mem_cons_self)
          have hne : a ≠ c := fun heq => hc (beq_iff_eq.2 heq.symm)
          exact List.not_mem_cons_of_ne_of_not_mem hne hfirst
        · exact ih (hsplit ▸ List.mem_cons_of_mem first h)

theorem splitOn_eq_cons_iff {a : Char} {text piece : List Char} {more : List (List Char)} :
    text.splitOn a = piece :: more ↔
      text = piece ++ more.flatMap (a :: ·) ∧ a ∉ piece ∧ ∀ other ∈ more, a ∉ other := by
  rw [← intercalate_cons, ← List.forall_mem_cons (p := (a ∉ ·))]
  constructor
  · intro h
    refine ⟨?_, fun other hmem => notMem_of_mem_splitOn (h ▸ hmem)⟩
    rw [← h, List.intercalate_splitOn]
  · rintro ⟨rfl, hmem⟩
    exact List.splitOn_intercalate a hmem (List.cons_ne_nil piece more)

theorem splitOn_eq_append_iff {a : Char} {text last : List Char} {pieces more : List (List Char)} :
    text.splitOn a = pieces ++ last :: more ↔
      (pieces = [] ∧ text.splitOn a = last :: more) ∨
        ∃ front rest, text = front ++ a :: rest ∧ front.splitOn a = pieces ∧
          rest.splitOn a = last :: more := by
  constructor
  · intro h
    cases pieces with
    | nil => exact .inl ⟨rfl, h⟩
    | cons piece pieces =>
      rw [List.cons_append] at h
      obtain ⟨rfl, hpiece, hmem⟩ := splitOn_eq_cons_iff.1 h
      rw [List.forall_mem_append, List.forall_mem_cons] at hmem
      obtain ⟨hpieces, hlast, hmore⟩ := hmem
      exact .inr ⟨piece ++ pieces.flatMap (a :: ·), last ++ more.flatMap (a :: ·), by simp,
        splitOn_eq_cons_iff.2 ⟨rfl, hpiece, hpieces⟩, splitOn_eq_cons_iff.2 ⟨rfl, hlast, hmore⟩⟩
  · rintro (⟨rfl, h⟩ | ⟨front, rest, rfl, hfront, hrest⟩)
    · exact h
    · rw [List.splitOn_append_cons_self, hfront, hrest]

end OpticalDisc
