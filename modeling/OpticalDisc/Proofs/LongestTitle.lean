import Mathlib.Tactic
import OpticalDisc.Catalog

/-!
# The longest title

A catalog goes through its candidates once and keeps the longest title so far. The title that is left
beats the candidates before it and is beaten by none after it; where later titles beat equally long
ones, that is the last candidate whose key is greatest.
-/

namespace OpticalDisc

/-- The last place in a list at which a key is greatest. -/
def IsLastMax {α : Type} (key : α → Nat) (list : List α) (x : α) : Prop :=
  ∃ before after, list = before ++ x :: after ∧
    (∀ y ∈ before, key y ≤ key x) ∧ ∀ y ∈ after, key y < key x

namespace IsLastMax

variable {α β : Type} {key key' : α → Nat} {list : List α} {x y : α}

theorem mem (h : IsLastMax key list x) : x ∈ list := by
  obtain ⟨before, after, rfl, -, -⟩ := h
  exact List.mem_append_right _ List.mem_cons_self

theorem unique (hx : IsLastMax key list x) (hy : IsLastMax key list y) : x = y := by
  obtain ⟨before, after, hlist, hbefore, hafter⟩ := hx
  obtain ⟨before', after', rfl, hbefore', hafter'⟩ := hy
  rcases List.append_eq_append_iff.1 hlist with ⟨mid, rfl, hmid⟩ | ⟨mid, rfl, hmid⟩
  · cases mid with
    | nil => exact (List.cons.inj hmid).1.symm
    | cons z mid =>
      obtain ⟨rfl, rfl⟩ := List.cons.inj hmid
      have hle := hbefore y (by simp)
      have hlt := hafter' x (by simp)
      omega
  · cases mid with
    | nil => exact (List.cons.inj hmid).1
    | cons z mid =>
      obtain ⟨rfl, rfl⟩ := List.cons.inj hmid
      have hle := hbefore' x (by simp)
      have hlt := hafter y (by simp)
      omega

theorem congr (h : IsLastMax key list x)
    (hkeys : ∀ y ∈ list, ∀ z ∈ list, key y ≤ key z ↔ key' y ≤ key' z) :
    IsLastMax key' list x := by
  have hx := h.mem
  obtain ⟨before, after, rfl, hbefore, hafter⟩ := h
  refine ⟨before, after, rfl, ?_, ?_⟩
  · intro y hy
    exact (hkeys y (List.mem_append_left _ hy) x hx).1 (hbefore y hy)
  · intro y hy
    have hmem := List.mem_append_right before (List.mem_cons_of_mem x hy)
    exact lt_of_not_ge fun hle => (hafter y hy).not_ge ((hkeys x hx y hmem).2 hle)

theorem of_map {f : α → β} {key : β → Nat} {z : β} (h : IsLastMax key (list.map f) z) :
    ∃ x, z = f x ∧ IsLastMax (fun y => key (f y)) list x := by
  obtain ⟨before, after, hlist, hbefore, hafter⟩ := h
  obtain ⟨front, rest, rfl, rfl, hrest⟩ := List.map_eq_append_iff.1 hlist
  obtain ⟨x, tail, rfl, rfl, rfl⟩ := List.map_eq_cons_iff.1 hrest
  refine ⟨x, rfl, front, tail, rfl, ?_, ?_⟩
  · intro y hy
    exact hbefore (f y) (List.mem_map_of_mem hy)
  · intro y hy
    exact hafter (f y) (List.mem_map_of_mem hy)

end IsLastMax

namespace Catalog

variable {catalog : Catalog} {a b c title : Title}

/-- A title that replaces the titles before it and that none after it replaces. -/
def Leads (catalog : Catalog) (titles : List Title) (title : Title) : Prop :=
  ∃ before after, titles = before ++ title :: after ∧
    (∀ other ∈ before, catalog.replaces other title) ∧
    ∀ other ∈ after, ¬ catalog.replaces title other

theorem replaces_trans (hab : catalog.replaces a b) (hbc : catalog.replaces b c) :
    catalog.replaces a c := by
  unfold replaces at *
  cases hrule : catalog.tieRule <;> simp only [hrule, decide_eq_true_eq] at * <;> omega

theorem replaces_of_not (hba : ¬ catalog.replaces b a) (hbc : catalog.replaces b c) :
    catalog.replaces a c := by
  unfold replaces at *
  cases hrule : catalog.tieRule <;> simp only [hrule, decide_eq_true_eq] at * <;> omega

def longer (catalog : Catalog) (best? : Option Title) (title : Title) : Option Title :=
  match best? with
  | none => some title
  | some best => if catalog.replaces best title then some title else some best

theorem Leads.snoc {titles : List Title} {best : Title} (h : catalog.Leads titles best)
    (next : Title) :
    ∃ title, catalog.longer (some best) next = some title ∧
      catalog.Leads (titles ++ [next]) title := by
  obtain ⟨before, after, rfl, hbefore, hafter⟩ := h
  by_cases hnext : catalog.replaces best next
  · refine ⟨next, if_pos hnext, before ++ best :: after, [], rfl, ?_, by simp⟩
    intro other hother
    rcases List.mem_append.1 hother with hother | hother
    · exact replaces_trans (hbefore other hother) hnext
    · rcases List.mem_cons.1 hother with rfl | hother
      · exact hnext
      · exact replaces_of_not (hafter other hother) hnext
  · refine ⟨best, if_neg hnext, before, after ++ [next], by simp, hbefore, ?_⟩
    intro other hother
    rcases List.mem_append.1 hother with hother | hother
    · exact hafter other hother
    · rwa [List.mem_singleton.1 hother]

theorem foldl_longer_cases (titles : List Title) :
    (titles = [] ∧ titles.foldl catalog.longer none = none) ∨
      ∃ title, titles.foldl catalog.longer none = some title ∧ catalog.Leads titles title := by
  induction titles using List.reverseRecOn with
  | nil => exact .inl ⟨rfl, rfl⟩
  | append_singleton titles next ih =>
    right
    rw [List.foldl_append]
    rcases ih with ⟨rfl, hnone⟩ | ⟨best, hbest, hleads⟩
    · exact ⟨next, rfl, [], [], rfl, by simp, by simp⟩
    · rw [hbest]
      exact hleads.snoc next

/-- The longest title leads the candidates; there is none only without candidates. -/
theorem longest?_cases (catalog : Catalog) :
    (catalog.candidateTitles = [] ∧ catalog.longest? = none) ∨
      ∃ title, catalog.longest? = some title ∧ catalog.Leads catalog.candidateTitles title :=
  foldl_longer_cases catalog.candidateTitles

theorem mem_candidateTitles_of_longest? (h : catalog.longest? = some title) :
    title ∈ catalog.candidateTitles := by
  rcases catalog.longest?_cases with ⟨-, hnone⟩ | ⟨best, hbest, before, after, hlist, -, -⟩
  · rw [h] at hnone
    simp at hnone
  · obtain rfl := Option.some.inj (h.symm.trans hbest)
    rw [hlist]
    exact List.mem_append_right _ List.mem_cons_self

theorem exists_getElem?_of_select {choice : Option Nat} (h : catalog.select choice = .ok title) :
    ∃ i, catalog.titles[i]? = some title ∧ ∀ asked, choice = some asked → asked = i := by
  cases choice with
  | some asked =>
    simp only [select] at h
    cases hasked : catalog.titles[asked]? with
    | none => simp [hasked] at h
    | some found =>
      simp only [hasked, Except.ok.injEq] at h
      exact ⟨asked, h ▸ hasked, fun _ heq => (Option.some.inj heq).symm⟩
  | none =>
    simp only [select] at h
    cases hfound : catalog.main?.or catalog.longest? with
    | none => simp [hfound] at h
    | some found =>
      simp only [hfound, Except.ok.injEq] at h
      subst h
      obtain ⟨i, hi⟩ : ∃ i, catalog.titles[i]? = some found := by
        rcases Option.or_eq_some_iff.1 hfound with hmain | ⟨-, hlongest⟩
        · simp only [main?, Option.bind_eq_bind, Option.bind_eq_some_iff] at hmain
          obtain ⟨i, -, hi⟩ := hmain
          exact ⟨i, hi⟩
        · obtain ⟨i, -, hi⟩ := List.mem_filterMap.1 (mem_candidateTitles_of_longest? hlongest)
          exact ⟨i, hi⟩
      exact ⟨i, hi, by simp⟩

theorem Leads.isLastMax {titles : List Title} (hrule : catalog.tieRule = .last)
    (h : catalog.Leads titles title) : IsLastMax catalog.precision.key titles title := by
  obtain ⟨before, after, rfl, hbefore, hafter⟩ := h
  simp only [replaces, hrule, decide_eq_true_eq, not_le] at hbefore hafter
  exact ⟨before, after, rfl, hbefore, hafter⟩

end Catalog

end OpticalDisc
