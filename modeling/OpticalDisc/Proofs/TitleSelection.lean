import OpticalDisc.Proofs.LongestTitle

/-!
# The title that a catalog selects

Every choice on every catalog comes to one `Outcome`: the title that was asked for, the main title,
the longest candidate or the reason why there is none. Candidates may stand in any order, more than
once, or outside of the catalog; which of several longest ones is meant depends on the order in which
they are looked at, and on the rule for equally long ones.
-/

namespace OpticalDisc

def IsFirstMax {α : Type} (key : α → Nat) (list : List α) (x : α) : Prop :=
  ∃ before after, list = before ++ x :: after ∧
    (∀ y ∈ before, key y < key x) ∧ ∀ y ∈ after, key y ≤ key x

section FirstMax

variable {α β : Type} {key : α → Nat} {list : List α} {x y : α}

theorem isLastMax_reverse_iff : IsLastMax key list.reverse x ↔ IsFirstMax key list x := by
  constructor
  · rintro ⟨before, after, hlist, hbefore, hafter⟩
    refine ⟨after.reverse, before.reverse, ?_, by simpa using hafter, by simpa using hbefore⟩
    rw [← List.reverse_reverse list, hlist]
    simp
  · rintro ⟨before, after, rfl, hbefore, hafter⟩
    exact ⟨after.reverse, before.reverse, by simp, by simpa using hafter, by simpa using hbefore⟩

theorem IsFirstMax.unique (hx : IsFirstMax key list x) (hy : IsFirstMax key list y) : x = y :=
  (isLastMax_reverse_iff.2 hx).unique (isLastMax_reverse_iff.2 hy)

theorem IsFirstMax.of_map {f : α → β} {key : β → Nat} {z : β}
    (h : IsFirstMax key (list.map f) z) :
    ∃ x, z = f x ∧ IsFirstMax (fun y => key (f y)) list x := by
  rw [← isLastMax_reverse_iff, ← List.map_reverse] at h
  obtain ⟨x, rfl, hx⟩ := h.of_map
  exact ⟨x, rfl, isLastMax_reverse_iff.1 hx⟩

theorem IsLastMax.map (f : α → β) (key : β → Nat) (h : IsLastMax (fun y => key (f y)) list x) :
    IsLastMax key (list.map f) (f x) := by
  obtain ⟨before, after, rfl, hbefore, hafter⟩ := h
  exact ⟨before.map f, after.map f, by simp, by simpa using hbefore, by simpa using hafter⟩

theorem IsFirstMax.map (f : α → β) (key : β → Nat) (h : IsFirstMax (fun y => key (f y)) list x) :
    IsFirstMax key (list.map f) (f x) := by
  rw [← isLastMax_reverse_iff] at h ⊢
  rw [← List.map_reverse]
  exact h.map f key

end FirstMax

namespace Catalog

variable {catalog : Catalog} {title : Title} {i : Nat}

/-- The positions of candidates that are in the catalog, in the order in which the longest one is
looked for. -/
def listedCandidates (catalog : Catalog) : List Nat :=
  catalog.candidates.filter (· < catalog.titles.size)

/-- What titles are compared by, at a position of the catalog: their ticks of a 90 kHz clock, or the
whole seconds of these. -/
def keyAt (catalog : Catalog) (i : Nat) : Nat :=
  let ticks := catalog.titles[i]?.elim 0 Title.duration
  match catalog.precision with
  | .ticks => ticks
  | .wholeSeconds => ticks / 90000

/-- The candidate at this position is as long as any, and the last or the first such one. -/
def IsLongest (catalog : Catalog) (i : Nat) : Prop :=
  match catalog.tieRule with
  | .last => IsLastMax catalog.keyAt catalog.listedCandidates i
  | .first => IsFirstMax catalog.keyAt catalog.listedCandidates i

/-- No main title is declared, or one that is not in the catalog. -/
def LacksMain (catalog : Catalog) : Prop :=
  ∀ main, catalog.mainTitle = some main → catalog.titles.size ≤ main

/-- What a choice comes to. -/
inductive Outcome (catalog : Catalog) : Option Nat → Except Error Title → Prop
  | asked {id : Nat} (hlt : id < catalog.titles.size) :
    Outcome catalog (some id) (.ok catalog.titles[id])
  | outOfRange {id : Nat} (hle : catalog.titles.size ≤ id) :
    Outcome catalog (some id) (.error (.outOfRange "title" id catalog.titles.size))
  | main {main : Nat} (hmain : catalog.mainTitle = some main) (hlt : main < catalog.titles.size) :
    Outcome catalog none (.ok catalog.titles[main])
  | longest {i : Nat} (hmain : catalog.LacksMain) (hlt : i < catalog.titles.size)
    (hlongest : catalog.IsLongest i) : Outcome catalog none (.ok catalog.titles[i])
  | nothing (hmain : catalog.LacksMain) (hnone : catalog.listedCandidates = []) :
    Outcome catalog none (.error (.notFound "no playable title on disc"))

/-- The titles of the candidates are those at the listed positions. -/
theorem map_some_candidateTitles (catalog : Catalog) :
    catalog.candidateTitles.map some = catalog.listedCandidates.map fun i => catalog.titles[i]? := by
  unfold candidateTitles listedCandidates
  induction catalog.candidates with
  | nil => rfl
  | cons i rest ih =>
    by_cases hlt : i < catalog.titles.size
    · simp only [List.filterMap_cons, Array.getElem?_eq_getElem hlt, List.map_cons, ih,
        List.filter_cons, decide_eq_true hlt, if_true]
    · rw [List.filterMap_cons, Array.getElem?_eq_none (Nat.not_lt.1 hlt), ih,
        List.filter_cons, if_neg (by simpa using hlt)]

theorem candidateTitles_eq_nil_iff :
    catalog.candidateTitles = [] ↔ catalog.listedCandidates = [] := by
  rw [← List.map_eq_nil_iff (f := some), map_some_candidateTitles, List.map_eq_nil_iff]

theorem Leads.isFirstMax {titles : List Title} (hrule : catalog.tieRule = .first)
    (h : catalog.Leads titles title) : IsFirstMax catalog.precision.key titles title := by
  obtain ⟨before, after, rfl, hbefore, hafter⟩ := h
  simp only [replaces, hrule, decide_eq_true_eq, not_lt] at hbefore hafter
  exact ⟨before, after, rfl, hbefore, hafter⟩

theorem keyAt_eq (catalog : Catalog) :
    catalog.keyAt = fun i => catalog.titles[i]?.elim 0 catalog.precision.key := by
  funext i
  unfold keyAt Precision.key
  cases catalog.precision <;> cases catalog.titles[i]? <;> rfl

/-- A title that leads the candidates is the longest one by its position. -/
theorem Leads.isLongest (h : catalog.Leads catalog.candidateTitles title) :
    ∃ i, catalog.titles[i]? = some title ∧ catalog.IsLongest i := by
  let key : Option Title → Nat := fun title? => title?.elim 0 catalog.precision.key
  unfold IsLongest
  rw [keyAt_eq]
  cases hrule : catalog.tieRule with
  | last =>
    have hmax : IsLastMax key (catalog.candidateTitles.map some) (some title) :=
      (h.isLastMax hrule).map some key
    rw [map_some_candidateTitles] at hmax
    obtain ⟨i, htitle, hi⟩ := hmax.of_map
    exact ⟨i, htitle.symm, hi⟩
  | first =>
    have hmax : IsFirstMax key (catalog.candidateTitles.map some) (some title) :=
      (h.isFirstMax hrule).map some key
    rw [map_some_candidateTitles] at hmax
    obtain ⟨i, htitle, hi⟩ := hmax.of_map
    exact ⟨i, htitle.symm, hi⟩

theorem IsLongest.mem (h : catalog.IsLongest i) : i ∈ catalog.listedCandidates := by
  unfold IsLongest at h
  split at h
  · exact h.mem
  · exact List.mem_reverse.1 (isLastMax_reverse_iff.2 h).mem

theorem IsLongest.unique {j : Nat} (hi : catalog.IsLongest i) (hj : catalog.IsLongest j) :
    i = j := by
  unfold IsLongest at hi hj
  cases hrule : catalog.tieRule <;> rw [hrule] at hi hj <;> exact hi.unique hj

theorem main?_of_lacksMain (h : catalog.LacksMain) : catalog.main? = none := by
  simp only [main?, Option.bind_eq_bind, Option.bind_eq_none_iff]
  intro main hmain
  exact Array.getElem?_eq_none (h main hmain)

theorem lacksMain_or (catalog : Catalog) :
    catalog.LacksMain ∨ ∃ main, catalog.mainTitle = some main ∧ main < catalog.titles.size := by
  by_cases h : catalog.LacksMain
  · exact .inl h
  · unfold LacksMain at h
    push Not at h
    exact .inr h

theorem outcome_select (catalog : Catalog) (choice : Option Nat) :
    catalog.Outcome choice (catalog.select choice) := by
  cases choice with
  | some id =>
    by_cases hlt : id < catalog.titles.size
    · simp only [select, Array.getElem?_eq_getElem hlt]
      exact .asked hlt
    · simp only [select, Array.getElem?_eq_none (Nat.not_lt.1 hlt)]
      exact .outOfRange (Nat.not_lt.1 hlt)
  | none =>
    rcases catalog.lacksMain_or with hmain | ⟨main, hmain, hlt⟩
    · rcases catalog.longest?_cases with ⟨hnone, hlongest⟩ | ⟨title, hlongest, hleads⟩
      · simp only [select, main?_of_lacksMain hmain, hlongest, Option.none_or]
        exact .nothing hmain (candidateTitles_eq_nil_iff.1 hnone)
      · obtain ⟨i, htitle, hi⟩ := hleads.isLongest
        obtain ⟨hlt, rfl⟩ := Array.getElem?_eq_some_iff.1 htitle
        simp only [select, main?_of_lacksMain hmain, hlongest, Option.none_or]
        exact .longest hmain hlt hi
    · have hfound : catalog.main? = some catalog.titles[main] := by
        simp only [main?, hmain, Option.bind_eq_bind, Option.bind_some,
          Array.getElem?_eq_getElem hlt]
      simp only [select, hfound, Option.some_or]
      exact .main hmain hlt

theorem Outcome.unique {choice : Option Nat} {result result' : Except Error Title}
    (h : catalog.Outcome choice result) (h' : catalog.Outcome choice result') :
    result = result' := by
  cases h with
  | asked hlt =>
    cases h' with
    | asked => rfl
    | outOfRange hle => exact absurd hlt (Nat.not_lt.2 hle)
  | outOfRange hle =>
    cases h' with
    | asked hlt => exact absurd hlt (Nat.not_lt.2 hle)
    | outOfRange => rfl
  | main hmain hlt =>
    cases h' with
    | main hmain' =>
      obtain rfl := Option.some.inj (hmain.symm.trans hmain')
      rfl
    | longest hlacks => exact absurd hlt (Nat.not_lt.2 (hlacks _ hmain))
    | nothing hlacks => exact absurd hlt (Nat.not_lt.2 (hlacks _ hmain))
  | longest hlacks _ hlongest =>
    cases h' with
    | main hmain hlt => exact absurd hlt (Nat.not_lt.2 (hlacks _ hmain))
    | longest _ _ hlongest' =>
      obtain rfl := hlongest.unique hlongest'
      rfl
    | nothing _ hnone =>
      have hmem := hlongest.mem
      rw [hnone] at hmem
      simp at hmem
  | nothing hlacks hnone =>
    cases h' with
    | main hmain hlt => exact absurd hlt (Nat.not_lt.2 (hlacks _ hmain))
    | longest _ _ hlongest =>
      have hmem := hlongest.mem
      rw [hnone] at hmem
      simp at hmem
    | nothing => rfl

/-- What is selected is what the choice comes to, on any catalog: whatever its titles, its candidates,
its main title, its rule for equally long titles and the precision at which it compares them. -/
theorem select_eq_iff (catalog : Catalog) (choice : Option Nat) (result : Except Error Title) :
    catalog.select choice = result ↔ catalog.Outcome choice result := by
  constructor
  · rintro rfl
    exact catalog.outcome_select choice
  · exact (catalog.outcome_select choice).unique

def titleOfTicks (index ticks : Nat) : Title where
  index := index
  duration := ticks
  chapterCount := 1
  unitCount := 1
  angleCount := 1
  reference := .bluray index

/-- Two titles of five seconds and some ticks, and one of four seconds. -/
def fiveSecondTitles (candidates : List Nat) (tieRule : TieRule) (precision : Precision) : Catalog where
  titles := #[titleOfTicks 0 450010, titleOfTicks 1 530000, titleOfTicks 2 360000]
  candidates := candidates
  mainTitle := some 3
  tieRule := tieRule
  precision := precision

/-- By whole seconds two titles tie, and the order of the candidates decides; by ticks none does. -/
theorem select_eq_iff_fiveSeconds :
    (fiveSecondTitles [2, 1, 9, 0, 2] .last .wholeSeconds).select none =
        .ok (titleOfTicks 0 450010) ∧
      (fiveSecondTitles [2, 1, 9, 0, 2] .first .wholeSeconds).select none =
        .ok (titleOfTicks 1 530000) ∧
      (fiveSecondTitles [2, 1, 9, 0, 2] .last .ticks).select none = .ok (titleOfTicks 1 530000) ∧
      (fiveSecondTitles [3, 9] .last .ticks).select none =
        .error (.notFound "no playable title on disc") := by
  have hmain : ∀ candidates rule precision,
      (fiveSecondTitles candidates rule precision).LacksMain := by
    rintro _ _ _ _ ⟨⟩
    exact Nat.le_refl 3
  have hlast : (fiveSecondTitles [2, 1, 9, 0, 2] .last .wholeSeconds).IsLongest 0 :=
    ⟨[2, 1], [2], rfl, by decide, by decide⟩
  have hfirst : (fiveSecondTitles [2, 1, 9, 0, 2] .first .wholeSeconds).IsLongest 1 :=
    ⟨[2], [0, 2], rfl, by decide, by decide⟩
  have hticks : (fiveSecondTitles [2, 1, 9, 0, 2] .last .ticks).IsLongest 1 :=
    ⟨[2], [0, 2], rfl, by decide, by decide⟩
  exact ⟨(select_eq_iff _ _ _).2 (.longest (hmain _ _ _) (by decide) hlast),
    (select_eq_iff _ _ _).2 (.longest (hmain _ _ _) (by decide) hfirst),
    (select_eq_iff _ _ _).2 (.longest (hmain _ _ _) (by decide) hticks),
    (select_eq_iff _ _ _).2 (.nothing (hmain _ _ _) rfl)⟩

end Catalog

end OpticalDisc
