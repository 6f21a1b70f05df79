import OpticalDisc.Bluray.OpenTitle
import OpticalDisc.Proofs.Dvd.StreamOpening
import OpticalDisc.Proofs.LongestTitle

/-!
# The titles of a Blu-ray disc and the choice among them

The descriptions of the titles are asked for in order, up to the first one that fails. Among them an
explicit choice stands, or else the declared main title, if it is listed, or else the first of the
longest titles.
-/

namespace OpticalDisc

/-- The disc gives these descriptions, of the titles from `index` on. -/
inductive Describes {β : Type} [BlurayMedium β] :
    (index : Nat) → β → List TitleDescription → β → Prop
  | nil {index : Nat} {disc : β} : Describes index disc [] disc
  | cons {index : Nat} {disc disc₁ disc₂ : β} {info : TitleDescription}
    {rest : List TitleDescription} (head : BlurayMedium.describeTitle index disc = .ok info disc₁)
    (tail : Describes (index + 1) disc₁ rest disc₂) : Describes index disc (info :: rest) disc₂

namespace TitleDescription

def entries (index : Nat) (infos : List TitleDescription) : List Title :=
  (infos.zipIdx index).map fun (info, i) => info.entry i

@[simp] theorem length_entries (index : Nat) (infos : List TitleDescription) :
    (entries index infos).length = infos.length := by
  simp [entries]

theorem getElem?_entries (index i : Nat) (infos : List TitleDescription) :
    (entries index infos)[i]? = infos[i]?.map (·.entry (index + i)) := by
  simp [entries, Function.comp_def]

/-- At `k` stands the first of the longest titles. -/
structure IsFirstLongest (infos : List TitleDescription) (k : Nat) (info : TitleDescription) :
    Prop where
  getElem?_eq : infos[k]? = some info
  longest : ∀ other ∈ infos, other.duration ≤ info.duration
  first : ∀ i < k, ∀ other, infos[i]? = some other → other.duration < info.duration

theorem IsFirstLongest.le {infos : List TitleDescription} {j k : Nat}
    {info other : TitleDescription} (h : IsFirstLongest infos j info)
    (hother : IsFirstLongest infos k other) : j ≤ k := by
  by_contra hlt
  have hless := h.first k (Nat.not_le.1 hlt) other hother.getElem?_eq
  have hle := hother.longest info (List.mem_of_getElem? h.getElem?_eq)
  omega

/-- An entry longer than those before it, and as long as those after it, describes the first of the
longest titles. -/
theorem isFirstLongest_of_entries {infos : List TitleDescription} {before after : List Title}
    {title : Title} (h : entries 0 infos = before ++ title :: after)
    (hbefore : ∀ other ∈ before, other.duration < title.duration)
    (hafter : ∀ other ∈ after, other.duration ≤ title.duration) :
    ∃ info, title = info.entry before.length ∧ IsFirstLongest infos before.length info := by
  -- the entry at each place is made from the description at the same place
  have hentry (i : Nat) : infos[i]?.map (·.entry i) = (before ++ title :: after)[i]? := by
    rw [← h, getElem?_entries, Nat.zero_add]
  have hk := hentry before.length
  rw [List.getElem?_append_right le_rfl, Nat.sub_self, List.getElem?_cons_zero] at hk
  obtain ⟨info, hinfo, rfl⟩ := Option.map_eq_some_iff.1 hk
  have hfirst : ∀ i < before.length, ∀ other, infos[i]? = some other →
      other.duration < info.duration := by
    intro i hi other hother
    have hi' := hentry i
    rw [hother, List.getElem?_append_left hi] at hi'
    exact hbefore (other.entry i) (List.mem_of_getElem? hi'.symm)
  refine ⟨info, rfl, hinfo, ?_, hfirst⟩
  intro other hother
  obtain ⟨i, hi⟩ := List.mem_iff_getElem?.1 hother
  rcases Nat.lt_or_ge i before.length with hlt | hge
  · exact (hfirst i hlt other hi).le
  · have hi' := hentry i
    rw [hi, List.getElem?_append_right hge] at hi'
    rcases List.mem_cons.1 (List.mem_of_getElem? hi'.symm) with heq | hmem
    · exact (congrArg Title.duration heq).le
    · exact hafter (other.entry i) hmem

end TitleDescription

open TitleDescription (entries IsFirstLongest)

section Listing

variable {β : Type} [BlurayMedium β] {index count : Nat} {disc disc' disc'' : β}
  {infos : List TitleDescription}

theorem Describes.entriesFrom_eq (h : Describes index disc infos disc') :
    OpenTitle.entriesFrom index infos.length disc = .ok (entries index infos) disc' := by
  induction h with
  | nil => rfl
  | cons head _ ih =>
    simp only [List.length_cons, OpenTitle.entriesFrom, bind_apply, head, ih]
    rfl

theorem Describes.entriesFrom_of_fails (h : Describes index disc infos disc')
    (hlt : infos.length < count) {e : Error}
    (hfails : BlurayMedium.describeTitle (index + infos.length) disc' = .error e disc'') :
    OpenTitle.entriesFrom index count disc = .error e disc'' := by
  induction h generalizing count with
  | nil =>
    obtain ⟨count, rfl⟩ := Nat.exists_eq_add_of_lt hlt
    simp only [List.length_nil, Nat.add_zero, Nat.zero_add] at hfails ⊢
    simp only [OpenTitle.entriesFrom, bind_apply, hfails]
  | @cons index _ _ _ _ rest head _ ih =>
    cases count with
    | zero => simp at hlt
    | succ count =>
      rw [List.length_cons] at hlt hfails
      rw [show index + (rest.length + 1) = index + 1 + rest.length by omega] at hfails
      have hrest := ih (Nat.lt_of_succ_lt_succ hlt) hfails
      simp only [OpenTitle.entriesFrom, bind_apply, head, hrest]

theorem describeTitles_of_countFailed {minSeconds : Nat} {e : Error}
    (hfails : BlurayMedium.countTitles minSeconds disc = .error e disc') :
    OpenTitle.describeTitles minSeconds disc = .error e disc' := by
  rw [OpenTitle.describeTitles, bind_apply, hfails]

theorem describeTitles_of_none {minSeconds : Nat}
    (hcount : BlurayMedium.countTitles minSeconds disc = .ok 0 disc') :
    OpenTitle.describeTitles minSeconds disc =
      .error (.notFound s!"no titles of at least {minSeconds} seconds") disc' := by
  rw [OpenTitle.describeTitles, bind_apply, hcount]
  rfl

theorem describeTitles_of_some {minSeconds : Nat}
    (hcount : BlurayMedium.countTitles minSeconds disc = .ok count disc') (hsome : count ≠ 0) :
    OpenTitle.describeTitles minSeconds disc = OpenTitle.entriesFrom 0 count disc' := by
  rw [OpenTitle.describeTitles, bind_apply, hcount]
  simp only [if_neg hsome]

/-- So many titles are described, unless one of them is the first that fails. -/
theorem describes_or_fails (index count : Nat) (disc : β) :
    (∃ infos disc', infos.length = count ∧ Describes index disc infos disc') ∨
      ∃ infos disc₁ e disc₂, infos.length < count ∧ Describes index disc infos disc₁ ∧
        BlurayMedium.describeTitle (index + infos.length) disc₁ = .error e disc₂ := by
  induction count generalizing index disc with
  | zero => exact .inl ⟨[], disc, rfl, .nil⟩
  | succ count ih =>
    cases hfirst : BlurayMedium.describeTitle index disc with
    | error e disc₁ => exact .inr ⟨[], disc, e, disc₁, Nat.succ_pos _, .nil, hfirst⟩
    | ok info disc₁ =>
      rcases ih (index + 1) disc₁ with
        ⟨infos, disc', hlength, hinfos⟩ | ⟨infos, disc₂, e, disc₃, hlt, hinfos, hfails⟩
      · exact .inl ⟨info :: infos, disc', congrArg (· + 1) hlength, .cons hfirst hinfos⟩
      · refine .inr ⟨info :: infos, disc₂, e, disc₃, Nat.succ_lt_succ hlt, .cons hfirst hinfos, ?_⟩
        rwa [List.length_cons, show index + (infos.length + 1) = index + 1 + infos.length by omega]

end Listing

namespace Catalog

theorem candidateTitles_ofTitles (titles : List Title) (tieRule : TieRule) :
    (ofTitles titles.toArray tieRule).candidateTitles = titles := by
  simp only [candidateTitles, ofTitles, List.size_toArray, List.getElem?_toArray]
  induction titles with
  | nil => rfl
  | cons title rest ih =>
    simpa [List.range_succ_eq_map, List.filterMap_map, Function.comp_def] using ih

def ofDescriptions (infos : List TitleDescription) (mainTitle : Option Nat) : Catalog :=
  { ofTitles (entries 0 infos).toArray .first with mainTitle }

variable {infos : List TitleDescription} {mainTitle : Option Nat}

@[simp] theorem size_titles_ofDescriptions (infos : List TitleDescription)
    (mainTitle : Option Nat) : (ofDescriptions infos mainTitle).titles.size = infos.length := by
  simp [ofDescriptions, ofTitles]

theorem getElem?_titles_ofDescriptions (infos : List TitleDescription) (mainTitle : Option Nat)
    (k : Nat) : (ofDescriptions infos mainTitle).titles[k]? = infos[k]?.map (·.entry k) := by
  simp [ofDescriptions, ofTitles, TitleDescription.getElem?_entries]

theorem index_titles_ofDescriptions {i : Nat} (h : i < (ofDescriptions infos mainTitle).titles.size) :
    (ofDescriptions infos mainTitle).titles[i].index = i := by
  have hentry := getElem?_titles_ofDescriptions infos mainTitle i
  rw [Array.getElem?_eq_getElem h] at hentry
  obtain ⟨info, -, heq⟩ := Option.map_eq_some_iff.1 hentry.symm
  rw [← heq]
  rfl

theorem main?_ofDescriptions (infos : List TitleDescription) (mainTitle : Option Nat) :
    (ofDescriptions infos mainTitle).main? =
      mainTitle.bind fun main => infos[main]?.map (·.entry main) := by
  simp only [main?, getElem?_titles_ofDescriptions]
  rfl

theorem replaces_ofDescriptions (best title : Title) :
    (ofDescriptions infos mainTitle).replaces best title ↔ best.duration < title.duration :=
  decide_eq_true_iff

/-- The title that a choice comes to among described titles. -/
inductive Selects (infos : List TitleDescription) (mainTitle : Option Nat) :
    (choice : Option Nat) → Nat → Prop
  | asked {k : Nat} (hlt : k < infos.length) : Selects infos mainTitle (some k) k
  | main {k : Nat} (hmain : mainTitle = some k) (hlt : k < infos.length) :
    Selects infos mainTitle none k
  /-- Without a main title that is listed, the first of the longest titles. -/
  | longest {k : Nat} {info : TitleDescription}
    (hmain : ∀ main, mainTitle = some main → infos.length ≤ main)
    (hlongest : IsFirstLongest infos k info) : Selects infos mainTitle none k

theorem Selects.lt_length {choice : Option Nat} {k : Nat} (h : Selects infos mainTitle choice k) :
    k < infos.length := by
  cases h with
  | asked hlt => exact hlt
  | main _ hlt => exact hlt
  | longest _ hlongest => exact (List.getElem?_eq_some_iff.1 hlongest.getElem?_eq).1

theorem Selects.unique {choice : Option Nat} {j k : Nat} (hj : Selects infos mainTitle choice j)
    (hk : Selects infos mainTitle choice k) : j = k := by
  cases hj with
  | asked =>
    cases hk with
    | asked => rfl
  | main hmain hlt =>
    cases hk with
    | main hmain' => exact Option.some.inj (hmain.symm.trans hmain')
    | longest hnone => exact absurd hlt (Nat.not_lt.2 (hnone j hmain))
  | longest hnone hlongest =>
    cases hk with
    | main hmain hlt => exact absurd hlt (Nat.not_lt.2 (hnone k hmain))
    | longest _ hlongest' => exact Nat.le_antisymm (hlongest.le hlongest') (hlongest'.le hlongest)

theorem exists_longest_ofDescriptions (hsome : infos ≠ []) (mainTitle : Option Nat) :
    ∃ k info, IsFirstLongest infos k info ∧
      (ofDescriptions infos mainTitle).longest? = some (info.entry k) := by
  have hcandidates : (ofDescriptions infos mainTitle).candidateTitles = entries 0 infos :=
    candidateTitles_ofTitles _ .first
  rcases (ofDescriptions infos mainTitle).longest?_cases with
    ⟨hnone, -⟩ | ⟨title, hlongest, before, after, hlist, hbefore, hafter⟩
  · have hlength := congrArg List.length (hcandidates.symm.trans hnone)
    rw [TitleDescription.length_entries] at hlength
    exact absurd (List.eq_nil_of_length_eq_zero hlength) hsome
  · rw [hcandidates] at hlist
    simp only [replaces_ofDescriptions, Nat.not_lt] at hbefore hafter
    obtain ⟨info, rfl, hfirst⟩ := TitleDescription.isFirstLongest_of_entries hlist hbefore hafter
    exact ⟨before.length, info, hfirst, hlongest⟩

theorem exists_select_ofDescriptions (hsome : infos ≠ []) (mainTitle choice : Option Nat)
    (hlisted : ∀ asked, choice = some asked → asked < infos.length) :
    ∃ k info, Selects infos mainTitle choice k ∧ infos[k]? = some info ∧
      (ofDescriptions infos mainTitle).select choice = .ok (info.entry k) := by
  cases choice with
  | some asked =>
    have hlt := hlisted asked rfl
    refine ⟨asked, infos[asked], .asked hlt, List.getElem?_eq_getElem hlt, ?_⟩
    simp only [select, getElem?_titles_ofDescriptions, List.getElem?_eq_getElem hlt, Option.map_some]
  | none =>
    by_cases hmain : ∃ main, mainTitle = some main ∧ main < infos.length
    · obtain ⟨main, rfl, hlt⟩ := hmain
      have hinfo := List.getElem?_eq_getElem hlt
      refine ⟨main, infos[main], .main rfl hlt, hinfo, ?_⟩
      have hfound : (ofDescriptions infos (some main)).main? = some (infos[main].entry main) := by
        rw [main?_ofDescriptions, Option.bind_some, hinfo, Option.map_some]
      simp only [select, hfound, Option.some_or]
    · push Not at hmain
      obtain ⟨k, info, hlongest, heq⟩ := exists_longest_ofDescriptions hsome mainTitle
      have hnone : (ofDescriptions infos mainTitle).main? = none := by
        rw [main?_ofDescriptions, Option.bind_eq_none_iff]
        intro main heq
        rw [List.getElem?_eq_none (hmain main heq), Option.map_none]
      refine ⟨k, info, .longest hmain hlongest, hlongest.getElem?_eq, ?_⟩
      simp only [select, hnone, Option.none_or, heq]

theorem Selects.select_eq {choice : Option Nat} {k : Nat} (h : Selects infos mainTitle choice k) :
    ∃ title, (ofDescriptions infos mainTitle).titles[k]? = some title ∧ title.index = k ∧
      (ofDescriptions infos mainTitle).select choice = .ok title := by
  have hsome : infos ≠ [] := List.ne_nil_of_length_pos (Nat.zero_lt_of_lt h.lt_length)
  have hlisted : ∀ asked, choice = some asked → asked < infos.length := by
    rintro asked rfl
    cases h with
    | asked hlt => exact hlt
  obtain ⟨j, info, hselects, hinfo, hselect⟩ :=
    exists_select_ofDescriptions hsome mainTitle choice hlisted
  obtain rfl := hselects.unique h
  refine ⟨info.entry j, ?_, rfl, hselect⟩
  rw [getElem?_titles_ofDescriptions, hinfo, Option.map_some]

theorem select_of_length_le {asked : Nat} (hle : infos.length ≤ asked) :
    (ofDescriptions infos mainTitle).select (some asked) =
      .error (.outOfRange "title" asked infos.length) := by
  simp only [select, getElem?_titles_ofDescriptions, List.getElem?_eq_none hle, Option.map_none,
    size_titles_ofDescriptions]

end Catalog

end OpticalDisc
