import OpticalDisc.Proofs.Dvd.UnchangingDiscs

/-!
# Titles that lead nowhere

The scan passes over a title that dangles, and opening it goes through the same tables once more. The
two agree: what the scan does not list as a candidate does not open, and no other title is played in
its place.
-/

namespace OpticalDisc

namespace VideoManager

variable {manager : VideoManager} {sets : TitleSets} {selection : DvdSelection}
  {entry : TitleRecord} {i : Nat}

/-- A title that is asked for and cannot be followed is a corrupt index, as long as its angle exists. -/
theorem choose_of_dangling (hsets : sets.map Prod.fst = manager.referencedSets)
    (hasked : selection.title = some i) (hentry : manager.titles[i]? = some entry)
    (hangle : selection.angle < max entry.angleCount.toNat 1)
    (hnone : chainOf? sets entry = none) :
    ∃ text, manager.choose sets selection = .error (.corruptIndex text) := by
  have hselect : (manager.catalog sets).select selection.title = .ok (titleOf sets entry i) := by
    simp only [hasked, Catalog.select, getElem?_titles, hentry, Option.map_some]
  have hrecord : manager.titles[(titleOf sets entry i).index]?.getD {} = entry := by
    rw [show (titleOf sets entry i).index = i from rfl, hentry, Option.getD_some]
  simp only [choose, hselect, ok_bind, hrecord]
  by_cases hcheck : 1 ≤ entry.titleSet.toNat ∧ entry.titleSet.toNat ≤ manager.titleSetCount.toNat
  · have hmem := mem_referencedSets_of_mem (List.mem_of_getElem? hentry) hcheck
    obtain ⟨set, hset⟩ := mem_keys_iff_lookup.1 (hsets ▸ hmem)
    rw [chainOf?_of_lookup hset] at hnone
    simp only [TitleRecord.checkSet_eq_ok_iff.2 hcheck, ok_bind, hset, Option.getD_some]
    cases hparts : set.partsOfTitle? entry.titleInSet.toNat with
    | none =>
      simp only [TitleRecord.partsIn, hparts]
      exact ⟨_, rfl⟩
    | some parts =>
      obtain ⟨text, hroute⟩ := Route.ofTitle_of_no_chain selection.angle hnone
      simp only [TitleRecord.partsIn_eq_ok_iff.2 hparts, ok_bind,
        TitleRecord.checkAngle_eq_ok_iff.2 hangle, hroute]
      exact ⟨text, rfl⟩
  · simp only [TitleRecord.checkSet, if_neg hcheck]
    exact ⟨_, rfl⟩

theorem choose_outOfRange (hasked : selection.title = some i) (hlength : manager.titles.length ≤ i) :
    manager.choose sets selection = .error (.outOfRange "title" i manager.titles.length) := by
  have hnone : manager.titles[i]? = none := List.getElem?_eq_none hlength
  have hselect : (manager.catalog sets).select selection.title =
      .error (.outOfRange "title" i manager.titles.length) := by
    simp only [hasked, Catalog.select, getElem?_titles, hnone, Option.map_none, size_titles]
  rw [choose, hselect]
  rfl

end VideoManager

theorem DvdMedium.Tables.dangles_iff {δ σ : Type} [DvdMedium δ σ] {disc : δ}
    {manager : VideoManager} {sets : TitleSets} (h : Tables disc manager sets) {i : Nat}
    {entry : TitleRecord} (hentry : manager.titles[i]? = some entry) :
    manager.Dangles (fun number => (answerOf (openTitleSet number disc)).toOption) entry ↔
      i ∉ (manager.catalog sets).candidates := by
  have hread (number : Nat) (set : TitleSet) (hset : sets.lookup number = some set) :
      (answerOf (openTitleSet number disc)).toOption = some set := by
    rw [h.answer_of_lookup hset]
    rfl
  rw [VideoManager.notMem_candidates_iff hentry]
  exact VideoManager.dangles_iff h.keys_eq hread (List.mem_of_getElem? hentry)

namespace TitleStream

open DvdMedium

variable {δ σ : Type} [DvdMedium δ σ] {disc scanned later : δ}

/-- On an unchanging disc, after any calls: the titles that dangle are those that the scan does not
list as candidates, and asking for one of them, with an angle that it has, is a corrupt index; what
does open is a candidate, the title that was asked for, and on the route of that title; an index past
the titles is out of range. -/
theorem openTitle_candidates (hdisc : Unchanging disc) {catalog : Catalog}
    (hscan : scan disc = .ok catalog scanned) (hlater : Reaches disc later)
    (selection : DvdSelection) :
    ∃ manager, answerOf (openManager disc) = .ok manager ∧
      (∀ i entry, manager.titles[i]? = some entry →
        (manager.Dangles (fun number => (answerOf (openTitleSet number disc)).toOption) entry ↔
          i ∉ catalog.candidates) ∧
        (i ∉ catalog.candidates → selection.title = some i →
          selection.angle < max entry.angleCount.toNat 1 →
          ∃ text, answerOf (openTitle selection later) = .error (.corruptIndex text))) ∧
      (∀ s, answerOf (openTitle selection later) = .ok s →
        s.title.index ∈ catalog.candidates ∧ catalog.titles[s.title.index]? = some s.title ∧
          (∀ i, selection.title = some i → s.title.index = i) ∧
          ∃ entry set, manager.titles[s.title.index]? = some entry ∧
            answerOf (openTitleSet entry.titleSet.toNat disc) = .ok set ∧
            Route.ofTitle set entry.titleInSet.toNat selection.angle = .ok s.playhead.route) ∧
      ∀ i, selection.title = some i → manager.titles.length ≤ i →
        answerOf (openTitle selection later) =
          .error (.outOfRange "title" i manager.titles.length) := by
  obtain ⟨manager, disc₁, sets, hmanager, hsets, rfl⟩ := scan_eq_ok hscan
  have htables := hdisc.tables_of_reads .start hmanager hsets
  obtain ⟨later₁, later₂, hmanager₁, hsets₁⟩ := hdisc.reads_of_tables hlater htables
  have hkeys := htables.keys_eq
  have hrefuses {e : Error} (h : manager.choose sets selection = .error e) :
      answerOf (openTitle selection later) = .error e := by
    rw [openTitle_of_refused hmanager₁ hsets₁ h]
    rfl
  refine ⟨manager, htables.manager_eq, ?_, ?_, ?_⟩
  · intro i entry hentry
    constructor
    · exact htables.dangles_iff hentry
    · intro hskipped hasked hangle
      have hnone := (VideoManager.notMem_candidates_iff hentry).1 hskipped
      obtain ⟨text, hchoose⟩ := VideoManager.choose_of_dangling hkeys hasked hentry hangle hnone
      exact ⟨text, hrefuses hchoose⟩
  · intro s hopened
    obtain ⟨_, _, _, _, choice, video, hmanager₂, hsets₂, hchecked, -, rfl⟩ :=
      openTitle_eq_ok (answerOf_eq_ok_iff.1 hopened)
    obtain ⟨rfl, rfl⟩ := EStateM.Result.ok.inj (hmanager₁.symm.trans hmanager₂)
    obtain ⟨rfl, rfl⟩ := EStateM.Result.ok.inj (hsets₁.symm.trans hsets₂)
    obtain ⟨hlisted, hasked⟩ := VideoManager.select_eq_ok hchecked.selected
    have hroute := Playhead.route_ofRoute video choice.route
    exact ⟨hchecked.mem_candidates, hlisted, hasked, choice.entry, choice.set, hchecked.recorded,
      htables.answer_of_lookup hchecked.read, hroute ▸ hchecked.resolves⟩
  · intro i hasked hlength
    exact hrefuses (VideoManager.choose_outOfRange hasked hlength)

/-- One title that plays and one that is not among the chapters of its title set. -/
def danglingTitle : TableDisc Unit where
  manager := { titleSetCount := 1, titles := [⟨0, 1, 1, 0, 1, 1, 0⟩, ⟨0, 1, 1, 0, 1, 2, 0⟩] }
  titleSet :=
    { parts := [[⟨1, 1⟩]]
      chains := some #[{ programMap := [1], cells := [⟨0, 0, .none, {}⟩] }] }
  video := ()

/-- After a scan, which leaves its calls written down. -/
theorem openTitle_candidates_danglingTitle :
    ∃ catalog scanned,
      scan (⟨danglingTitle, []⟩ : Recorded DiscCall (TableDisc Unit)) = .ok catalog scanned ∧
      scanned.calls = [.manager, .titleSet 1] ∧ catalog.candidates = [0] ∧
      ∃ text, answerOf (openTitle { title := some 1 } scanned) = .error (.corruptIndex text) := by
  have hdisc := (unchanging_tableDisc danglingTitle).recorded []
  have hscan : scan (⟨danglingTitle, []⟩ : Recorded DiscCall (TableDisc Unit)) =
      .ok (danglingTitle.manager.catalog [(1, danglingTitle.titleSet)])
        ⟨danglingTitle, [.manager, .titleSet 1]⟩ := rfl
  have hreach : Reaches (⟨danglingTitle, []⟩ : Recorded DiscCall (TableDisc Unit))
      ⟨danglingTitle, [.manager, .titleSet 1]⟩ := Reaches.start.manager.titleSet 1
  have hcandidates : (danglingTitle.manager.catalog [(1, danglingTitle.titleSet)]).candidates =
      [0] := by decide +kernel
  obtain ⟨manager, hmanager, htitles, -, -⟩ :=
    openTitle_candidates hdisc hscan hreach { title := some 1 }
  obtain rfl := Except.ok.inj hmanager
  obtain ⟨-, hfails⟩ := htitles 1 ⟨0, 1, 1, 0, 1, 2, 0⟩ rfl
  exact ⟨_, _, hscan, rfl, hcandidates, hfails (by simp [hcandidates]) rfl (by decide)⟩

end TitleStream

end OpticalDisc
