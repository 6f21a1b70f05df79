import OpticalDisc.Proofs.Dvd.RouteVerdict
import OpticalDisc.Proofs.Dvd.TitleScan
import OpticalDisc.Proofs.LongestTitle

/-!
# The choice of a title

Between the scan of a disc and the opening of a video, opening a title only decides: which title it
is, whether its references and its angle are in order, and what route it takes. `choose` makes these
decisions without the disc, and opening a title is a scan, the choice, and the opening of the video.
The title set of the choice has always been read by the scan.
-/

namespace OpticalDisc

/-- What opening a title settles before its video is opened. -/
structure TitleChoice where
  title : Title
  /-- The record of the title in the title table. -/
  entry : TitleRecord
  set : TitleSet
  parts : List PartOfTitle
  route : Route

namespace TitleChoice

def stream {σ : Type} (choice : TitleChoice) (selection : DvdSelection)
    (volumeName? : Option String) (catalog : Catalog) (video : σ) : TitleStream σ where
  playhead := Playhead.ofRoute video choice.route
  capacity := max selection.bufferSectors 1 * sectorSize
  catalog := catalog
  title := choice.title
  ticks := choice.route.chain.time.ticks
  chapters := (choice.route.chapters choice.parts choice.route.chain.time.ticks).map
    (·.inBase selection.timeBase)
  timeBase := selection.timeBase
  volumeName? := volumeName?

/-- Everything that a choice depends on is in order: the title is selected, its title set is one of
the disc's and has been read, its chapters are listed there, its angle exists, and its route resolves. -/
structure Checked (choice : TitleChoice) (manager : VideoManager) (sets : TitleSets)
    (selection : DvdSelection) : Prop where
  selected : (manager.catalog sets).select selection.title = .ok choice.title
  recorded : manager.titles[choice.title.index]? = some choice.entry
  inDisc : 1 ≤ choice.entry.titleSet.toNat ∧
    choice.entry.titleSet.toNat ≤ manager.titleSetCount.toNat
  read : sets.lookup choice.entry.titleSet.toNat = some choice.set
  lists : choice.set.partsOfTitle? choice.entry.titleInSet.toNat = some choice.parts
  angle_lt : selection.angle < max choice.entry.angleCount.toNat 1
  resolves : Route.ofTitle choice.set choice.entry.titleInSet.toNat selection.angle =
    .ok choice.route

end TitleChoice

theorem TitleRecord.checkSet_eq_ok_iff {entry : TitleRecord} {manager : VideoManager}
    {index : Nat} : entry.checkSet manager index = .ok () ↔
      1 ≤ entry.titleSet.toNat ∧ entry.titleSet.toNat ≤ manager.titleSetCount.toNat := by
  simp [checkSet]

theorem TitleRecord.partsIn_eq_ok_iff {entry : TitleRecord} {set : TitleSet} {index : Nat}
    {parts : List PartOfTitle} : entry.partsIn set index = .ok parts ↔
      set.partsOfTitle? entry.titleInSet.toNat = some parts := by
  unfold partsIn
  dsimp only
  cases set.partsOfTitle? entry.titleInSet.toNat <;> simp

theorem TitleRecord.checkAngle_eq_ok_iff {entry : TitleRecord} {angle : Nat} :
    entry.checkAngle angle = .ok () ↔ angle < max entry.angleCount.toNat 1 := by
  simp only [checkAngle, ite_eq_left_iff, reduceCtorEq, imp_false, not_not]

theorem Route.ofTitle_of_no_chain {set : TitleSet} {title : Nat} (angle : Nat)
    (h : set.startChain? title = none) :
    ∃ text, ofTitle set title angle = .error (.corruptIndex text) := by
  unfold ofTitle
  split
  · exact ⟨_, rfl⟩
  · exact ⟨_, rfl⟩
  · rename_i first rest hparts
    simp only [TitleSet.startChain?, hparts, Option.bind_some, List.head?_cons] at h
    simp only [h]
    exact ⟨_, rfl⟩

theorem Route.chain_of_ofTitle {set : TitleSet} {title angle : Nat} {route : Route}
    (h : ofTitle set title angle = .ok route) : set.startChain? title = some route.chain := by
  unfold ofTitle at h
  split at h
  · simp at h
  · simp at h
  · rename_i first rest hparts
    cases hchain : set.chain? first.chain.toNat with
    | none => simp [hchain] at h
    | some chain =>
      simp only [hchain] at h
      simp only [TitleSet.startChain?, hparts, Option.bind_some, List.head?_cons, hchain,
        (accepted_of_ofChain h).2.1]

namespace VideoManager

variable {manager : VideoManager} {sets : TitleSets} {selection : DvdSelection}
  {choice : TitleChoice}

/-- The title that is asked for, once its references and its angle have been checked. A title set
that has not been read counts as empty. -/
def choose (manager : VideoManager) (sets : TitleSets) (selection : DvdSelection) :
    Except Error TitleChoice := do
  let title ← (manager.catalog sets).select selection.title
  let entry := manager.titles[title.index]?.getD {}
  entry.checkSet manager title.index
  let set := (sets.lookup entry.titleSet.toNat).getD { parts := [], chains := none }
  let parts ← entry.partsIn set title.index
  entry.checkAngle selection.angle
  let route ← Route.ofTitle set entry.titleInSet.toNat selection.angle
  return { title, entry, set, parts, route }

theorem read_of_checkSet (hsets : sets.map Prod.fst = manager.referencedSets) {index : Nat}
    (hcheck : (manager.titles[index]?.getD {}).checkSet manager index = .ok ()) :
    ∃ entry set, manager.titles[index]? = some entry ∧
      sets.lookup entry.titleSet.toNat = some set := by
  obtain ⟨entry, hentry⟩ := TitleStream.titleSet_of_checkSet hcheck
  rw [hentry, Option.getD_some, TitleRecord.checkSet_eq_ok_iff] at hcheck
  have hmem := mem_referencedSets_of_mem (List.mem_of_getElem? hentry) hcheck
  obtain ⟨set, hset⟩ := mem_keys_iff_lookup.1 (hsets ▸ hmem)
  exact ⟨entry, set, hentry, hset⟩

/-- A choice is made exactly when everything is in order. -/
theorem choose_eq_ok_iff (hsets : sets.map Prod.fst = manager.referencedSets) :
    manager.choose sets selection = .ok choice ↔ choice.Checked manager sets selection := by
  simp only [choose, except_bind_eq_ok_iff]
  constructor
  · rintro ⟨title, hselected, ⟨⟩, hcheck, parts, hparts, ⟨⟩, hangle, route, hroute, hchoice⟩
    obtain rfl := Except.ok.inj hchoice
    obtain ⟨entry, set, hentry, hset⟩ := read_of_checkSet hsets hcheck
    simp only [hentry, hset, Option.getD_some] at hcheck hparts hangle hroute ⊢
    exact ⟨hselected, hentry, TitleRecord.checkSet_eq_ok_iff.1 hcheck, hset,
      TitleRecord.partsIn_eq_ok_iff.1 hparts, TitleRecord.checkAngle_eq_ok_iff.1 hangle, hroute⟩
  · intro h
    refine ⟨choice.title, h.selected, (), ?_, choice.parts, ?_, (), ?_, choice.route, ?_, ?_⟩ <;>
      simp only [h.recorded, h.read, Option.getD_some]
    · exact TitleRecord.checkSet_eq_ok_iff.2 h.inDisc
    · exact TitleRecord.partsIn_eq_ok_iff.2 h.lists
    · exact TitleRecord.checkAngle_eq_ok_iff.2 h.angle_lt
    · exact h.resolves
    · rfl

theorem select_eq_ok {asked? : Option Nat} {title : Title}
    (h : (manager.catalog sets).select asked? = .ok title) :
    (manager.catalog sets).titles[title.index]? = some title ∧
      ∀ i, asked? = some i → title.index = i := by
  obtain ⟨i, hi, hasked⟩ := Catalog.exists_getElem?_of_select h
  obtain rfl := index_of_getElem?_titles hi
  exact ⟨hi, fun j hj => (hasked j hj).symm⟩

end VideoManager

namespace TitleChoice.Checked

variable {choice : TitleChoice} {manager : VideoManager} {sets : TitleSets}
  {selection : DvdSelection}

theorem chainOf?_eq (h : choice.Checked manager sets selection) :
    VideoManager.chainOf? sets choice.entry = some choice.route.chain := by
  rw [VideoManager.chainOf?_of_lookup h.read]
  exact Route.chain_of_ofTitle h.resolves

theorem mem_candidates (h : choice.Checked manager sets selection) :
    choice.title.index ∈ (manager.catalog sets).candidates :=
  VideoManager.mem_candidates_iff.2 ⟨choice.entry, choice.route.chain, h.recorded, h.chainOf?_eq⟩

theorem title_eq (h : choice.Checked manager sets selection) :
    choice.title = VideoManager.titleOf sets choice.entry choice.title.index := by
  have hlisted := (VideoManager.select_eq_ok h.selected).1
  rw [VideoManager.getElem?_titles, h.recorded, Option.map_some] at hlisted
  exact (Option.some.inj hlisted).symm

end TitleChoice.Checked

namespace TitleStream

open DvdMedium

variable {δ σ : Type} [DvdMedium δ σ]

/-- Opening a title scans the disc, chooses, and opens the video; no title set is read after the
scan. -/
theorem openTitle_eq (selection : DvdSelection) (disc : δ) :
    openTitle selection disc =
      match openManager disc with
      | .error e disc₁ => .error e disc₁
      | .ok manager disc₁ =>
        match openSets manager disc₁ with
        | .error e disc₂ => .error e disc₂
        | .ok sets disc₂ =>
          match manager.choose sets selection with
          | .error e => .error e disc₂
          | .ok choice =>
            match openVideo choice.entry.titleSet.toNat disc₂ with
            | .error e disc₃ => .error e disc₃
            | .ok video disc₃ =>
              .ok (choice.stream selection (DvdMedium.volumeName? disc) (manager.catalog sets) video)
                disc₃ := by
  rw [openTitle, get_bind_apply, bind_apply]
  cases openManager disc with
  | error e disc₁ => rfl
  | ok manager disc₁ =>
    dsimp only
    rw [bind_apply]
    cases hread : openSets manager disc₁ with
    | error e disc₂ => rfl
    | ok sets disc₂ =>
      simp only [VideoManager.choose, ofResult_bind_apply]
      cases (manager.catalog sets).select selection.title with
      | error e => rfl
      | ok title =>
        simp only [ok_bind]
        cases hcheck : (manager.titles[title.index]?.getD {}).checkSet manager title.index with
        | error e => rfl
        | ok u =>
          -- the title set has been read, so that only one of the two branches is taken
          obtain ⟨entry, set, hentry, hset⟩ :=
            VideoManager.read_of_checkSet (readSets_keys hread) hcheck
          simp only [hentry, hset, Option.getD_some, ok_bind, pure_bind,
            ofResult_bind_apply]
          cases entry.partsIn set title.index with
          | error e => rfl
          | ok parts =>
            cases entry.checkAngle selection.angle with
            | error e => rfl
            | ok u =>
              cases Route.ofTitle set entry.titleInSet.toNat selection.angle with
              | error e => rfl
              | ok route =>
                simp only [ok_bind, bind_apply, pure, Except.pure]
                cases openVideo entry.titleSet.toNat disc₂ <;> rfl

variable {selection : DvdSelection} {disc disc₁ disc₂ disc₃ : δ} {manager : VideoManager}
  {sets : TitleSets} {choice : TitleChoice} {video : σ} {e : Error}

theorem openTitle_eq_ok {disc' : δ} {s : TitleStream σ}
    (h : openTitle selection disc = .ok s disc') :
    ∃ (manager : VideoManager) (disc₁ : δ) (sets : TitleSets) (disc₂ : δ) (choice : TitleChoice)
      (video : σ), openManager disc = .ok manager disc₁ ∧
      openSets manager disc₁ = .ok sets disc₂ ∧ choice.Checked manager sets selection ∧
      openVideo choice.entry.titleSet.toNat disc₂ = .ok video disc' ∧
      s = choice.stream selection (DvdMedium.volumeName? disc) (manager.catalog sets) video := by
  rw [openTitle_eq] at h
  cases hmanager : openManager disc with
  | error e disc₁ => simp [hmanager] at h
  | ok manager disc₁ =>
    cases hsets : openSets manager disc₁ with
    | error e disc₂ => simp [hmanager, hsets] at h
    | ok sets disc₂ =>
      cases hchoose : manager.choose sets selection with
      | error e => simp [hmanager, hsets, hchoose] at h
      | ok choice =>
        cases hvideo : openVideo choice.entry.titleSet.toNat disc₂ with
        | error e disc₃ => simp [hmanager, hsets, hchoose, hvideo] at h
        | ok video disc₃ =>
          have hchecked := (VideoManager.choose_eq_ok_iff (readSets_keys hsets)).1 hchoose
          simp only [hmanager, hsets, hchoose, hvideo] at h
          obtain ⟨rfl, rfl⟩ := EStateM.Result.ok.inj h
          exact ⟨manager, disc₁, sets, disc₂, choice, video, rfl, hsets, hchecked, hvideo, rfl⟩

theorem openTitle_of_managerFailed (hfails : openManager disc = .error e disc₁) :
    openTitle selection disc = .error e disc₁ := by
  simp only [openTitle_eq, hfails]

theorem openTitle_of_setsFailed (hmanager : openManager disc = .ok manager disc₁)
    (hfails : openSets manager disc₁ = .error e disc₂) :
    openTitle selection disc = .error e disc₂ := by
  simp only [openTitle_eq, hmanager, hfails]

theorem openTitle_of_refused (hmanager : openManager disc = .ok manager disc₁)
    (hsets : openSets manager disc₁ = .ok sets disc₂)
    (hrefuses : manager.choose sets selection = .error e) :
    openTitle selection disc = .error e disc₂ := by
  simp only [openTitle_eq, hmanager, hsets, hrefuses]

theorem openTitle_of_videoFailed (hmanager : openManager disc = .ok manager disc₁)
    (hsets : openSets manager disc₁ = .ok sets disc₂)
    (hchoose : manager.choose sets selection = .ok choice)
    (hfails : openVideo choice.entry.titleSet.toNat disc₂ = .error e disc₃) :
    openTitle selection disc = .error e disc₃ := by
  simp only [openTitle_eq, hmanager, hsets, hchoose, hfails]

theorem openTitle_of_opened (hmanager : openManager disc = .ok manager disc₁)
    (hsets : openSets manager disc₁ = .ok sets disc₂)
    (hchoose : manager.choose sets selection = .ok choice)
    (hvideo : openVideo choice.entry.titleSet.toNat disc₂ = .ok video disc₃) :
    openTitle selection disc =
      .ok (choice.stream selection (DvdMedium.volumeName? disc) (manager.catalog sets) video)
        disc₃ := by
  simp only [openTitle_eq, hmanager, hsets, hchoose, hvideo]

end TitleStream

end OpticalDisc
