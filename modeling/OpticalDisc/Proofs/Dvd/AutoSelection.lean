import OpticalDisc.Proofs.Dvd.TitleScan
import OpticalDisc.Proofs.LongestTitle
import OpticalDisc.Proofs.PlaybackSeconds

/-!
# The title that plays by default

Without a choice, the title that plays is the last candidate of the scan whose time is greatest in
whole seconds. The catalog takes these from the ticks: a frame byte that holds a second's worth of
frames counts as one second more, and only without such bytes are the seconds those of the time.
-/

namespace OpticalDisc

namespace VideoManager

variable {manager : VideoManager} {sets : TitleSets} {i : Nat}

def playbackTime (manager : VideoManager) (sets : TitleSets) (i : Nat) : PlaybackTime :=
  (manager.titles[i]?.bind (chainOf? sets)).elim {} (·.time)

def listed (manager : VideoManager) (sets : TitleSets) (i : Nat) : Title :=
  titleOf sets (manager.titles[i]?.getD {}) i

theorem duration_listed (hi : i ∈ (manager.catalog sets).candidates) :
    (manager.listed sets i).duration = (manager.playbackTime sets i).ticks := by
  obtain ⟨entry, chain, hentry, hchain⟩ := mem_candidates_iff.1 hi
  simp [listed, titleOf, playbackTime, hentry, hchain]

theorem getElem?_titles_of_mem (hi : i ∈ (manager.catalog sets).candidates) :
    (manager.catalog sets).titles[i]? = some (manager.listed sets i) := by
  obtain ⟨entry, _, hentry, -⟩ := mem_candidates_iff.1 hi
  simp [getElem?_titles, listed, hentry]

theorem candidateTitles_eq (manager : VideoManager) (sets : TitleSets) :
    (manager.catalog sets).candidateTitles =
      (manager.catalog sets).candidates.map (manager.listed sets) := by
  rw [Catalog.candidateTitles, ← List.filterMap_eq_map]
  exact List.filterMap_congr fun i hi => getElem?_titles_of_mem hi

/-- The default title is the last candidate that is longest in the whole seconds of its ticks. -/
theorem select_none_of_candidates (hsome : (manager.catalog sets).candidates ≠ []) :
    ∃ i, (manager.catalog sets).select none = .ok (manager.listed sets i) ∧
      IsLastMax (fun i => (manager.playbackTime sets i).ticks / discClock)
        (manager.catalog sets).candidates i := by
  rcases (manager.catalog sets).longest?_cases with ⟨hnone, -⟩ | ⟨title, hlongest, hleads⟩
  · rw [candidateTitles_eq, List.map_eq_nil_iff] at hnone
    exact absurd hnone hsome
  · have hleading := hleads.isLastMax rfl
    rw [candidateTitles_eq] at hleading
    obtain ⟨i, rfl, hmax⟩ := hleading.of_map
    refine ⟨i, ?_, hmax.congr ?_⟩
    · have hmain : (manager.catalog sets).main? = none := rfl
      simp only [Catalog.select, hmain, Option.none_or, hlongest]
    · intro j hj k hk
      have hprecision : (manager.catalog sets).precision = .wholeSeconds := rfl
      simp only [hprecision, Precision.key, duration_listed hj, duration_listed hk]

end VideoManager

namespace DvdMedium

variable {δ σ : Type} [DvdMedium δ σ] {disc disc' : δ}

/-- The default title of a disc with candidates is the last one, in the order of the scan, that is
longest when the seconds of its time and those that its frames make up are counted. Where no frame
byte makes up a second, it is the last one that is longest in seconds, or in milliseconds, of the time
itself. -/
theorem scan_select_none {catalog : Catalog} (hscan : scan disc = .ok catalog disc')
    (hsome : catalog.candidates ≠ []) :
    ∃ manager disc₁ sets title, openManager disc = .ok manager disc₁ ∧
      openSets manager disc₁ = .ok sets disc' ∧ catalog = manager.catalog sets ∧
      catalog.candidates.Pairwise manager.ScannedBefore ∧
      catalog.select none = .ok title ∧ catalog.titles[title.index]? = some title ∧
      let time := manager.playbackTime sets
      IsLastMax (fun i => (time i).seconds + (time i).frameSeconds) catalog.candidates
        title.index ∧
      ((∀ i ∈ catalog.candidates, (time i).frameSeconds = 0) →
        IsLastMax (fun i => (time i).seconds) catalog.candidates title.index ∧
        IsLastMax (fun i => (time i).milliseconds) catalog.candidates title.index) := by
  obtain ⟨manager, disc₁, sets, hmanager, hsets, rfl⟩ := scan_eq_ok hscan
  obtain ⟨i, hselect, hmax⟩ := VideoManager.select_none_of_candidates hsome
  simp only [PlaybackTime.ticks_div] at hmax
  refine ⟨manager, disc₁, sets, manager.listed sets i, hmanager, hsets, rfl,
    VideoManager.pairwise_candidates (readSets_keys hsets), hselect,
    VideoManager.getElem?_titles_of_mem hmax.mem, hmax, ?_⟩
  intro hframes
  constructor
  · apply hmax.congr
    intro j hj k hk
    rw [hframes j hj, hframes k hk, Nat.add_zero, Nat.add_zero]
  · apply hmax.congr
    intro j hj k hk
    rw [hframes j hj, hframes k hk]
    unfold PlaybackTime.milliseconds
    omega

/-- Two titles of twenty seconds, one of them with a malformed time, of which the first is in the
second title set. -/
def twoSets : TitleStream.TableDisc Unit where
  manager := { titleSetCount := 2, titles := [⟨0, 1, 1, 0, 2, 1, 0⟩, ⟨0, 1, 1, 0, 1, 2, 0⟩] }
  titleSet :=
    { parts := [[⟨1, 1⟩], [⟨2, 1⟩]]
      chains := some #[
        { time := ⟨0, 0, 0x1A, 0x40⟩, programMap := [1], cells := [⟨0, 0, .none, {}⟩] },
        { time := ⟨0, 0, 0x20, 0x64⟩, programMap := [1], cells := [⟨1, 1, .none, {}⟩] }] }
  video := ()

/-- The second title set is scanned last. -/
theorem scan_select_none_twoSets :
    ∃ catalog title, scan twoSets = .ok catalog twoSets ∧ catalog.candidates = [1, 0] ∧
      catalog.select none = .ok title ∧
      IsLastMax (fun i => (twoSets.manager.playbackTime
        [(1, twoSets.titleSet), (2, twoSets.titleSet)] i).seconds) [1, 0] title.index := by
  have hscan : scan twoSets =
      .ok (twoSets.manager.catalog [(1, twoSets.titleSet), (2, twoSets.titleSet)]) twoSets := rfl
  have hcandidates : (twoSets.manager.catalog
      [(1, twoSets.titleSet), (2, twoSets.titleSet)]).candidates = [1, 0] := by decide +kernel
  have hsome : (twoSets.manager.catalog
      [(1, twoSets.titleSet), (2, twoSets.titleSet)]).candidates ≠ [] := by simp [hcandidates]
  obtain ⟨manager, _, sets, title, hmanager, hsets, -, -, hselect, -, -, hseconds⟩ :=
    scan_select_none hscan hsome
  obtain ⟨rfl, rfl⟩ := EStateM.Result.ok.inj hmanager
  obtain ⟨rfl, -⟩ := EStateM.Result.ok.inj hsets
  refine ⟨_, title, hscan, hcandidates, hselect, ?_⟩
  have hframes := hseconds (by decide +kernel)
  rw [← hcandidates]
  exact hframes.1

/-- Two titles of ten seconds, the first of which has 25 frames at 25 a second too. -/
def fullFrames : TitleStream.TableDisc Unit where
  manager := { titleSetCount := 1, titles := [⟨0, 1, 1, 0, 1, 1, 0⟩, ⟨0, 1, 1, 0, 1, 2, 0⟩] }
  titleSet :=
    { parts := [[⟨1, 1⟩], [⟨2, 1⟩]]
      chains := some #[
        { time := ⟨0, 0, 0x10, 0x65⟩, programMap := [1], cells := [⟨0, 0, .none, {}⟩] },
        { time := ⟨0, 0, 0x10, 0x40⟩, programMap := [1], cells := [⟨1, 1, .none, {}⟩] }] }
  video := ()

/-- The title with the frames is chosen, though the other one is as long in seconds and comes later. -/
theorem scan_counts_full_frames :
    ∃ catalog title, scan fullFrames = .ok catalog fullFrames ∧ catalog.candidates = [0, 1] ∧
      catalog.select none = .ok title ∧ title.index = 0 ∧
      ¬ IsLastMax (fun i => (fullFrames.manager.playbackTime
        [(1, fullFrames.titleSet)] i).seconds) catalog.candidates title.index := by
  have hcandidates : (fullFrames.manager.catalog [(1, fullFrames.titleSet)]).candidates =
      [0, 1] := by decide +kernel
  refine ⟨fullFrames.manager.catalog [(1, fullFrames.titleSet)],
    fullFrames.manager.listed [(1, fullFrames.titleSet)] 0, rfl, hcandidates, by decide +kernel,
    rfl, ?_⟩
  rw [hcandidates]
  intro hfirst
  have hsecond : IsLastMax (fun i => (fullFrames.manager.playbackTime
      [(1, fullFrames.titleSet)] i).seconds) [0, 1] 1 :=
    ⟨[0], [], rfl, by decide +kernel, by simp⟩
  exact absurd (hfirst.unique hsecond) (by decide)

end DvdMedium

end OpticalDisc
