import OpticalDisc.Proofs.Dvd.UnchangingDiscs
import OpticalDisc.Proofs.PlaybackSeconds

/-!
# Catalogs and opened titles

Opening a title makes a catalog of its own and finds the chain of the title for itself. On an
unchanging disc that is the catalog of a scan, and the catalog says of the title what is played.
-/

namespace OpticalDisc

namespace TitleChoice

variable {σ : Type} {choice : TitleChoice} {manager : VideoManager} {sets : TitleSets}
  {selection : DvdSelection}

theorem Checked.duration_eq (h : choice.Checked manager sets selection) :
    choice.title.duration = choice.route.chain.time.ticks := by
  rw [h.title_eq]
  simp only [VideoManager.titleOf, h.chainOf?_eq, Option.elim_some]

theorem Checked.unitCount_eq (h : choice.Checked manager sets selection) :
    choice.title.unitCount = choice.route.chain.cells.length := by
  rw [h.title_eq]
  simp only [VideoManager.titleOf, h.chainOf?_eq, Option.elim_some]

/-- The ticks of a playback time never wrap. -/
theorem duration_stream (volumeName? : Option String) (catalog : Catalog) (video : σ) :
    (choice.stream selection volumeName? catalog video).duration =
      TimeBase.convert choice.route.chain.time.ticks .disc selection.timeBase := by
  rw [TitleStream.duration, stream, signedWord_of_le (PlaybackTime.ticks_le _)]

end TitleChoice

namespace TitleStream

open DvdMedium

variable {δ σ : Type} [DvdMedium δ σ] {disc later other final : δ} {selection : DvdSelection}
  {s : TitleStream σ}

/-- An open title of an unchanging disc has the catalog of every scan, is the title that this catalog
selects, and lasts as long and has as many cells as the catalog says, whatever calls have been made
before it is opened and before the disc is scanned. -/
theorem catalog_agrees (hdisc : Unchanging disc) (hlater : Reaches disc later)
    (hother : Reaches disc other) (hopened : openTitle selection later = .ok s final) :
    (∃ scanned, scan other = .ok s.catalog scanned) ∧
      s.catalog.select selection.title = .ok s.title ∧
      s.catalog.titles[s.title.index]? = some s.title ∧
      s.title.duration = s.playhead.route.chain.time.ticks ∧
      s.title.unitCount = s.playhead.route.chain.cells.length ∧
      s.duration = TimeBase.convert s.title.duration .disc selection.timeBase := by
  obtain ⟨manager, later₁, sets, later₂, choice, video, hmanager, hsets, hchecked, -, rfl⟩ :=
    openTitle_eq_ok hopened
  have htables := hdisc.tables_of_reads hlater hmanager hsets
  obtain ⟨other₁, other₂, hmanager₁, hsets₁⟩ := hdisc.reads_of_tables hother htables
  have hroute := Playhead.route_ofRoute video choice.route
  refine ⟨⟨other₂, ?_⟩, hchecked.selected, (VideoManager.select_eq_ok hchecked.selected).1, ?_, ?_,
    ?_⟩
  · exact scan_of_reads hmanager₁ hsets₁
  · exact hchecked.duration_eq.trans (by rw [TitleChoice.stream, hroute])
  · exact hchecked.unitCount_eq.trans (by rw [TitleChoice.stream, hroute])
  · rw [TitleChoice.duration_stream, ← hchecked.duration_eq]
    rfl

/-- Three titles over two title sets, the first of which is in the second title set. -/
def crossedSets : TableDisc Unit where
  manager :=
    { titleSetCount := 2
      titles := [⟨0, 1, 1, 0, 2, 1, 0⟩, ⟨0, 1, 1, 0, 1, 2, 0⟩, ⟨0, 1, 1, 0, 1, 1, 0⟩] }
  titleSet :=
    { parts := [[⟨1, 1⟩], [⟨2, 1⟩]]
      chains := some #[
        { time := ⟨0, 0, 0x40, 0x40⟩, programMap := [1], cells := [⟨0, 0, .none, {}⟩] },
        { time := ⟨0, 1, 0x30, 0x52⟩, programMap := [1], cells := [⟨1, 1, .none, {}⟩] }] }
  video := ()

/-- A scan after the title has been opened. -/
theorem catalog_agrees_crossedSets :
    ∃ s final, openTitle {} (⟨crossedSets, []⟩ : Recorded DiscCall (TableDisc Unit)) = .ok s final ∧
      final.calls = [.manager, .titleSet 1, .titleSet 2, .video 1] ∧
      (∃ scanned, scan final = .ok s.catalog scanned) ∧ s.title.index = 1 ∧
      s.duration = 90480000 := by
  have hdisc := (unchanging_tableDisc crossedSets).recorded []
  have hmanager : openManager (⟨crossedSets, []⟩ : Recorded DiscCall (TableDisc Unit)) =
      .ok crossedSets.manager ⟨crossedSets, [.manager]⟩ := rfl
  have hsets : openSets crossedSets.manager
      (⟨crossedSets, [.manager]⟩ : Recorded DiscCall (TableDisc Unit)) =
      .ok [(1, crossedSets.titleSet), (2, crossedSets.titleSet)]
        ⟨crossedSets, [.manager, .titleSet 1, .titleSet 2]⟩ := rfl
  obtain ⟨choice, hchoose, hset, hindex, hduration⟩ : ∃ choice,
      crossedSets.manager.choose [(1, crossedSets.titleSet), (2, crossedSets.titleSet)] {} =
        .ok choice ∧ choice.entry.titleSet = 1 ∧ choice.title.index = 1 ∧
      choice.title.duration = 8143200 := ⟨_, rfl, rfl, rfl, rfl⟩
  have hvideo : openVideo choice.entry.titleSet.toNat
      (⟨crossedSets, [.manager, .titleSet 1, .titleSet 2]⟩ : Recorded DiscCall (TableDisc Unit)) =
      .ok () ⟨crossedSets, [.manager, .titleSet 1, .titleSet 2, .video 1]⟩ := by
    rw [hset]
    rfl
  have hopened := openTitle_of_opened hmanager hsets hchoose hvideo
  have hfinal : Reaches (⟨crossedSets, []⟩ : Recorded DiscCall (TableDisc Unit))
      ⟨crossedSets, [.manager, .titleSet 1, .titleSet 2, .video 1]⟩ :=
    (((Reaches.start.manager).titleSet 1).titleSet 2).video 1
  obtain ⟨hscan, -, -, -, -, hconverted⟩ := catalog_agrees hdisc .start hfinal hopened
  refine ⟨_, _, hopened, rfl, hscan, hindex, ?_⟩
  rw [hconverted]
  simp only [TitleChoice.stream, hduration]
  decide

end TitleStream

end OpticalDisc
