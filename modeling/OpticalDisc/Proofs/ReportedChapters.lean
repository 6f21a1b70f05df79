import OpticalDisc.Proofs.TimeConversion
import OpticalDisc.Proofs.Bluray.TitleOpening
import OpticalDisc.Proofs.Dvd.CatalogAgreement
import OpticalDisc.Proofs.Dvd.ChapterTimeline

/-!
# Reported chapters

An open title tells its chapters in the time base of its selection. Starts and ends are converted as
they are, so that chapters which meet in ticks of the disc meet where they are reported, and the last
one meets the end of the title. Both kinds of discs are covered by what conversion does to a list of
chapters.
-/

namespace OpticalDisc

section InBase

variable {base : TimeBase} {native : List Chapter} {chapter reported : Chapter}

end InBase

def TitleChoice.chapters (choice : TitleChoice) : List Chapter :=
  choice.route.chapters choice.parts choice.route.chain.time.ticks

theorem TitleChoice.Checked.timesFit {choice : TitleChoice} {manager : VideoManager}
    {sets : TitleSets} {selection : DvdSelection} (h : choice.Checked manager sets selection)
    (hticks : (choice.route.totalTicks : Int) ≤ maxWord) :
    TimesFit choice.route.chain.time.ticks (choice.route.chapterStarts choice.parts) := by
  obtain ⟨_, _, -, hroute⟩ := Route.exists_ofChain_of_ofTitle h.resolves
  apply (Route.accepted_of_ofChain hroute).1.timesFit
  · exact Route.canonical_entry_of_ofChain hroute
  · exact PlaybackTime.ticks_le _
  · exact hticks

namespace TitleStream

open DvdMedium

variable {δ σ : Type} [DvdMedium δ σ]

end TitleStream

/-- The duration of the title and the ends of its chapters are signed words. -/
structure TitleDescription.TimesFit (info : TitleDescription) : Prop where
  duration_le : (info.duration : Int) ≤ maxWord
  end_le {mark : ChapterMark} : mark ∈ info.chapters →
    ((mark.start + mark.duration : Nat) : Int) ≤ maxWord

namespace OpenTitle

variable {β τ : Type} [BlurayMedium β]

end OpenTitle

/-- A disc that has these titles and nothing to read, with a demultiplexer that finds no streams. -/
structure ListedDisc where
  titles : List TitleDescription

instance : BlurayMedium ListedDisc where
  describeDisc := fun disc => .ok {} disc
  countTitles _ := fun disc => .ok disc.titles.length disc
  describeTitle index := fun disc => .ok (disc.titles[index]?.getD {}) disc
  chooseTitle _ := fun disc => .ok () disc
  read n := fun disc => .ok (Chunk.empty n) disc
  seek position := fun disc => .ok position disc
  position _ := 0
  length? _ := none

instance : Demultiplexer Unit (TitleBytes ListedDisc) where
  openTables := fun after => .ok {} after
  nextPacket := fun after => .ok none after

end OpticalDisc
