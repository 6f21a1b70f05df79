import OpticalDisc.Proofs.CallRecords
import OpticalDisc.Proofs.Dvd.TitleChoice

/-!
# The calls that opening a title makes

A recorded disc answers like the disc inside and writes down every call, also those that fail.
Opening a title asks it for the manager, for the title sets that titles refer to until one of them
fails, and, once the choice is made, for the video of the chosen title. Each call is made once, and
what is opened has not been read from.
-/

namespace OpticalDisc

/-- A call on a disc. -/
inductive DiscCall
  | manager
  | titleSet (number : Nat)
  | video (number : Nat)
  deriving DecidableEq, Repr

open Recorded in
instance {δ σ : Type} [DvdMedium δ σ] : DvdMedium (Recorded DiscCall δ) σ where
  volumeName? recorded := DvdMedium.volumeName? recorded.inner
  openManager := record .manager DvdMedium.openManager
  openTitleSet number := record (.titleSet number) (DvdMedium.openTitleSet number)
  openVideo number := record (.video number) (DvdMedium.openVideo number)

namespace DvdMedium

open Recorded

variable {δ σ : Type} [DvdMedium δ σ]

/-- Title sets are read one after the other, up to the first one that fails. -/
theorem readSets_cases (numbers : List Nat) (disc : δ) (calls : List DiscCall) :
    (∃ sets disc', readSets numbers disc = .ok sets disc' ∧
      readSets numbers (⟨disc, calls⟩ : Recorded DiscCall δ) =
        .ok sets ⟨disc', calls ++ numbers.map .titleSet⟩) ∨
    ∃ before number after sets disc₁ e disc₂, numbers = before ++ number :: after ∧
      readSets before disc = .ok sets disc₁ ∧ openTitleSet number disc₁ = .error e disc₂ ∧
      readSets numbers disc = .error e disc₂ ∧
      readSets numbers (⟨disc, calls⟩ : Recorded DiscCall δ) =
        .error e ⟨disc₂, calls ++ (before ++ [number]).map .titleSet⟩ := by
  induction numbers generalizing disc calls with
  | nil => exact .inl ⟨[], disc, rfl, by rw [List.map_nil, List.append_nil, readSets_nil]⟩
  | cons number rest ih =>
    cases hopen : openTitleSet number disc with
    | error e disc₁ =>
      have hcall : openTitleSet number (⟨disc, calls⟩ : Recorded DiscCall δ) = _ :=
        record_of_error hopen calls
      refine .inr ⟨[], number, rest, [], disc, e, disc₁, rfl, rfl, hopen, ?_, ?_⟩
      · rw [readSets_cons, hopen]
      · rw [readSets_cons, hcall]
        rfl
    | ok set disc₁ =>
      have hcall : openTitleSet number (⟨disc, calls⟩ : Recorded DiscCall δ) = _ :=
        record_of_ok hopen calls
      rcases ih disc₁ (calls ++ [.titleSet number]) with
        ⟨sets, disc', hread, hrecorded⟩ |
        ⟨before, failing, after, sets, disc₂, e, disc₃, rfl, hbefore, hfails, hread, hrecorded⟩
      · refine .inl ⟨(number, set) :: sets, disc', ?_, ?_⟩
        · simp only [readSets_cons, hopen, hread]
        · simp only [readSets_cons, hcall, hrecorded, List.map_cons, List.append_assoc,
            List.singleton_append]
      · refine .inr ⟨number :: before, failing, after, (number, set) :: sets, disc₂, e, disc₃, rfl,
          ?_, hfails, ?_, ?_⟩
        · simp only [readSets_cons, hopen, hbefore]
        · simp only [readSets_cons, hopen, hread]
        · simp only [readSets_cons, hcall, hrecorded, List.cons_append, List.map_cons,
            List.append_assoc, List.nil_append]

end DvdMedium

namespace TitleStream

open DvdMedium Recorded

variable {δ σ : Type} [DvdMedium δ σ]

/-- How opening a title ends, and the calls that it has made by then. -/
inductive Opening (selection : DvdSelection) (disc : δ) :
    EStateM.Result Error δ (TitleStream σ) → List DiscCall → Prop
  /-- No manager, and nothing else is asked for. -/
  | managerFailed {e : Error} {disc₁ : δ} (hfails : openManager disc = .error e disc₁) :
    Opening selection disc (.error e disc₁) [.manager]
  /-- No title set is asked for after one that fails. -/
  | titleSetFailed {manager : VideoManager} {before after : List Nat} {number : Nat}
    {sets : TitleSets} {e : Error} {disc₁ disc₂ disc₃ : δ}
    (hmanager : openManager disc = .ok manager disc₁)
    (hrefers : manager.Refers (before ++ number :: after))
    (hbefore : readSets before disc₁ = .ok sets disc₂)
    (hfails : openTitleSet number disc₂ = .error e disc₃) :
    Opening selection disc (.error e disc₃) (.manager :: (before ++ [number]).map .titleSet)
  /-- The tables are read, and the choice fails: no video is opened. -/
  | refused {manager : VideoManager} {numbers : List Nat} {sets : TitleSets} {e : Error}
    {disc₁ disc₂ : δ} (hmanager : openManager disc = .ok manager disc₁)
    (hrefers : manager.Refers numbers) (hsets : readSets numbers disc₁ = .ok sets disc₂)
    (hrefuses : manager.choose sets selection = .error e) :
    Opening selection disc (.error e disc₂) (.manager :: numbers.map .titleSet)
  /-- The choice is made and its video fails to open. -/
  | videoFailed {manager : VideoManager} {numbers : List Nat} {sets : TitleSets}
    {choice : TitleChoice} {e : Error} {disc₁ disc₂ disc₃ : δ}
    (hmanager : openManager disc = .ok manager disc₁) (hrefers : manager.Refers numbers)
    (hsets : readSets numbers disc₁ = .ok sets disc₂)
    (hchoice : choice.Checked manager sets selection)
    (hfails : openVideo choice.entry.titleSet.toNat disc₂ = .error e disc₃) :
    Opening selection disc (.error e disc₃)
      (.manager :: numbers.map .titleSet ++ [.video choice.entry.titleSet.toNat])
  /-- The video is in the state in which it was opened. -/
  | opened {manager : VideoManager} {numbers : List Nat} {sets : TitleSets}
    {choice : TitleChoice} {video : σ} {s : TitleStream σ} {disc₁ disc₂ disc₃ : δ}
    (hmanager : openManager disc = .ok manager disc₁) (hrefers : manager.Refers numbers)
    (hsets : readSets numbers disc₁ = .ok sets disc₂)
    (hchoice : choice.Checked manager sets selection)
    (hvideo : openVideo choice.entry.titleSet.toNat disc₂ = .ok video disc₃)
    (htitle : s.title = choice.title) (hunread : s.playhead.device = video) :
    Opening selection disc (.ok s disc₃)
      (.manager :: numbers.map .titleSet ++ [.video choice.entry.titleSet.toNat])

theorem Opening.fails_in_video {selection : DvdSelection} {disc disc' : δ} {e : Error}
    {calls : List DiscCall} {number : Nat} (h : Opening selection disc (.error e disc') calls)
    (hcall : .video number ∈ calls) :
    ∃ disc₁ : δ, openVideo number disc₁ = .error e disc' := by
  cases h with
  | managerFailed => simp at hcall
  | titleSetFailed => simp at hcall
  | refused => simp at hcall
  | videoFailed _ _ _ _ hfails =>
    obtain rfl : number = _ := by simpa using hcall
    exact ⟨_, hfails⟩

/-- Opening a recorded title follows the plain one, and ends in one of these ways. -/
theorem exists_opening (selection : DvdSelection) (disc : δ) :
    ∃ calls, openTitle selection (⟨disc, []⟩ : Recorded DiscCall δ) =
        answered calls (openTitle selection disc) ∧
      Opening selection disc (openTitle selection disc) calls := by
  cases hmanager : openManager disc with
  | error e disc₁ =>
    have hcall : openManager (⟨disc, []⟩ : Recorded DiscCall δ) = _ := record_of_error hmanager []
    rw [openTitle_of_managerFailed hcall, openTitle_of_managerFailed hmanager]
    exact ⟨_, rfl, .managerFailed hmanager⟩
  | ok manager disc₁ =>
    have hcall : openManager (⟨disc, []⟩ : Recorded DiscCall δ) = _ := record_of_ok hmanager []
    have hrefers := manager.refers_referencedSets
    rcases readSets_cases manager.referencedSets disc₁ [.manager] with
      ⟨sets, disc₂, hsets, hrecorded⟩ |
      ⟨before, number, after, sets, disc₂, e, disc₃, hnumbers, hbefore, hfails, hread, hrecorded⟩
    · cases hchoose : manager.choose sets selection with
      | error e =>
        rw [openTitle_of_refused hcall hrecorded hchoose,
          openTitle_of_refused hmanager hsets hchoose]
        exact ⟨_, rfl, .refused hmanager hrefers hsets hchoose⟩
      | ok choice =>
        have hchecked := (VideoManager.choose_eq_ok_iff (readSets_keys hsets)).1 hchoose
        cases hvideo : openVideo choice.entry.titleSet.toNat disc₂ with
        | error e disc₃ =>
          rw [openTitle_of_videoFailed hcall hrecorded hchoose (record_of_error hvideo _),
            openTitle_of_videoFailed hmanager hsets hchoose hvideo]
          exact ⟨_, rfl, .videoFailed hmanager hrefers hsets hchecked hvideo⟩
        | ok video disc₃ =>
          rw [openTitle_of_opened hcall hrecorded hchoose (record_of_ok hvideo _),
            openTitle_of_opened hmanager hsets hchoose hvideo]
          exact ⟨_, rfl, .opened hmanager hrefers hsets hchecked hvideo rfl
            (Playhead.device_ofRoute video choice.route)⟩
    · rw [openTitle_of_setsFailed hcall hrecorded, openTitle_of_setsFailed hmanager hread]
      rw [hnumbers] at hrefers
      exact ⟨_, rfl, .titleSetFailed hmanager hrefers hbefore hfails⟩

/-- The calls that opening a title makes, on every disc and however it ends: the manager, the title
sets up to the first one that fails, and then the video of the title whose choice has been made. -/
theorem openTitle_calls (selection : DvdSelection) (disc : δ) :
    ∃ calls, openTitle selection (⟨disc, []⟩ : Recorded DiscCall δ) =
        answered calls (openTitle selection disc) ∧
      Opening selection disc (openTitle selection disc) calls ∧
      ∀ e disc' number, openTitle selection disc = .error e disc' → .video number ∈ calls →
        ∃ disc₁ : δ, openVideo number disc₁ = .error e disc' := by
  obtain ⟨calls, hrun, hopening⟩ := exists_opening selection disc
  refine ⟨calls, hrun, hopening, ?_⟩
  intro e disc' number hfails hvideo
  rw [hfails] at hopening
  exact hopening.fails_in_video hvideo

end TitleStream

end OpticalDisc
