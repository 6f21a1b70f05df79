import OpticalDisc.Proofs.Bluray.TitleOpening
import OpticalDisc.Proofs.Dvd.StreamRefinement
import OpticalDisc.Proofs.ReportedChapters
import OpticalDisc.Proofs.Storage.JoinedFile

/-!
# Seeks on all streams of bytes

Three streams answer seeks: the titles of both kinds of disc, and the joined video files of a title. On
each of them a seek from the current position or from the end is the seek to the place that it names, and
one that names no position is refused and leaves no trace. On a disc that seeks by itself, the first is
one call and the other none.
-/

namespace OpticalDisc

/-- The place that a target names in a stream, whose length may be unknown. -/
def SeekTarget.placeIn? (position : Nat) (length? : Option Nat) : SeekTarget → Option Int
  | start target => some target
  | current offset => some (position + offset)
  | fromEnd offset => length?.map fun length : Nat => (length : Int) + offset

section Place

variable {target : SeekTarget} {position : Nat} {length? : Option Nat}

theorem SeekTarget.place_eq {place : Int} (h : target.placeIn? position length? = some place) :
    target.place position (length?.getD 0) = place := by
  cases target with
  | start target => exact Option.some.inj h
  | current offset => exact Option.some.inj h
  | fromEnd offset =>
    obtain ⟨length, rfl, hplace⟩ := Option.map_eq_some_iff.1 h
    exact hplace

theorem SeekTarget.resolve?_of_placeIn? {place : Nat}
    (h : target.placeIn? position length? = some (place : Int)) (hlt : place < UInt64.size) :
    target.resolve? position (length?.getD 0) = some place := by
  have hword : (ByteRequest.seek target).IsWord := by
    cases target with
    | start target =>
      obtain rfl := Int.ofNat_inj.1 (Option.some.inj h)
      exact hlt
    | current offset => trivial
    | fromEnd offset => trivial
  cases hresolve : target.resolve? position (length?.getD 0) with
  | some reached =>
    have hreached := SeekTarget.resolve?_eq_some hresolve
    rw [place_eq h, Int.ofNat_inj] at hreached
    rw [hreached]
  | none =>
    have houtside := (SeekTarget.resolve?_eq_none_iff hword).1 hresolve
    rw [place_eq h] at houtside
    omega

theorem SeekTarget.resolve?_of_outside {place : Int} (hword : (ByteRequest.seek target).IsWord)
    (h : target.placeIn? position length? = some place)
    (houtside : place < 0 ∨ (UInt64.size : Int) ≤ place) :
    target.resolve? position (length?.getD 0) = none := by
  rw [SeekTarget.resolve?_eq_none_iff hword, place_eq h]
  exact houtside

end Place

section SeeksAlike

variable {ρ : Type} [SeekableBytes ρ] {s : ρ} {position : Nat} {length? : Option Nat}

/-- A seek fails with an error of this kind, and all that is asked later is answered as without it. -/
def Refused (s : ρ) (target : SeekTarget) (kind : IoKind) : Prop :=
  ∃ e : IoError, e.kind = kind ∧ ∀ later : List ByteRequest,
    performAll s (.seek target :: later) =
      (.failed e :: (performAll s later).1, (performAll s later).2)

/-- How a stream at a position answers seeks. Those to one place, wherever they are measured from, have
the same answer and the same effect on all that is asked later. -/
structure SeeksAlike (s : ρ) (position : Nat) (length? : Option Nat) : Prop where
  reached {target : SeekTarget} {place : Nat} :
    target.placeIn? position length? = some (place : Int) → place < UInt64.size →
    ∀ later : List ByteRequest,
      performAll s (.seek target :: later) = performAll s (.seek (.start place) :: later)
  refused {target : SeekTarget} {place : Int} : (ByteRequest.seek target).IsWord →
    target.placeIn? position length? = some place → place < 0 ∨ (UInt64.size : Int) ≤ place →
    Refused s target .invalidInput
  unsized {target : SeekTarget} : target.placeIn? position length? = none →
    Refused s target .unsupported

theorem refused_of_seek {target : SeekTarget} {e : IoError} {kind : IoKind} (hkind : e.kind = kind)
    (h : SeekableBytes.seek target s = .error e s) : Refused s target kind := by
  refine ⟨e, hkind, ?_⟩
  intro later
  rw [performAll_cons, perform_seek_of_error h]

/-- A stream that resolves the target of a seek first, and then goes to the position or refuses. -/
structure ResolvesFirst (s : ρ) (position : Nat) (length? : Option Nat)
    (goTo : Nat → EStateM.Result IoError ρ Nat) (refusal : IoError) : Prop where
  kind_refusal : refusal.kind = .invalidInput
  placed {target : SeekTarget} {place : Int} : target.placeIn? position length? = some place →
    SeekableBytes.seek target s =
      (target.resolve? position (length?.getD 0)).elim (.error refusal s) goTo
  unplaced {target : SeekTarget} : target.placeIn? position length? = none →
    ∃ e : IoError, e.kind = .unsupported ∧ SeekableBytes.seek target s = .error e s

theorem resolvesFirst_of_length {length : Nat} {goTo : Nat → EStateM.Result IoError ρ Nat}
    {refusal : IoError} (hkind : refusal.kind = .invalidInput)
    (hsome : ∀ {target place}, target.resolve? position length = some place →
      SeekableBytes.seek target s = goTo place)
    (hnone : ∀ {target}, target.resolve? position length = none →
      SeekableBytes.seek target s = .error refusal s) :
    ResolvesFirst s position (some length) goTo refusal where
  kind_refusal := hkind
  placed {target _} _ := by
    rw [Option.getD_some]
    cases hresolve : target.resolve? position length with
    | some place => exact hsome hresolve
    | none => exact hnone hresolve
  unplaced {target} hnowhere := by
    cases target <;> simp [SeekTarget.placeIn?] at hnowhere

namespace ResolvesFirst

variable {goTo : Nat → EStateM.Result IoError ρ Nat} {refusal : IoError}
  (h : ResolvesFirst s position length? goTo refusal)
include h

theorem seek_of_place {target : SeekTarget} {place : Nat}
    (hplace : target.placeIn? position length? = some (place : Int)) (hlt : place < UInt64.size) :
    SeekableBytes.seek target s = goTo place := by
  rw [h.placed hplace, SeekTarget.resolve?_of_placeIn? hplace hlt, Option.elim_some]

theorem seek_of_outside {target : SeekTarget} {place : Int}
    (hword : (ByteRequest.seek target).IsWord) (hplace : target.placeIn? position length? = some place)
    (houtside : place < 0 ∨ (UInt64.size : Int) ≤ place) :
    SeekableBytes.seek target s = .error refusal s := by
  rw [h.placed hplace, SeekTarget.resolve?_of_outside hword hplace houtside, Option.elim_none]

theorem seeksAlike : SeeksAlike s position length? where
  reached {target place} hplace hlt later := by
    have hstart : (SeekTarget.start place).placeIn? position length? = some (place : Int) := rfl
    simp only [performAll_cons, ByteRequest.perform, h.seek_of_place hplace hlt,
      h.seek_of_place hstart hlt]
  refused hword hplace houtside :=
    refused_of_seek h.kind_refusal (h.seek_of_outside hword hplace houtside)
  unsized hnone := by
    obtain ⟨e, hkind, hseek⟩ := h.unplaced hnone
    exact refused_of_seek hkind hseek

end ResolvesFirst

end SeeksAlike

/-- Where the answer to a request leaves a caller that was at a position. -/
def ByteAnswer.after (place : Nat) : ByteAnswer → Nat
  | bytes found => place + found.size
  | position reached => reached
  | failed _ => place

/-- Where these answers leave a caller that has started at the first byte. -/
def callerPosition (answers : List ByteAnswer) : Nat :=
  answers.foldl ByteAnswer.after 0

theorem position_performAll {ρ : Type} [SeekableBytes ρ] (position : ρ → Nat)
    (hstep : ∀ (s : ρ) (request : ByteRequest),
      position (request.perform s).2 = (request.perform s).1.after (position s))
    (s : ρ) (requests : List ByteRequest) :
    position (performAll s requests).2 =
      (performAll s requests).1.foldl ByteAnswer.after (position s) := by
  induction requests generalizing s with
  | nil => rfl
  | cons request rest ih => rw [performAll_cons, ih, hstep, List.foldl_cons]

namespace TitleStream

variable {σ : Type} [SectorDevice σ]

theorem position_refill (s : TitleStream σ) : (stateAfter (refill s)).position = s.position := by
  fun_induction refill s with
  | case1 => rfl
  | case2 => rfl
  | case3 => rfl
  | case4 => rfl
  | case5 => assumption

/-- A read moves a title stream on by the bytes that it brings, and a seek takes it to its answer. -/
theorem position_perform (s : TitleStream σ) (request : ByteRequest) :
    (request.perform s).2.position = (request.perform s).1.after s.position := by
  cases request with
  | read n =>
    have hrefill := position_refill s
    by_cases hn : n = 0
    · subst hn
      rfl
    · cases hresult : refill s with
      | error e s' =>
        have hread : SeekableBytes.read n s = .error e.toIo s' := by
          simp only [SeekableBytes.read, read, if_neg hn, hresult]
        rw [hresult] at hrefill
        rw [perform_read_of_error hread]
        exact hrefill
      | ok _ s' =>
        have hread : read n s = deliver n s' := by
          simp only [read, if_neg hn, hresult]
          rfl
        rw [hresult] at hrefill
        rw [Aligned.perform_of_delivered hread]
        simp only [ByteAnswer.after, size_next, delivered]
        rw [← hrefill]
        rfl
  | seek target =>
    cases hresolve : target.resolve? s.position s.length with
    | some place => rw [perform_seek_of_ok (seek_of_some hresolve)]; rfl
    | none => rw [perform_seek_of_error (seek_of_none hresolve)]; rfl

theorem resolvesFirst (s : TitleStream σ) :
    ResolvesFirst s s.position (some s.length) (fun place => .ok place (s.sought place))
      (.reported .invalidInput "seek before start of title") :=
  resolvesFirst_of_length rfl seek_of_some seek_of_none

end TitleStream

namespace JoinedStore

variable {ρ : Type} [SeekableBytes ρ]

theorem position_perform (s : JoinedStore ρ) (request : ByteRequest) :
    (request.perform s).2.position = (request.perform s).1.after s.position := by
  cases request with
  | read n =>
    rcases s.read_cases n with ⟨-, hread⟩ | ⟨before, part, after, -, hcase⟩
    · rw [perform_read_of_ok hread]
      rfl
    · rcases hcase with ⟨chunk, store, -, hread⟩ | ⟨e, store, -, hread⟩
      · rw [perform_read_of_ok hread]
        rfl
      · rw [perform_read_of_error hread]
        rfl
  | seek target =>
    cases hresolve : target.resolve? s.position s.length with
    | some place => rw [perform_seek_of_ok (seek_of_resolve?_eq_some hresolve)]; rfl
    | none => rw [perform_seek_of_error (seek_of_resolve?_eq_none hresolve)]; rfl

theorem position_of_join {stores : List ρ} {joined : JoinedStore ρ}
    (h : join stores = .ok joined) : joined.position = 0 := by
  unfold join at h
  cases hparts : stores.mapM measure with
  | error cause => simp [hparts, bind, Except.bind] at h
  | ok parts =>
    simp only [hparts, bind, Except.bind, pure, Except.pure, Except.ok.injEq] at h
    rw [← h]

theorem resolvesFirst (s : JoinedStore ρ) :
    ResolvesFirst s s.position (some s.length) (fun place => .ok place { s with position := place })
      (.reported .invalidInput "seek before start of VOB set") :=
  resolvesFirst_of_length rfl seek_of_resolve?_eq_some seek_of_resolve?_eq_none

end JoinedStore

namespace TitleBytes

variable {β : Type} [BlurayMedium β] {target : SeekTarget}

def passedOn : EStateM.Result Error β Nat → EStateM.Result IoError (TitleBytes β) Nat
  | .ok reached disc => .ok reached ⟨disc⟩
  | .error e disc => .error e.toIo ⟨disc⟩

theorem seek_of_resolve_ok {s : TitleBytes β} {place : Nat} (h : resolve target s.disc = .ok place) :
    seek target s = passedOn (BlurayMedium.seek place s.disc) := by
  simp only [seek, h]
  cases BlurayMedium.seek place s.disc <;> rfl

theorem seek_of_resolve_error {s : TitleBytes β} {e : IoError}
    (h : resolve target s.disc = .error e) : seek target s = .error e s := by
  simp only [seek, h]

theorem resolve_of_placeIn? {disc : β} {place : Int}
    (h : target.placeIn? (BlurayMedium.position disc) (BlurayMedium.length? disc) = some place) :
    resolve target disc =
      (target.resolve? (BlurayMedium.position disc) ((BlurayMedium.length? disc).getD 0)).elim
        (.error (.reported .invalidInput "seek before start of title")) .ok := by
  cases target with
  | start target => rfl
  | current offset => rfl
  | fromEnd offset =>
    obtain ⟨length, hlength, -⟩ := Option.map_eq_some_iff.1 h
    simp only [resolve, hlength]
    rfl

theorem resolvesFirst (s : TitleBytes β) :
    ResolvesFirst s (BlurayMedium.position s.disc) (BlurayMedium.length? s.disc)
      (fun place => passedOn (BlurayMedium.seek place s.disc))
      (.reported .invalidInput "seek before start of title") where
  kind_refusal := rfl
  placed {target place} hplace := by
    have hresolve := resolve_of_placeIn? hplace
    cases hfound : target.resolve? (BlurayMedium.position s.disc)
        ((BlurayMedium.length? s.disc).getD 0) with
    | some found =>
      rw [hfound] at hresolve
      exact seek_of_resolve_ok hresolve
    | none =>
      rw [hfound] at hresolve
      exact seek_of_resolve_error hresolve
  unplaced {target} hnone := by
    cases target with
    | start target => simp [SeekTarget.placeIn?] at hnone
    | current offset => simp [SeekTarget.placeIn?] at hnone
    | fromEnd offset =>
      have hlength := Option.map_eq_none_iff.1 hnone
      have hresolve : resolve (.fromEnd offset) s.disc =
          .error (Error.unsupported "seek from end: title size unknown").toIo := by
        simp only [resolve, hlength]
      exact ⟨_, rfl, seek_of_resolve_error hresolve⟩

/-- The calls that seeks of a stream make on its disc. A seek to a position is one seek of the disc to it,
and what the disc answers is the answer. A seek that is refused calls nothing. -/
structure AsksOnce (disc : Recorded MediumCall β) : Prop where
  asked {target : SeekTarget} {place : Nat} :
    target.placeIn? (BlurayMedium.position disc.inner) (BlurayMedium.length? disc.inner) =
      some (place : Int) → place < UInt64.size →
    seek target ⟨disc⟩ =
      passedOn (Recorded.answered (disc.calls ++ [.seek place]) (BlurayMedium.seek place disc.inner))
  unasked {target : SeekTarget} : (ByteRequest.seek target).IsWord →
    (∀ place : Nat, place < UInt64.size →
      target.placeIn? (BlurayMedium.position disc.inner) (BlurayMedium.length? disc.inner) ≠
        some (place : Int)) →
    ∃ e, seek target ⟨disc⟩ = .error e ⟨disc⟩

theorem asksOnce (disc : Recorded MediumCall β) : AsksOnce disc where
  asked hplace hlt := (resolvesFirst ⟨disc⟩).seek_of_place hplace hlt
  unasked {target} hword hnowhere := by
    cases hplace : target.placeIn? (BlurayMedium.position disc.inner)
        (BlurayMedium.length? disc.inner) with
    | none =>
      obtain ⟨e, -, hseek⟩ := (resolvesFirst ⟨disc⟩).unplaced hplace
      exact ⟨e, hseek⟩
    | some place =>
      refine ⟨_, (resolvesFirst ⟨disc⟩).seek_of_outside hword hplace ?_⟩
      by_contra hinside
      refine hnowhere place.toNat (by omega) (hplace.trans (congrArg some ?_))
      omega

end TitleBytes

/-- On all streams of bytes, and in every state that requests lead to, seeks to one place are alike, and
refused seeks leave no trace. On a disc that seeks by itself, the first are one call and the others
none. -/
theorem seeks_alike :
    (∀ {δ σ : Type} [DvdMedium δ σ] [SectorDevice σ] (selection : DvdSelection) (disc disc' : δ)
      (opened : TitleStream σ) (earlier : List ByteRequest),
      TitleStream.openTitle selection disc = .ok opened disc' →
      let (answers, s) := performAll opened earlier
      SeeksAlike s (callerPosition answers) (StreamedBytes.size? s)) ∧
    (∀ {ρ : Type} [SeekableBytes ρ] (stores : List ρ) (joined : JoinedStore ρ)
      (earlier : List ByteRequest), JoinedStore.join stores = .ok joined →
      let (answers, s) := performAll joined earlier
      SeeksAlike s (callerPosition answers) (some s.length)) ∧
    ∀ {β : Type} [BlurayMedium β],
      (∀ s : TitleBytes β,
        SeeksAlike s (BlurayMedium.position s.disc) (BlurayMedium.length? s.disc)) ∧
      ∀ disc : Recorded MediumCall β, TitleBytes.AsksOnce disc := by
  refine ⟨?_, ?_, ?_⟩
  · intro δ σ _ _ selection disc disc' opened earlier hopen
    obtain ⟨route, video, hfresh⟩ := TitleStream.fresh_of_openTitle hopen
    have hposition := position_performAll TitleStream.position TitleStream.position_perform opened
      earlier
    rw [hfresh.position_eq] at hposition
    have halike := (performAll opened earlier).2.resolvesFirst.seeksAlike
    rwa [hposition] at halike
  · intro ρ _ stores joined earlier hjoin
    have hposition := position_performAll JoinedStore.position JoinedStore.position_perform joined
      earlier
    rw [JoinedStore.position_of_join hjoin] at hposition
    have halike := (performAll joined earlier).2.resolvesFirst.seeksAlike
    rwa [hposition] at halike
  · intro β _
    exact ⟨fun s => s.resolvesFirst.seeksAlike, TitleBytes.asksOnce⟩

/-- Seeks of a title stream and of joined stores that are between their ends, and of a disc whose length
is unknown. -/
theorem seeks_alike_midway :
    (∃ opened disc' s, TitleStream.openTitle {} TitleStream.repeatingDisc = .ok opened disc' ∧
      s = (performAll opened [.read 5, .seek (.start 5)]).2 ∧
      performAll s [.seek (.current (-2)), .read 4] = performAll s [.seek (.start 3), .read 4] ∧
      Refused s (.current (-6)) .invalidInput) ∧
    (∃ joined s, JoinedStore.join [MemoryStore.mk ⟨#[1, 2]⟩ 0, ⟨⟨#[3, 4, 5]⟩, 0⟩] = .ok joined ∧
      s = (performAll joined [.read 1]).2 ∧
      performAll s [.seek (.fromEnd (-3)), .read 8] = performAll s [.seek (.start 2), .read 8] ∧
      Refused s (.current (-2)) .invalidInput) ∧
    Refused (TitleBytes.mk (ListedDisc.mk [])) (.fromEnd 0) .unsupported ∧
    TitleBytes.seek (.current 7) (TitleBytes.mk (Recorded.mk (ListedDisc.mk []) [])) =
      .ok 7 ⟨⟨ListedDisc.mk [], [MediumCall.seek 7]⟩⟩ := by
  obtain ⟨hdvd, hjoined, hbluray⟩ := seeks_alike
  refine ⟨?_, ?_, ?_, ?_⟩
  · obtain ⟨opened, disc', hopen, hposition⟩ : ∃ opened disc',
        TitleStream.openTitle {} TitleStream.repeatingDisc = .ok opened disc' ∧
        callerPosition (performAll opened [.read 5, .seek (.start 5)]).1 = 5 := ⟨_, _, rfl, rfl⟩
    have halike := hdvd {} _ _ opened [.read 5, .seek (.start 5)] hopen
    simp only [hposition] at halike
    exact ⟨opened, disc', _, hopen, rfl, halike.reached rfl (by decide) _,
      halike.refused trivial rfl (.inl (by decide))⟩
  · obtain ⟨joined, hjoin, hposition, hlength⟩ : ∃ joined,
        JoinedStore.join [MemoryStore.mk ⟨#[1, 2]⟩ 0, ⟨⟨#[3, 4, 5]⟩, 0⟩] = .ok joined ∧
        callerPosition (performAll joined [.read 1]).1 = 1 ∧
        (performAll joined [.read 1]).2.length = 5 :=
      ⟨_, rfl, by decide +kernel, by decide +kernel⟩
    have halike := hjoined _ joined [.read 1] hjoin
    simp only [hposition, hlength] at halike
    exact ⟨joined, _, hjoin, rfl, halike.reached rfl (by decide) _,
      halike.refused trivial rfl (.inl (by decide))⟩
  · exact (hbluray.1 (TitleBytes.mk (ListedDisc.mk []))).unsized rfl
  · exact (hbluray.2 (Recorded.mk (ListedDisc.mk []) [])).asked rfl (by decide)

end OpticalDisc
