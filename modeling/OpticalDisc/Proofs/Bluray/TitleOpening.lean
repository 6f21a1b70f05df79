import OpticalDisc.Proofs.Bluray.TitleListing
import OpticalDisc.Proofs.CallRecords

/-!
# The calls that opening a Blu-ray title makes

Opening a title asks the disc for its description, for the number of its titles and for the
description of each, selects one of them, asks for its description once more, and opens the
demultiplexer on the stream of the disc that is left by then. It ends with the first of these calls
that fails, or with a choice that cannot be made, and makes no call after that.
-/

namespace OpticalDisc

open TitleDescription (entries)

/-- A call on a disc, or on a demultiplexer with the stream of the disc. -/
inductive MediumCall
  | describeDisc
  | countTitles (minSeconds : Nat)
  | describeTitle (index : Nat)
  | chooseTitle (index : Nat)
  | read (n : Nat)
  | seek (position : Nat)
  | openTables
  | nextPacket
  deriving DecidableEq, Repr

namespace MediumCall

def listing (minSeconds count : Nat) : List MediumCall :=
  [.describeDisc, .countTitles minSeconds] ++ (List.range count).map .describeTitle

def opening (minSeconds count k : Nat) : List MediumCall :=
  listing minSeconds count ++ [.chooseTitle k, .describeTitle k, .openTables]

theorem listing_succ (minSeconds count : Nat) :
    listing minSeconds (count + 1) = listing minSeconds count ++ [.describeTitle count] := by
  simp [listing, List.range_succ]

theorem listing_prefix (minSeconds : Nat) {few many : Nat} (h : few ≤ many) :
    listing minSeconds few <+: listing minSeconds many := by
  obtain ⟨more, rfl⟩ := Nat.exists_eq_add_of_le h
  rw [listing, listing, List.range_add, List.map_append, ← List.append_assoc]
  exact List.prefix_append _ _

end MediumCall

namespace Recorded

variable {κ τ β ε α : Type}

/-- What a demultiplexer and a disc answer, with these calls written down on the disc. -/
def besides (calls : List κ) :
    EStateM.Result ε (τ × β) α → EStateM.Result ε (τ × Recorded κ β) α
  | .ok a (demuxer, disc) => .ok a (demuxer, ⟨disc, calls⟩)
  | .error e (demuxer, disc) => .error e (demuxer, ⟨disc, calls⟩)

/-- What a demultiplexer on the stream of a disc answers, with these calls written down. -/
def streamed (calls : List κ) :
    EStateM.Result ε (τ × TitleBytes β) α → EStateM.Result ε (τ × TitleBytes (Recorded κ β)) α
  | .ok a (demuxer, stream) => .ok a (demuxer, ⟨⟨stream.disc, calls⟩⟩)
  | .error e (demuxer, stream) => .error e (demuxer, ⟨⟨stream.disc, calls⟩⟩)

/-- Writes a call on a demultiplexer down, as one call whatever it reads of the stream. -/
def recordStream (call : κ) (action : EStateM ε (τ × TitleBytes β) α) :
    EStateM ε (τ × TitleBytes (Recorded κ β)) α :=
  fun (demuxer, stream) =>
    streamed (stream.disc.calls ++ [call]) (action (demuxer, ⟨stream.disc.inner⟩))

instance [BlurayMedium β] : BlurayMedium (Recorded MediumCall β) where
  describeDisc := record .describeDisc BlurayMedium.describeDisc
  countTitles minSeconds := record (.countTitles minSeconds) (BlurayMedium.countTitles minSeconds)
  describeTitle index := record (.describeTitle index) (BlurayMedium.describeTitle index)
  chooseTitle index := record (.chooseTitle index) (BlurayMedium.chooseTitle index)
  read n := record (.read n) (BlurayMedium.read n)
  seek position := record (.seek position) (BlurayMedium.seek position)
  position recorded := BlurayMedium.position recorded.inner
  length? recorded := BlurayMedium.length? recorded.inner

instance [Demultiplexer τ (TitleBytes β)] :
    Demultiplexer τ (TitleBytes (Recorded MediumCall β)) where
  openTables := recordStream .openTables Demultiplexer.openTables
  nextPacket := recordStream .nextPacket Demultiplexer.nextPacket

section OpenTables

variable [Demultiplexer τ (TitleBytes β)] {demuxer demuxer' : τ} {disc : β} {stream : TitleBytes β}

theorem openTables_append_of_ok {tables : TransportTables}
    (h : Demultiplexer.openTables (demuxer, TitleBytes.mk disc) = .ok tables (demuxer', stream))
    (front rest : List MediumCall) :
    Demultiplexer.openTables (demuxer, TitleBytes.mk (Recorded.mk disc (front ++ rest))) =
      .ok tables (demuxer', ⟨⟨stream.disc, front ++ (rest ++ [.openTables])⟩⟩) := by
  rw [← List.append_assoc]
  simp only [Demultiplexer.openTables, recordStream, h, streamed]

theorem openTables_append_of_error {e : Error}
    (h : Demultiplexer.openTables (demuxer, TitleBytes.mk disc) = .error e (demuxer', stream))
    (front rest : List MediumCall) :
    Demultiplexer.openTables (demuxer, TitleBytes.mk (Recorded.mk disc (front ++ rest))) =
      .error e (demuxer', ⟨⟨stream.disc, front ++ (rest ++ [.openTables])⟩⟩) := by
  rw [← List.append_assoc]
  simp only [Demultiplexer.openTables, recordStream, h, streamed]

end OpenTables

end Recorded

open Recorded (record_of_ok record_of_error record_append_of_ok record_append_of_error
  openTables_append_of_ok openTables_append_of_error)

namespace Describes

variable {β : Type} [BlurayMedium β] {disc disc' : β} {infos : List TitleDescription}

theorem recorded {index : Nat} (h : Describes index disc infos disc') (calls : List MediumCall) :
    Describes index (Recorded.mk disc calls) infos
      (Recorded.mk disc' (calls ++ (List.range' index infos.length).map .describeTitle)) := by
  induction h generalizing calls with
  | nil =>
    rw [List.length_nil, List.range'_zero, List.map_nil, List.append_nil]
    exact .nil
  | @cons index _ _ _ _ _ head _ ih =>
    have hrest := ih (calls ++ [.describeTitle index])
    rw [List.append_assoc] at hrest
    exact .cons (record_of_ok head calls) hrest

theorem recorded_listing (h : Describes 0 disc infos disc') (minSeconds : Nat) :
    Describes 0 (Recorded.mk disc [.describeDisc, .countTitles minSeconds]) infos
      (Recorded.mk disc' (MediumCall.listing minSeconds infos.length)) := by
  rw [MediumCall.listing, List.range_eq_range']
  exact h.recorded _

end Describes

namespace OpenTitle

open MediumCall (listing opening)

variable {β τ : Type} [BlurayMedium β] {selection : BluraySelection} {demuxer : τ} {disc : β}

/-- The disc has been described, and so have all of its titles of the length that was asked for, of
which there are some. -/
inductive Listed (selection : BluraySelection) (disc : β) (about : DiscDescription)
    (infos : List TitleDescription) (disc' : β) : Prop
  | mk {disc₁ disc₂ : β} (hdisc : BlurayMedium.describeDisc disc = .ok about disc₁)
    (hcount : BlurayMedium.countTitles selection.minTitleLength disc₁ = .ok infos.length disc₂)
    (hsome : infos ≠ []) (hinfos : Describes 0 disc₂ infos disc')

def ofTables (selection : BluraySelection) (about : DiscDescription) (catalog : Catalog)
    (title : Title) (info : TitleDescription) (tables : TransportTables) : OpenTitle where
  catalog
  title
  duration := TimeBase.convert (signedWord info.duration) .disc selection.timeBase
  timeBase := selection.timeBase
  chapters := info.chapters.map (·.chapter.inBase selection.timeBase)
  metadata := about.name.toList.map fun name => ("title", name)
  programs := tables.programs
  streams := tables.streams.map (·.tagged ((info.clips.head?.map Clip.languages).getD []))

/-- How opening a title ends, and the calls that it has made by then. -/
inductive Opening [Demultiplexer τ (TitleBytes β)] (selection : BluraySelection) (demuxer : τ)
    (disc : β) : EStateM.Result Error (τ × β) OpenTitle → List MediumCall → Prop
  | discFailed {e : Error} {disc₁ : β} (hfails : BlurayMedium.describeDisc disc = .error e disc₁) :
    Opening selection demuxer disc (.error e (demuxer, disc₁)) [.describeDisc]
  | countFailed {about : DiscDescription} {e : Error} {disc₁ disc₂ : β}
    (hdisc : BlurayMedium.describeDisc disc = .ok about disc₁)
    (hfails : BlurayMedium.countTitles selection.minTitleLength disc₁ = .error e disc₂) :
    Opening selection demuxer disc (.error e (demuxer, disc₂))
      [.describeDisc, .countTitles selection.minTitleLength]
  /-- Without titles of the length that was asked for, none is described. -/
  | noTitles {about : DiscDescription} {disc₁ disc₂ : β}
    (hdisc : BlurayMedium.describeDisc disc = .ok about disc₁)
    (hcount : BlurayMedium.countTitles selection.minTitleLength disc₁ = .ok 0 disc₂) :
    Opening selection demuxer disc
      (.error (.notFound s!"no titles of at least {selection.minTitleLength} seconds")
        (demuxer, disc₂))
      [.describeDisc, .countTitles selection.minTitleLength]
  /-- No title is described after one that fails. -/
  | titleFailed {about : DiscDescription} {count : Nat} {infos : List TitleDescription} {e : Error}
    {disc₁ disc₂ disc₃ disc₄ : β} (hdisc : BlurayMedium.describeDisc disc = .ok about disc₁)
    (hcount : BlurayMedium.countTitles selection.minTitleLength disc₁ = .ok count disc₂)
    (hlt : infos.length < count) (hbefore : Describes 0 disc₂ infos disc₃)
    (hfails : BlurayMedium.describeTitle infos.length disc₃ = .error e disc₄) :
    Opening selection demuxer disc (.error e (demuxer, disc₄))
      (listing selection.minTitleLength (infos.length + 1))
  /-- An explicit choice that is not listed is refused before a title is selected. -/
  | outOfRange {about : DiscDescription} {infos : List TitleDescription} {asked : Nat} {disc₁ : β}
    (hlisted : Listed selection disc about infos disc₁) (hasked : selection.title = some asked)
    (hle : infos.length ≤ asked) :
    Opening selection demuxer disc (.error (.outOfRange "title" asked infos.length) (demuxer, disc₁))
      (listing selection.minTitleLength infos.length)
  | chooseFailed {about : DiscDescription} {infos : List TitleDescription} {k : Nat} {e : Error}
    {disc₁ disc₂ : β} (hlisted : Listed selection disc about infos disc₁)
    (hselects : Catalog.Selects infos about.mainTitle selection.title k)
    (hfails : BlurayMedium.chooseTitle k disc₁ = .error e disc₂) :
    Opening selection demuxer disc (.error e (demuxer, disc₂))
      (listing selection.minTitleLength infos.length ++ [.chooseTitle k])
  | describeFailed {about : DiscDescription} {infos : List TitleDescription} {k : Nat} {e : Error}
    {disc₁ disc₂ disc₃ : β} (hlisted : Listed selection disc about infos disc₁)
    (hselects : Catalog.Selects infos about.mainTitle selection.title k)
    (hchoose : BlurayMedium.chooseTitle k disc₁ = .ok () disc₂)
    (hfails : BlurayMedium.describeTitle k disc₂ = .error e disc₃) :
    Opening selection demuxer disc (.error e (demuxer, disc₃))
      (listing selection.minTitleLength infos.length ++ [.chooseTitle k, .describeTitle k])
  | tablesFailed {about : DiscDescription} {infos : List TitleDescription} {k : Nat}
    {info : TitleDescription} {e : Error} {demuxer' : τ} {stream : TitleBytes β}
    {disc₁ disc₂ disc₃ : β} (hlisted : Listed selection disc about infos disc₁)
    (hselects : Catalog.Selects infos about.mainTitle selection.title k)
    (hchoose : BlurayMedium.chooseTitle k disc₁ = .ok () disc₂)
    (hinfo : BlurayMedium.describeTitle k disc₂ = .ok info disc₃)
    (hfails : Demultiplexer.openTables (demuxer, TitleBytes.mk disc₃) =
      .error e (demuxer', stream)) :
    Opening selection demuxer disc (.error e (demuxer', stream.disc))
      (opening selection.minTitleLength infos.length k)
  /-- The demultiplexer has opened the stream of the disc on which the title has been selected. -/
  | opened {about : DiscDescription} {infos : List TitleDescription} {k : Nat} {title : Title}
    {info : TitleDescription} {tables : TransportTables} {demuxer' : τ} {stream : TitleBytes β}
    {disc₁ disc₂ disc₃ : β} (hlisted : Listed selection disc about infos disc₁)
    (hselects : Catalog.Selects infos about.mainTitle selection.title k)
    (htitle : (Catalog.ofDescriptions infos about.mainTitle).titles[k]? = some title)
    (hchoose : BlurayMedium.chooseTitle k disc₁ = .ok () disc₂)
    (hinfo : BlurayMedium.describeTitle k disc₂ = .ok info disc₃)
    (htables : Demultiplexer.openTables (demuxer, TitleBytes.mk disc₃) =
      .ok tables (demuxer', stream)) :
    Opening selection demuxer disc
      (.ok (ofTables selection about (.ofDescriptions infos about.mainTitle) title info tables)
        (demuxer', stream.disc))
      (opening selection.minTitleLength infos.length k)

namespace Listed

variable {about : DiscDescription} {infos : List TitleDescription} {disc' : β}

theorem ne_nil (h : Listed selection disc about infos disc') : infos ≠ [] := by
  obtain ⟨-, -, hsome, -⟩ := h
  exact hsome

theorem describeTitles_eq (h : Listed selection disc about infos disc') :
    ∃ disc₁, BlurayMedium.describeDisc disc = .ok about disc₁ ∧
      describeTitles selection.minTitleLength disc₁ = .ok (entries 0 infos) disc' := by
  obtain ⟨hdisc, hcount, hsome, hinfos⟩ := h
  refine ⟨_, hdisc, ?_⟩
  rw [describeTitles_of_some hcount (mt List.eq_nil_of_length_eq_zero hsome)]
  exact hinfos.entriesFrom_eq

theorem recorded (h : Listed selection disc about infos disc') :
    Listed selection (Recorded.mk disc []) about infos
      (Recorded.mk disc' (listing selection.minTitleLength infos.length)) := by
  obtain ⟨hdisc, hcount, hsome, hinfos⟩ := h
  exact ⟨record_of_ok hdisc [], record_of_ok hcount _, hsome, hinfos.recorded_listing _⟩

end Listed

theorem choose_of_error {mainTitle : Option Nat} {e : Error} {disc₁ : β}
    (h : describeTitles selection.minTitleLength disc = .error e disc₁) :
    choose selection mainTitle disc = .error e disc₁ := by
  rw [choose, bind_apply, h]

theorem choose_of_ok {infos : List TitleDescription} {disc₁ : β}
    (h : describeTitles selection.minTitleLength disc = .ok (entries 0 infos) disc₁)
    (mainTitle : Option Nat) :
    choose selection mainTitle disc =
      match (Catalog.ofDescriptions infos mainTitle).select selection.title with
      | .error e => .error e disc₁
      | .ok title =>
        match BlurayMedium.chooseTitle title.index disc₁ with
        | .error e disc₂ => .error e disc₂
        | .ok () disc₂ =>
          match BlurayMedium.describeTitle title.index disc₂ with
          | .error e disc₃ => .error e disc₃
          | .ok info disc₃ => .ok (.ofDescriptions infos mainTitle, title, info) disc₃ := by
  rw [choose, bind_apply, h]
  change (ofResult ((Catalog.ofDescriptions infos mainTitle).select selection.title) >>= _) disc₁ = _
  rw [ofResult_bind_apply]
  cases (Catalog.ofDescriptions infos mainTitle).select selection.title with
  | error e => rfl
  | ok title =>
    simp only [bind_apply]
    cases BlurayMedium.chooseTitle title.index disc₁ with
    | error e disc₂ => rfl
    | ok _ disc₂ =>
      simp only
      cases BlurayMedium.describeTitle title.index disc₂ with
      | error e disc₃ => rfl
      | ok info disc₃ => rfl

variable [Demultiplexer τ (TitleBytes β)]

theorem openTitle_eq (selection : BluraySelection) (demuxer : τ) (disc : β) :
    openTitle selection (demuxer, disc) =
      match BlurayMedium.describeDisc disc with
      | .error e disc₁ => .error e (demuxer, disc₁)
      | .ok about disc₁ =>
        match choose selection about.mainTitle disc₁ with
        | .error e disc₂ => .error e (demuxer, disc₂)
        | .ok (catalog, title, info) disc₂ =>
          match Demultiplexer.openTables (demuxer, TitleBytes.mk disc₂) with
          | .error e (demuxer', stream) => .error e (demuxer', stream.disc)
          | .ok tables (demuxer', stream) =>
            .ok (ofTables selection about catalog title info tables) (demuxer', stream.disc) := by
  rw [openTitle, bind_apply, onDisc]
  cases BlurayMedium.describeDisc disc with
  | error e disc₁ => rfl
  | ok about disc₁ =>
    simp only [bind_apply, onDisc]
    cases choose selection about.mainTitle disc₁ with
    | error e disc₂ => rfl
    | ok chosen disc₂ =>
      simp only [onStream]
      cases Demultiplexer.openTables (demuxer, TitleBytes.mk disc₂) with
      | error e after => rfl
      | ok tables after => rfl

namespace Opening

variable {result : EStateM.Result Error (τ × β) OpenTitle} {calls : List MediumCall}

theorem run (h : Opening selection demuxer disc result calls) :
    openTitle selection (demuxer, disc) = result := by
  rw [openTitle_eq]
  cases h with
  | discFailed hfails => simp only [hfails]
  | countFailed hdisc hfails =>
    simp only [hdisc, choose_of_error (describeTitles_of_countFailed hfails)]
  | noTitles hdisc hcount => simp only [hdisc, choose_of_error (describeTitles_of_none hcount)]
  | titleFailed hdisc hcount hlt hbefore hfails =>
    rw [← Nat.zero_add (List.length _)] at hfails
    have htitles := describeTitles_of_some hcount (Nat.ne_zero_of_lt hlt)
    rw [hbefore.entriesFrom_of_fails hlt hfails] at htitles
    simp only [hdisc, choose_of_error htitles]
  | outOfRange hlisted hasked hle =>
    obtain ⟨_, hdisc, htitles⟩ := hlisted.describeTitles_eq
    simp only [hdisc, choose_of_ok htitles, hasked, Catalog.select_of_length_le hle]
  | chooseFailed hlisted hselects hfails =>
    obtain ⟨_, hdisc, htitles⟩ := hlisted.describeTitles_eq
    obtain ⟨title, -, hindex, hselect⟩ := hselects.select_eq
    simp only [hdisc, choose_of_ok htitles, hselect, hindex, hfails]
  | describeFailed hlisted hselects hchoose hfails =>
    obtain ⟨_, hdisc, htitles⟩ := hlisted.describeTitles_eq
    obtain ⟨title, -, hindex, hselect⟩ := hselects.select_eq
    simp only [hdisc, choose_of_ok htitles, hselect, hindex, hchoose, hfails]
  | tablesFailed hlisted hselects hchoose hinfo hfails =>
    obtain ⟨_, hdisc, htitles⟩ := hlisted.describeTitles_eq
    obtain ⟨title, -, hindex, hselect⟩ := hselects.select_eq
    simp only [hdisc, choose_of_ok htitles, hselect, hindex, hchoose, hinfo, hfails]
  | opened hlisted hselects htitle hchoose hinfo htables =>
    obtain ⟨_, hdisc, htitles⟩ := hlisted.describeTitles_eq
    obtain ⟨title, hfound, hindex, hselect⟩ := hselects.select_eq
    obtain rfl := Option.some.inj (htitle.symm.trans hfound)
    simp only [hdisc, choose_of_ok htitles, hselect, hindex, hchoose, hinfo, htables]

theorem recorded (h : Opening selection demuxer disc result calls) :
    Opening selection demuxer (Recorded.mk disc []) (Recorded.besides calls result) calls := by
  cases h with
  | discFailed hfails => exact .discFailed (record_of_error hfails [])
  | countFailed hdisc hfails =>
    exact .countFailed (record_of_ok hdisc []) (record_of_error hfails _)
  | noTitles hdisc hcount => exact .noTitles (record_of_ok hdisc []) (record_of_ok hcount _)
  | titleFailed hdisc hcount hlt hbefore hfails =>
    refine .titleFailed (record_of_ok hdisc []) (record_of_ok hcount _) hlt
      (hbefore.recorded_listing _) ?_
    rw [MediumCall.listing_succ]
    exact record_of_error hfails _
  | outOfRange hlisted hasked hle => exact .outOfRange hlisted.recorded hasked hle
  | chooseFailed hlisted hselects hfails =>
    exact .chooseFailed hlisted.recorded hselects (record_of_error hfails _)
  | describeFailed hlisted hselects hchoose hfails =>
    exact .describeFailed hlisted.recorded hselects (record_of_ok hchoose _)
      (record_append_of_error hfails _ [MediumCall.chooseTitle _])
  | tablesFailed hlisted hselects hchoose hinfo hfails =>
    exact .tablesFailed hlisted.recorded hselects (record_of_ok hchoose _)
      (record_append_of_ok hinfo _ [MediumCall.chooseTitle _])
      (openTables_append_of_error hfails _ [MediumCall.chooseTitle _, .describeTitle _])
  | opened hlisted hselects htitle hchoose hinfo htables =>
    exact .opened hlisted.recorded hselects htitle (record_of_ok hchoose _)
      (record_append_of_ok hinfo _ [MediumCall.chooseTitle _])
      (openTables_append_of_ok htables _ [MediumCall.chooseTitle _, .describeTitle _])

/-- No more calls are made than those of an opening that succeeds, and in the same order. -/
theorem calls_prefix (h : Opening selection demuxer disc result calls) :
    ∃ count k, calls <+: opening selection.minTitleLength count k := by
  have hlisting (count k : Nat) : listing selection.minTitleLength count <+:
      opening selection.minTitleLength count k := List.prefix_append _ _
  cases h with
  | discFailed => exact ⟨0, 0, by simp [opening, listing]⟩
  | countFailed => exact ⟨0, 0, hlisting 0 0⟩
  | noTitles => exact ⟨0, 0, hlisting 0 0⟩
  | @titleFailed _ count _ _ _ _ _ _ _ _ hlt =>
    exact ⟨count, 0, (MediumCall.listing_prefix _ hlt).trans (hlisting count 0)⟩
  | outOfRange => exact ⟨_, 0, hlisting _ 0⟩
  | @chooseFailed _ infos k =>
    refine ⟨infos.length, k, ?_⟩
    rw [opening, List.prefix_append_right_inj]
    exact ⟨[.describeTitle k, .openTables], rfl⟩
  | @describeFailed _ infos k =>
    refine ⟨infos.length, k, ?_⟩
    rw [opening, List.prefix_append_right_inj]
    exact ⟨[.openTables], rfl⟩
  | tablesFailed => exact ⟨_, _, List.prefix_rfl⟩
  | opened => exact ⟨_, _, List.prefix_rfl⟩

end Opening

theorem Listed.exists_opening {about : DiscDescription} {infos : List TitleDescription} {disc' : β}
    (h : Listed selection disc about infos disc') (demuxer : τ) :
    ∃ result calls, Opening selection demuxer disc result calls := by
  by_cases hasked : ∃ asked, selection.title = some asked ∧ infos.length ≤ asked
  · obtain ⟨asked, hasked, hle⟩ := hasked
    exact ⟨_, _, .outOfRange h hasked hle⟩
  · push Not at hasked
    obtain ⟨k, -, hselects, -, -⟩ :=
      Catalog.exists_select_ofDescriptions h.ne_nil about.mainTitle selection.title hasked
    cases hchoose : BlurayMedium.chooseTitle k disc' with
    | error e disc₂ => exact ⟨_, _, .chooseFailed h hselects hchoose⟩
    | ok _ disc₂ =>
      cases hinfo : BlurayMedium.describeTitle k disc₂ with
      | error e disc₃ => exact ⟨_, _, .describeFailed h hselects hchoose hinfo⟩
      | ok info disc₃ =>
        cases htables : Demultiplexer.openTables (demuxer, TitleBytes.mk disc₃) with
        | error e after => exact ⟨_, _, .tablesFailed h hselects hchoose hinfo htables⟩
        | ok tables after =>
          obtain ⟨title, htitle, -, -⟩ := hselects.select_eq
          exact ⟨_, _, .opened h hselects htitle hchoose hinfo htables⟩

/-- Opening a title ends in one of the described ways, whatever the disc does. -/
theorem exists_opening (selection : BluraySelection) (demuxer : τ) (disc : β) :
    ∃ result calls, Opening selection demuxer disc result calls := by
  cases hdisc : BlurayMedium.describeDisc disc with
  | error e disc₁ => exact ⟨_, _, .discFailed hdisc⟩
  | ok about disc₁ =>
    cases hcount : BlurayMedium.countTitles selection.minTitleLength disc₁ with
    | error e disc₂ => exact ⟨_, _, .countFailed hdisc hcount⟩
    | ok count disc₂ =>
      rcases describes_or_fails 0 count disc₂ with
        ⟨infos, disc₃, rfl, hinfos⟩ | ⟨infos, disc₃, e, disc₄, hlt, hbefore, hfails⟩
      · by_cases hsome : infos = []
        · subst hsome
          exact ⟨_, _, .noTitles hdisc hcount⟩
        · exact Listed.exists_opening ⟨hdisc, hcount, hsome, hinfos⟩ demuxer
      · rw [Nat.zero_add] at hfails
        exact ⟨_, _, .titleFailed hdisc hcount hlt hbefore hfails⟩

/-- Opening a title on any disc: every call is made once and in order, as far as the first one that
fails or a choice that cannot be made, and that failure is the answer. An opened title is the chosen
one of a catalog that lists the titles by their index. -/
theorem openTitle_run (selection : BluraySelection) (demuxer : τ) (disc : β) :
    ∃ calls, openTitle selection (demuxer, (⟨disc, []⟩ : Recorded MediumCall β)) =
        Recorded.besides calls (openTitle selection (demuxer, disc)) ∧
      Opening selection demuxer disc (openTitle selection (demuxer, disc)) calls ∧
      (∃ count k, calls <+: opening selection.minTitleLength count k) ∧
      ∀ s after, openTitle selection (demuxer, disc) = .ok s after →
        ∃ k, calls = opening selection.minTitleLength s.catalog.titles.size k ∧
          s.catalog.titles[k]? = some s.title ∧
          ∀ (i : Nat) (h : i < s.catalog.titles.size), s.catalog.titles[i].index = i := by
  obtain ⟨result, calls, h⟩ := exists_opening selection demuxer disc
  rw [h.run]
  refine ⟨calls, h.recorded.run, h, h.calls_prefix, ?_⟩
  rintro s after rfl
  cases h with
  | @opened _ _ k _ _ _ _ _ _ _ _ _ _ htitle =>
    refine ⟨k, ?_, htitle, ?_⟩
    · rw [ofTables, Catalog.size_titles_ofDescriptions]
    · intro i hi
      exact Catalog.index_titles_ofDescriptions hi

end OpenTitle

end OpticalDisc
