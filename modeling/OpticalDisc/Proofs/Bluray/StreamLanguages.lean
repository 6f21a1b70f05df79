import OpticalDisc.Proofs.Bluray.TitleOpening
import OpticalDisc.Proofs.ReportedChapters

/-!
# The languages of a Blu-ray title's streams

The streams of an opened title are those that the demultiplexer reports, in the same order, and so are
its programs. Only languages change: a stream has that of the first descriptor with its packet
identifier in the first clip of the title, or else the one that the demultiplexer has told.
-/

namespace OpticalDisc

def listedLanguage (languages : List (UInt16 × String)) (id : Nat) : Option String :=
  (languages.find? fun (pid, _) => pid.toNat = id).map (·.2)

/-- The languages with that of one more descriptor, unless its packet identifier has one already. -/
def withDescriptor (languages : List (UInt16 × String)) (d : StreamDescriptor) :
    List (UInt16 × String) :=
  if (languages.lookup d.pid).isSome then languages else languages ++ [(d.pid, d.language)]

theorem Clip.languages_eq (clip : Clip) :
    clip.languages = clip.descriptors.foldl withDescriptor [] := rfl

theorem listedLanguage_append (front rest : List (UInt16 × String)) (id : Nat) :
    listedLanguage (front ++ rest) id = (listedLanguage front id).or (listedLanguage rest id) := by
  unfold listedLanguage
  rw [List.find?_append, Option.map_or]

theorem isSome_listedLanguage {languages : List (UInt16 × String)} {pid : UInt16}
    (h : (languages.lookup pid).isSome) : (listedLanguage languages pid.toNat).isSome := by
  obtain ⟨entry, hmem, hpid⟩ := List.lookup_isSome_iff.1 h
  rw [listedLanguage, Option.isSome_map, List.find?_isSome]
  exact ⟨entry, hmem, by simp [eq_of_beq hpid]⟩

/-- One more descriptor counts for its own identifier only, and only if no other has come before. -/
theorem listedLanguage_withDescriptor (languages : List (UInt16 × String)) (d : StreamDescriptor)
    (id : Nat) :
    listedLanguage (withDescriptor languages d) id =
      (listedLanguage languages id).or (if d.pid.toNat = id then some d.language else none) := by
  unfold withDescriptor
  split
  · rename_i hlisted
    by_cases hid : d.pid.toNat = id
    · subst hid
      rw [Option.or_of_isSome (isSome_listedLanguage hlisted)]
    · rw [if_neg hid, Option.or_none]
  · rw [listedLanguage_append]
    congr 1
    by_cases hid : d.pid.toNat = id <;> simp [listedLanguage, hid]

theorem listedLanguage_foldl (languages : List (UInt16 × String))
    (descriptors : List StreamDescriptor) (id : Nat) :
    listedLanguage (descriptors.foldl withDescriptor languages) id =
      (listedLanguage languages id).or
        ((descriptors.find? (·.pid.toNat = id)).map (·.language)) := by
  induction descriptors generalizing languages with
  | nil => simp
  | cons d rest ih =>
    rw [List.foldl_cons, ih, listedLanguage_withDescriptor, Option.or_assoc]
    by_cases hid : d.pid.toNat = id <;> simp [hid]

theorem Clip.listedLanguage_languages (clip : Clip) (id : Nat) :
    listedLanguage clip.languages id =
      (clip.descriptors.find? (·.pid.toNat = id)).map (·.language) := by
  rw [clip.languages_eq, listedLanguage_foldl]
  rfl

/-- The descriptors of the first clip, in order of precedence. -/
def TitleDescription.firstDescriptors (info : TitleDescription) : List StreamDescriptor :=
  match info.clips with
  | [] => []
  | clip :: _ => clip.audio ++ clip.secondaryAudio ++ clip.subtitles

/-- The language of a reported stream among descriptors: that of the first one with its identifier, and
its own if none has it. -/
inductive HasLanguage (descriptors : List StreamDescriptor) (reported : ElementaryStream) :
    Option String → Prop
  | described {before after : List StreamDescriptor} {d : StreamDescriptor}
    (hlist : descriptors = before ++ d :: after)
    (hbefore : ∀ other ∈ before, other.pid.toNat ≠ reported.id) (hpid : d.pid.toNat = reported.id) :
    HasLanguage descriptors reported (some d.language)
  | undescribed (hnone : ∀ d ∈ descriptors, d.pid.toNat ≠ reported.id) :
    HasLanguage descriptors reported reported.language

/-- A stream of a title, made of one that the demultiplexer reports. An identifier that takes more than
16 bits is none of a descriptor. -/
structure Tags (info : TitleDescription) (reported stream : ElementaryStream) : Prop where
  copied : stream = { reported with language := stream.language }
  language : HasLanguage info.firstDescriptors reported stream.language
  wide : 65535 < reported.id → stream.language = reported.language

theorem listedLanguage_firstClip (info : TitleDescription) (id : Nat) :
    listedLanguage ((info.clips.head?.map Clip.languages).getD []) id =
      (info.firstDescriptors.find? (·.pid.toNat = id)).map (·.language) := by
  unfold TitleDescription.firstDescriptors
  cases info.clips with
  | nil => rfl
  | cons clip later => exact clip.listedLanguage_languages id

theorem hasLanguage_find? (descriptors : List StreamDescriptor) (reported : ElementaryStream) :
    HasLanguage descriptors reported
      (((descriptors.find? (·.pid.toNat = reported.id)).map (·.language)).or reported.language) := by
  cases hfind : descriptors.find? (·.pid.toNat = reported.id) with
  | none =>
    rw [List.find?_eq_none] at hfind
    exact .undescribed fun d hd => by simpa using hfind d hd
  | some d =>
    obtain ⟨hpid, before, after, hlist, hbefore⟩ := List.find?_eq_some_iff_append.1 hfind
    exact .described hlist (fun other hother => by simpa using hbefore other hother)
      (of_decide_eq_true hpid)

theorem HasLanguage.of_wide {descriptors : List StreamDescriptor} {reported : ElementaryStream}
    {language : Option String} (h : HasLanguage descriptors reported language)
    (hwide : 65535 < reported.id) : language = reported.language := by
  cases h with
  | @described _ _ d _ _ hpid =>
    have hlt := d.pid.toNat_lt
    omega
  | undescribed => rfl

theorem tags_tagged (info : TitleDescription) (reported : ElementaryStream) :
    Tags info reported
      (reported.tagged ((info.clips.head?.map Clip.languages).getD [])) := by
  have hlanguage : (reported.tagged ((info.clips.head?.map Clip.languages).getD [])).language =
      ((info.firstDescriptors.find? (·.pid.toNat = reported.id)).map (·.language)).or
        reported.language := by
    rw [← listedLanguage_firstClip]
    rfl
  have hhas := hasLanguage_find? info.firstDescriptors reported
  rw [← hlanguage] at hhas
  exact ⟨rfl, hhas, hhas.of_wide⟩

namespace OpenTitle

variable {β τ : Type} [BlurayMedium β] [Demultiplexer τ (TitleBytes β)] {selection : BluraySelection}
  {demuxer : τ} {disc : β} {s : OpenTitle}

/-- What an opened title is made of: the description that the disc gives of the selected title, and the
tables that the demultiplexer then finds in its stream. -/
inductive MadeOf (selection : BluraySelection) (demuxer : τ) (disc : β) (s : OpenTitle)
    (info : TitleDescription) (tables : TransportTables) : Prop
  | mk {about : DiscDescription} {infos : List TitleDescription} {disc₁ disc₂ disc₃ : β}
    {after : τ × TitleBytes β} (hlisted : Listed selection disc about infos disc₁)
    (hselects : Catalog.Selects infos about.mainTitle selection.title s.title.index)
    (hchoose : BlurayMedium.chooseTitle s.title.index disc₁ = .ok () disc₂)
    (hinfo : BlurayMedium.describeTitle s.title.index disc₂ = .ok info disc₃)
    (htables : Demultiplexer.openTables (demuxer, TitleBytes.mk disc₃) = .ok tables after)

theorem exists_madeOf {after : τ × β} (h : openTitle selection (demuxer, disc) = .ok s after) :
    ∃ info tables, MadeOf selection demuxer disc s info tables ∧ s.programs = tables.programs ∧
      s.streams = tables.streams.map
        (·.tagged ((info.clips.head?.map Clip.languages).getD [])) := by
  obtain ⟨result, calls, hopening⟩ := exists_opening selection demuxer disc
  obtain rfl := hopening.run.symm.trans h
  cases hopening with
  | opened hlisted hselects htitle hchoose hinfo htables =>
    obtain ⟨title, htitle', rfl, -⟩ := hselects.select_eq
    obtain rfl := Option.some.inj (htitle.symm.trans htitle')
    exact ⟨_, _, .mk hlisted hselects hchoose hinfo htables, rfl, rfl⟩

/-- An opened title has the programs and streams that the demultiplexer reports, in the same order, with
nothing changed but the languages. -/
theorem streams_tagged {after : τ × β} (h : openTitle selection (demuxer, disc) = .ok s after) :
    ∃ info tables, MadeOf selection demuxer disc s info tables ∧ s.programs = tables.programs ∧
      List.Forall₂ (Tags info) tables.streams s.streams := by
  obtain ⟨info, tables, hmade, hprograms, hstreams⟩ := exists_madeOf h
  refine ⟨info, tables, hmade, hprograms, ?_⟩
  rw [hstreams, List.forall₂_map_right_iff, List.forall₂_same]
  intro reported _
  exact tags_tagged info reported

/-- A demultiplexer that finds the same tables in every stream. -/
instance {ι : Type} : Demultiplexer TransportTables ι where
  openTables := fun (tables, stream) => .ok tables (tables, stream)
  nextPacket := fun after => .ok none after

def twoClips : TitleDescription where
  clips :=
    [{ audio := [⟨0x1100, 0x83, "eng"⟩, ⟨0x1101, 0x81, "fra"⟩]
       secondaryAudio := [⟨0x1101, 0xA1, "deu"⟩]
       subtitles := [⟨0x1200, 0x90, "spa"⟩] },
     { audio := [⟨0x1300, 0x81, "ita"⟩] }]

/-- Four streams, one of them with an identifier of 17 bits and one of the second clip. -/
def fourStreams : TransportTables where
  programs := [{ id := 1, number := 1, streams := [0, 1, 2, 3] }]
  streams :=
    [{ index := 0, id := 0x1101, codec := {}, timeBase := .disc },
     { index := 1, id := 0x11100, codec := {}, timeBase := .disc },
     { index := 2, id := 0x1300, codec := {}, timeBase := .disc, language := some "und" },
     { index := 3, id := 0x1200, codec := {}, timeBase := .disc, language := some "und" }]

/-- Only the first and the last stream have a descriptor in the first clip. -/
theorem streams_tagged_twoClips :
    ∃ s after info tables,
      openTitle {} (fourStreams, ListedDisc.mk [twoClips]) = .ok s after ∧
      s.streams.map (·.language) = [some "fra", none, some "und", some "spa"] ∧
      MadeOf {} fourStreams (ListedDisc.mk [twoClips]) s info tables ∧
      s.programs = tables.programs ∧ List.Forall₂ (Tags info) tables.streams s.streams := by
  obtain ⟨s, after, hopened, hlanguages⟩ : ∃ s after,
      openTitle {} (fourStreams, ListedDisc.mk [twoClips]) = .ok s after ∧
      s.streams.map (·.language) = [some "fra", none, some "und", some "spa"] :=
    ⟨_, _, rfl, by decide⟩
  obtain ⟨info, tables, hmade, htags⟩ := streams_tagged hopened
  exact ⟨s, after, info, tables, hopened, hlanguages, hmade, htags⟩

end OpenTitle

end OpticalDisc
