import OpticalDisc.Proofs.Dvd.FolderFiles
import OpticalDisc.Proofs.Dvd.StoredManager
import OpticalDisc.Proofs.Dvd.StreamDrain
import OpticalDisc.Proofs.Files.PlainNames
import OpticalDisc.Proofs.Storage.SectorReads

/-!
# The video of a disc folder

The files that the video of a title set is split into read as one, wherever they are split: opening a
title of a folder gives a stream on a device that serves the whole sectors of the joined files.
-/

namespace OpticalDisc

namespace DiscFolder

variable {folder folder' : DiscFolder}

theorem contents_of_openFile {paths : List Path} {files : List OpenFile}
    (h : List.Forall₂ (fun path file => folder.openFile path = .ok file) paths files) :
    ∃ contents, paths.mapM folder.tree.content = .ok contents ∧
      List.Forall₂ (fun file content => ∃ position, OpenFile.At content position file) files
        contents := by
  induction h with
  | nil => exact ⟨[], rfl, .nil⟩
  | cons hfile _ ih =>
    obtain ⟨content, hcontent, hat⟩ := openFile_eq_ok hfile
    obtain ⟨contents, hcontents, hrest⟩ := ih
    refine ⟨content :: contents, ?_, .cons ⟨0, hat⟩ hrest⟩
    exact mapM_eq_ok_iff.2 (.cons hcontent (mapM_eq_ok_iff.1 hcontents))

/-- The joined files of a title set hold the contents of the files in order. -/
theorem joinVideo_eq_ok {number : Nat} {video : Video} (h : folder.joinVideo number = .ok video) :
    ∃ contents, (folder.videoFiles number).mapM folder.tree.content = .ok contents ∧
      video.store.At OpenFile.At contents 0 := by
  unfold joinVideo at h
  cases hfiles : (folder.videoFiles number).mapM folder.openFile with
  | error e => simp [hfiles, bind, Except.bind] at h
  | ok files =>
    obtain ⟨contents, hcontents, hat⟩ := contents_of_openFile (mapM_eq_ok_iff.1 hfiles)
    simp only [hfiles, bind, Except.bind, pure, Except.pure] at h
    split at h
    · simp at h
    · split at h
      · rename_i store hjoin
        simp only [Except.ok.injEq] at h
        subst h
        have hcarries : ∀ content, SeekableBytes.Carries content (OpenFile.At content) :=
          fun content => (OpenFile.reads content).resumes.toCarries
        exact ⟨contents, hcontents, JoinedStore.at_of_join hcarries hat hjoin⟩
      · simp at h

theorem exists_openFiles {paths : List Path} {contents : List ByteArray}
    (h : List.Forall₂ (fun path content => folder.tree.content path = .ok content) paths contents)
    (hsize : ∀ content ∈ contents, content.size < UInt64.size) :
    ∃ files, paths.mapM folder.openFile = .ok files ∧ files.length = paths.length ∧
      ∀ file ∈ files, file.bytes.content.size < UInt64.size := by
  induction h with
  | nil => exact ⟨[], rfl, rfl, by simp⟩
  | cons hcontent hrest ih =>
    obtain ⟨hfirst, hothers⟩ := List.forall_mem_cons.1 hsize
    obtain ⟨file, hfile, rfl, -⟩ := exists_openFile hcontent
    obtain ⟨files, hfiles, hlength, hsizes⟩ := ih hothers
    refine ⟨file :: files, ?_, by simpa using hlength, List.forall_mem_cons.2 ⟨hfirst, hsizes⟩⟩
    exact mapM_eq_ok_iff.2 (.cons hfile (mapM_eq_ok_iff.1 hfiles))

theorem exists_joinVideo {number : Nat} {path : Path} {rest : List Path} {contents : List ByteArray}
    (hpaths : folder.videoFiles number = path :: rest)
    (hcontents : (path :: rest).mapM folder.tree.content = .ok contents)
    (hsize : ∀ content ∈ contents, content.size < UInt64.size) :
    ∃ video, folder.joinVideo number = .ok video := by
  obtain ⟨files, hfiles, hlength, hsizes⟩ :=
    exists_openFiles (mapM_eq_ok_iff.1 hcontents) hsize
  have hsome : files.isEmpty = false := by
    rw [List.isEmpty_eq_false_iff, ← List.length_pos_iff, hlength]
    exact Nat.succ_pos _
  obtain ⟨store, hstore⟩ := JoinedStore.join_of_size_lt hsizes
  refine ⟨{ store }, ?_⟩
  simp only [joinVideo, hpaths, hfiles, bind, Except.bind, hsome, hstore, Bool.false_eq_true,
    if_false, pure, Except.pure]

theorem openTitleSet_eq_ok {number : Nat} {set : TitleSet}
    (h : DvdMedium.openTitleSet number folder = .ok set folder') :
    folder.readTitleSet number = .ok set ∧ folder = folder' :=
  ofResult_eq_ok h

theorem openSets_eq_ok {manager : VideoManager} {sets : TitleSets}
    (h : DvdMedium.openSets manager folder = .ok sets folder') :
    folder = folder' ∧ ∀ entry ∈ sets, folder.readTitleSet entry.1 = .ok entry.2 := by
  unfold DvdMedium.openSets at h
  generalize manager.referencedSets = numbers at h
  induction numbers generalizing sets folder' with
  | nil =>
    simp only [List.mapM_nil, pure, EStateM.pure, EStateM.Result.ok.injEq] at h
    obtain ⟨rfl, rfl⟩ := h
    simp
  | cons number rest ih =>
    rw [List.mapM_cons] at h
    obtain ⟨entry, disc, hentry, h⟩ := bind_eq_ok h
    obtain ⟨set, disc', hset, hpair⟩ := bind_eq_ok hentry
    obtain ⟨hread, rfl⟩ := openTitleSet_eq_ok hset
    obtain ⟨rfl, rfl⟩ := EStateM.Result.ok.inj hpair
    obtain ⟨others, disc', hothers, h⟩ := bind_eq_ok h
    obtain ⟨rfl, hall⟩ := ih hothers
    obtain ⟨rfl, rfl⟩ := EStateM.Result.ok.inj h
    refine ⟨rfl, ?_⟩
    intro found hfound
    rcases List.mem_cons.1 hfound with rfl | hfound
    · exact hread
    · exact hall found hfound

theorem titleSetOf_eq_ok {sets : TitleSets} {number : Nat} {set : TitleSet}
    (hsets : ∀ entry ∈ sets, folder.readTitleSet entry.1 = .ok entry.2)
    (h : TitleStream.titleSetOf sets number folder = .ok set folder') :
    folder.readTitleSet number = .ok set ∧ folder = folder' := by
  unfold TitleStream.titleSetOf at h
  cases hfound : sets.lookup number with
  | none =>
    rw [hfound] at h
    exact openTitleSet_eq_ok h
  | some found =>
    rw [hfound] at h
    obtain ⟨rfl, rfl⟩ := EStateM.Result.ok.inj h
    obtain ⟨before, after, rfl, -⟩ := List.lookup_eq_some_iff.1 hfound
    exact ⟨hsets (number, found) (by simp), rfl⟩

end DiscFolder

/-- The planned sectors of segments are the ranges of the segments in the video. -/
theorem sectorBytes_plannedSectors (video : ByteArray) {segments : List Segment}
    (h : ∀ segment ∈ segments, segment.Playable) :
    sectorBytes (sectorIn video) (plannedSectors segments) =
      joinBytes (segments.map fun segment =>
        video.extract (sectorOffset segment.firstSector) (sectorOffset segment.endSector)) := by
  induction segments with
  | nil => rfl
  | cons segment rest ih =>
    have hplay := (h segment (List.mem_cons_self ..)).first_lt
    have hend : segment.firstSector + (segment.endSector - segment.firstSector) =
        segment.endSector := by omega
    have hrest : ∀ later ∈ rest, later.Playable := by
      intro later hlater
      exact h later (List.mem_cons_of_mem _ hlater)
    rw [plannedSectors_cons, sectorBytes_append, List.map_cons, joinBytes_cons, ih hrest,
      Segment.sectors, sectorBytes_range', hend]

theorem fits_of_mem_plannedSectors {video : ByteArray} {segments : List Segment}
    (h : ∀ segment ∈ segments, sectorOffset segment.endSector ≤ video.size) :
    ∀ sector ∈ plannedSectors segments, Fits video sector := by
  intro sector hsector
  obtain ⟨segment, hsegment, hmem⟩ := List.mem_flatMap.1 hsector
  rw [Segment.sectors, List.mem_range'_1] at hmem
  exact (sectorOffset_le (by omega)).trans (h segment hsegment)

namespace TitleStream

/-- A title of a folder, read to its end in reads of any lengths but zero: with `video` the joined
files of its title set, the stream is the ranges of its segments in the video if these lie in it, of
the size that the stream tells. Otherwise it is the planned sectors in front of the first that is not
in the video as a whole, and then a failure. How the video is split into files and how large the
buffer is makes no difference. -/
theorem drain_folder {selection : DvdSelection} {folder folder' : DiscFolder}
    {s : TitleStream DiscFolder.Video} (hopen : openTitle selection folder = .ok s folder')
    (hbuffer : selection.bufferSectors < UInt32.size) :
    ∃ managerData manager entry setData set route paths contents,
      folder.Holds "VIDEO_TS.IFO" managerData ∧ VideoManager.decode managerData = .ok manager ∧
      manager.titles[s.title.index]? = some entry ∧
      folder.Holds (DiscFolder.indexName entry.titleSet.toNat) setData ∧
      TitleSet.decode setData = .ok set ∧
      Route.ofTitle set entry.titleInSet.toNat selection.angle = .ok route ∧
      folder.ListsVideo entry.titleSet.toNat paths ∧
      paths.mapM folder.tree.content = .ok contents ∧
      let video := joinBytes contents
      ∀ lengths : List Nat, (∀ n ∈ lengths, n ≠ 0) → s.length < lengths.length →
        ((∀ segment ∈ route.segments, sectorOffset segment.endSector ≤ video.size) →
          let played := joinBytes (route.segments.map fun segment =>
            video.extract (sectorOffset segment.firstSector) (sectorOffset segment.endSector))
          drain s lengths = (played, .finished) ∧ played.size = s.length) ∧
        ((∃ sector ∈ plannedSectors route.segments, ¬ Fits video sector) →
          ∃ e, drain s lengths = (heldBytes (sectorIn video) (Fits video) route, .failed e) ∧
            e.kind = .unexpectedEof) := by
  obtain ⟨manager, sets, entry, set, route, video, _, _, _, hmanager, hsets, hentry, hset, hroute,
    hvideo, hfresh⟩ := openTitle_ok hopen
  obtain ⟨hreadManager, rfl⟩ := ofResult_eq_ok hmanager
  obtain ⟨rfl, hlisted⟩ := DiscFolder.openSets_eq_ok hsets
  obtain ⟨hreadSet, rfl⟩ := DiscFolder.titleSetOf_eq_ok hlisted hset
  obtain ⟨hjoin, rfl⟩ := ofResult_eq_ok hvideo
  obtain ⟨managerData, hmanagerData, hdecodeManager⟩ := DiscFolder.readManager_eq_ok hreadManager
  obtain ⟨setData, hsetData, hdecodeSet⟩ := DiscFolder.readTitleSet_eq_ok hreadSet
  obtain ⟨contents, hcontents, hat⟩ := DiscFolder.joinVideo_eq_ok hjoin
  refine ⟨managerData, manager, entry, setData, set, route, _, contents, hmanagerData,
    hdecodeManager, hentry, hsetData, hdecodeSet, hroute,
    folder.listsVideo_videoFiles entry.titleSet.toNat, hcontents, ?_⟩
  intro joined lengths hpos hlong
  have hserves := StoredSectors.serves (JoinedStore.reads OpenFile.reads contents)
  have hdrain := hfresh.drain hbuffer hserves ⟨0, hat⟩ hpos hlong
  have hplayable : ∀ segment ∈ route.segments, segment.Playable := by
    intro segment hsegment
    exact hfresh.accepted.segments_inOrder.playable hsegment
  constructor
  · intro hinside
    have hfits := fits_of_mem_plannedSectors hinside
    rcases hdrain with ⟨hdrain, -⟩ | ⟨-, sector, hsector, hmissing⟩
    · rw [heldBytes_eq hfits, sectorBytes_plannedSectors joined hplayable] at hdrain
      refine ⟨hdrain, ?_⟩
      have hsizes : ∀ sector ∈ plannedSectors route.segments,
          (sectorIn joined sector).size = sectorSize := by
        intro sector hsector
        exact size_sectorIn (hfits sector hsector)
      rw [← sectorBytes_plannedSectors joined hplayable, size_sectorBytes hsizes,
        (hfresh.aligned hbuffer).length_eq, Playhead.lengthOf_eq hfresh.accepted]
    · exact absurd (hfits sector hsector) hmissing
  · rintro ⟨sector, hsector, hmissing⟩
    rcases hdrain with ⟨-, hheld⟩ | ⟨hfailed, -⟩
    · exact absurd (hheld sector hsector) hmissing
    · exact hfailed

end TitleStream

namespace DiscFolder

/-- A folder with these entries, which is the working directory too. -/
def ofEntries (entries : List (String × FileNode)) : DiscFolder where
  tree := { root := .directory entries }
  root := ⟨""⟩
  files := entries.map fun entry => (entry.1, ⟨entry.1⟩)

theorem content_ofEntries {entries : List (String × FileNode)} {path : Path} {content : ByteArray}
    (hplain : path.Plain) (h : entries.lookup path.text = some (.file content)) :
    (ofEntries entries).tree.content path = .ok content :=
  FileTree.content_of_plain rfl rfl hplain h

def repeated (size : Nat) (byte : UInt8) : ByteArray :=
  ⟨Array.replicate size byte⟩

def splitEntry (number : UInt8) : TitleRecord where
  angleCount := 1
  partCount := 1
  titleSet := number
  titleInSet := 1

def splitManager : VideoManager where
  titleSetCount := 2
  titles := [splitEntry 1, splitEntry 2]

def splitTitleSet : TitleSet where
  parts := [[⟨1, 1⟩]]
  chains := some #[{ programMap := [1], cells := [⟨0, 1, .none, {}⟩] }]

/-- Two title sets of two sectors. The video of the first is in three files, the second of them empty;
the second video file of the other is missing. -/
def split : DiscFolder :=
  ofEntries [("VIDEO_TS.IFO", .file splitManager.encode),
    ("VTS_01_0.IFO", .file splitTitleSet.encode), ("VTS_01_3.VOB", .file (repeated 3096 9)),
    ("VTS_01_2.VOB", .file .empty), ("VTS_01_1.VOB", .file (repeated 1000 7)),
    ("VTS_02_0.IFO", .file splitTitleSet.encode), ("VTS_02_3.VOB", .file (repeated 2048 5)),
    ("VTS_02_1.VOB", .file (repeated 3000 4))]

theorem decode_splitManager : VideoManager.decode splitManager.encode = .ok splitManager :=
  VideoManager.decode_eq_ok_iff.2 (VideoManager.storedIn_encode (by decide))

theorem encodable_splitTitleSet : splitTitleSet.Encodable where
  titles := by decide
  partTable := by rw [TitleSet.size_encodeParts]; decide
  chains := by decide
  chainTable := by rw [TitleSet.size_encodeChains]; decide
  chain := by
    intro chain hchain
    simp only [TitleSet.chainList, splitTitleSet, Option.getD_some, List.mem_cons,
      List.not_mem_nil, or_false] at hchain
    rw [hchain]
    exact ⟨by decide, by decide⟩

theorem decode_splitTitleSet : TitleSet.decode splitTitleSet.encode = .ok splitTitleSet :=
  TitleSet.decode_of_tables (HoldsAt.refl splitTitleSet.encode).left
    (TitleSet.partTable_encode encodable_splitTitleSet _)
    (TitleSet.chainTable_encode encodable_splitTitleSet _)

theorem holds_split_manager : split.Holds "VIDEO_TS.IFO" splitManager.encode :=
  ⟨⟨"VIDEO_TS.IFO"⟩, rfl, content_ofEntries (by decide) rfl⟩

theorem holds_split_titleSet {number : Nat} (h : number = 1 ∨ number = 2) :
    split.Holds (indexName number) splitTitleSet.encode := by
  rcases h with rfl | rfl
  · exact ⟨⟨"VTS_01_0.IFO"⟩, rfl, content_ofEntries (by decide) rfl⟩
  · exact ⟨⟨"VTS_02_0.IFO"⟩, rfl, content_ofEntries (by decide) rfl⟩

theorem readManager_split : split.readManager = .ok splitManager := by
  have hread := readIndex_eq_ok_iff.2 ⟨holds_split_manager, by decide +kernel⟩
  exact except_bind_eq_ok_iff.2 ⟨splitManager.encode, hread, decode_splitManager⟩

theorem readTitleSet_split {number : Nat} (h : number = 1 ∨ number = 2) :
    split.readTitleSet number = .ok splitTitleSet := by
  have hread := readIndex_eq_ok_iff.2 ⟨holds_split_titleSet h, by decide +kernel⟩
  rw [← titleSetFileName_eq] at hread
  exact except_bind_eq_ok_iff.2 ⟨splitTitleSet.encode, hread, decode_splitTitleSet⟩

theorem videoFiles_split :
    split.videoFiles 1 = [⟨"VTS_01_1.VOB"⟩, ⟨"VTS_01_2.VOB"⟩, ⟨"VTS_01_3.VOB"⟩] ∧
      split.videoFiles 2 = [⟨"VTS_02_1.VOB"⟩] := by
  decide +kernel

theorem contents_split_first :
    (split.videoFiles 1).mapM split.tree.content = .ok [repeated 1000 7, .empty, repeated 3096 9] := by
  rw [videoFiles_split.1]
  exact mapM_eq_ok_iff.2 (.cons (content_ofEntries (by decide) rfl)
    (.cons (content_ofEntries (by decide) rfl) (.cons (content_ofEntries (by decide) rfl) .nil)))

theorem contents_split_second :
    (split.videoFiles 2).mapM split.tree.content = .ok [repeated 3000 4] := by
  rw [videoFiles_split.2]
  exact mapM_eq_ok_iff.2 (.cons (content_ofEntries (by decide) rfl) .nil)

@[simp] theorem size_repeated (size : Nat) (byte : UInt8) : (repeated size byte).size = size :=
  Array.size_replicate

theorem openSets_split :
    DvdMedium.openSets splitManager split = .ok [(1, splitTitleSet), (2, splitTitleSet)] split := by
  have hnumbers : splitManager.referencedSets = [1, 2] := by decide +kernel
  have hfirst := readTitleSet_split (.inl rfl)
  have hsecond := readTitleSet_split (.inr rfl)
  simp only [DvdMedium.openSets, hnumbers, List.mapM_cons, List.mapM_nil, bind, EStateM.bind,
    DvdMedium.openTitleSet, hfirst, hsecond, ofResult_ok, pure, EStateM.pure]

theorem openVideo_split {number : Nat} (h : number = 1 ∨ number = 2) :
    ∃ video, DvdMedium.openVideo number split = .ok video split := by
  have hjoin : ∃ video, split.joinVideo number = .ok video := by
    rcases h with rfl | rfl
    · refine exists_joinVideo videoFiles_split.1 (videoFiles_split.1 ▸ contents_split_first) ?_
      simp [UInt64.size]
    · refine exists_joinVideo videoFiles_split.2 (videoFiles_split.2 ▸ contents_split_second) ?_
      simp [UInt64.size]
  obtain ⟨video, hjoin⟩ := hjoin
  exact ⟨video, congrArg (ofResult · split) hjoin⟩

theorem openTitle_split {index : Nat} (h : index = 0 ∨ index = 1) :
    ∃ s, TitleStream.openTitle { title := some index } split = .ok s split ∧
      s.title.index = index := by
  have hmanager : DvdMedium.openManager split = .ok splitManager split :=
    congrArg (ofResult · split) readManager_split
  let catalog := splitManager.catalog [(1, splitTitleSet), (2, splitTitleSet)]
  have hselect : ∃ title, catalog.select (some index) = .ok title ∧ title.index = index := by
    rcases h with rfl | rfl <;> exact ⟨_, rfl, rfl⟩
  obtain ⟨title, hselect, hindex⟩ := hselect
  have hopen : ∃ s, TitleStream.openTitle { title := some index } split = .ok s split ∧
      s.title = title := by
    rcases h with rfl | rfl
    · obtain ⟨video, hvideo⟩ := openVideo_split (.inl rfl)
      have hentry : splitManager.titles[title.index]? = some (splitEntry 1) := hindex ▸ rfl
      exact TitleStream.exists_openTitle hmanager openSets_split hselect hentry rfl rfl rfl rfl rfl
        hvideo
    · obtain ⟨video, hvideo⟩ := openVideo_split (.inr rfl)
      have hentry : splitManager.titles[title.index]? = some (splitEntry 2) := hindex ▸ rfl
      exact TitleStream.exists_openTitle hmanager openSets_split hselect hentry rfl rfl rfl rfl rfl
        hvideo
  obtain ⟨s, hopen, htitle⟩ := hopen
  exact ⟨s, hopen, htitle ▸ hindex⟩

theorem route_split {route : Route} (h : Route.ofTitle splitTitleSet 1 0 = .ok route) :
    route.segments = [⟨0, 0, 2, 0, 0⟩] := by
  obtain rfl := Except.ok.inj ((rfl : Route.ofTitle splitTitleSet 1 0 =
    .ok ⟨1, ⟨{}, [1], [⟨0, 1, .none, {}⟩]⟩, [], 0, 0⟩).symm.trans h)
  decide +kernel

theorem extract_split_first :
    (joinBytes [repeated 1000 7, .empty, repeated 3096 9]).extract (sectorOffset 0) (sectorOffset 2) =
      repeated 1000 7 ++ repeated 3096 9 := by
  have hsize : sectorOffset 2 = (repeated 1000 7 ++ repeated 3096 9).size := by
    simp [sectorOffset, sectorSize]
  have hstart : sectorOffset 0 = 0 := rfl
  simp only [joinBytes_cons, joinBytes_nil, ByteArray.empty_append, ByteArray.append_empty]
  rw [hstart, hsize, ByteArray.extract_zero_size]

theorem heldBytes_split {route : Route} (h : route.segments = [⟨0, 0, 2, 0, 0⟩]) :
    TitleStream.heldBytes (sectorIn (repeated 3000 4)) (Fits (repeated 3000 4)) route =
      repeated 2048 4 := by
  have hplanned : plannedSectors route.segments = [0, 1] := by
    rw [h]
    rfl
  have hfirst : Fits (repeated 3000 4) 0 := by simp [Fits, sectorOffset, sectorSize]
  have hsecond : ¬ Fits (repeated 3000 4) 1 := by simp [Fits, sectorOffset, sectorSize]
  have hcontent : sectorIn (repeated 3000 4) 0 = repeated 2048 4 := by
    refine ByteArray.ext ?_
    simp [sectorIn, repeated, sectorOffset, sectorSize]
  simp [TitleStream.heldBytes, hplanned, hfirst, hsecond, hcontent, sectorBytes]

/-- The index files of the folder lead its two titles to one plan, each in its own title set. -/
theorem plan_split {index : Nat} (h : index = 0 ∨ index = 1) {managerData setData : ByteArray}
    {manager : VideoManager} {entry : TitleRecord} {set : TitleSet} {route : Route}
    (hmanagerData : split.Holds "VIDEO_TS.IFO" managerData)
    (hmanager : VideoManager.decode managerData = .ok manager)
    (hentry : manager.titles[index]? = some entry)
    (hsetData : split.Holds (indexName entry.titleSet.toNat) setData)
    (hset : TitleSet.decode setData = .ok set)
    (hroute : Route.ofTitle set entry.titleInSet.toNat 0 = .ok route) :
    entry.titleSet.toNat = index + 1 ∧ route.segments = [⟨0, 0, 2, 0, 0⟩] := by
  obtain rfl := holds_split_manager.unique hmanagerData
  obtain rfl := Except.ok.inj (decode_splitManager.symm.trans hmanager)
  have hnumber : (index + 1 = 1 ∨ index + 1 = 2) ∧ entry.titleSet.toNat = index + 1 ∧
      entry.titleInSet.toNat = 1 := by
    rcases h with rfl | rfl <;> obtain rfl := Option.some.inj hentry <;> decide
  obtain ⟨hlisted, hnumber, htitle⟩ := hnumber
  rw [hnumber] at hsetData
  obtain rfl := (holds_split_titleSet hlisted).unique hsetData
  obtain rfl := Except.ok.inj (decode_splitTitleSet.symm.trans hset)
  rw [htitle] at hroute
  exact ⟨hnumber, route_split hroute⟩

end DiscFolder

namespace TitleStream

/-- The first title is the two sectors that its three files hold together. The other title fails
behind its first sector: the second sector is not in the first file as a whole, and the third file is
not read. -/
theorem drain_folder_split :
    ∃ whole cut e,
      openTitle { title := some 0 } DiscFolder.split = .ok whole DiscFolder.split ∧
      openTitle { title := some 1 } DiscFolder.split = .ok cut DiscFolder.split ∧
      whole.length = 4096 ∧
      drain whole (List.replicate (whole.length + 1) 1) =
        (DiscFolder.repeated 1000 7 ++ DiscFolder.repeated 3096 9, .finished) ∧
      drain cut (List.replicate (cut.length + 1) 1) = (DiscFolder.repeated 2048 4, .failed e) ∧
      e.kind = .unexpectedEof := by
  have hpos : ∀ length, ∀ n ∈ List.replicate (length + 1) 1, n ≠ 0 := by
    intro length n hn
    rw [List.eq_of_mem_replicate hn]
    exact Nat.one_ne_zero
  have hlong : ∀ length, length < (List.replicate (length + 1) 1).length := by
    intro length
    rw [List.length_replicate]
    exact Nat.lt_succ_self _
  obtain ⟨whole, hwhole, hindex⟩ := DiscFolder.openTitle_split (.inl rfl)
  obtain ⟨cut, hcut, hindex'⟩ := DiscFolder.openTitle_split (.inr rfl)
  have hplayed : drain whole (List.replicate (whole.length + 1) 1) =
      (DiscFolder.repeated 1000 7 ++ DiscFolder.repeated 3096 9, .finished) ∧
      (DiscFolder.repeated 1000 7 ++ DiscFolder.repeated 3096 9).size = whole.length := by
    obtain ⟨_, _, _, _, _, route, _, _, hmanagerData, hmanager, hentry, hsetData, hset, hroute,
      hpaths, hcontents, hdrain⟩ := drain_folder hwhole (by decide)
    obtain ⟨hnumber, hsegments⟩ := DiscFolder.plan_split (.inl hindex) hmanagerData hmanager hentry
      hsetData hset hroute
    rw [hnumber, hindex] at hpaths
    obtain rfl := hpaths.videoFiles_eq
    obtain rfl := Except.ok.inj (DiscFolder.contents_split_first.symm.trans hcontents)
    have hinside : ∀ segment ∈ route.segments, sectorOffset segment.endSector ≤
        (joinBytes [DiscFolder.repeated 1000 7, .empty, DiscFolder.repeated 3096 9]).size := by
      simp [hsegments, sectorOffset, sectorSize]
    have hplayed := (hdrain _ (hpos _) (hlong _)).1 hinside
    simpa only [hsegments, List.map_cons, List.map_nil,
      DiscFolder.extract_split_first, joinBytes_cons _ [], joinBytes_nil,
      ByteArray.append_empty] using hplayed
  have hfailed : ∃ e, drain cut (List.replicate (cut.length + 1) 1) =
      (DiscFolder.repeated 2048 4, .failed e) ∧ e.kind = .unexpectedEof := by
    obtain ⟨_, _, _, _, _, route, _, _, hmanagerData, hmanager, hentry, hsetData, hset, hroute,
      hpaths, hcontents, hdrain⟩ := drain_folder hcut (by decide)
    obtain ⟨hnumber, hsegments⟩ := DiscFolder.plan_split (.inr hindex') hmanagerData hmanager hentry
      hsetData hset hroute
    rw [hnumber, hindex'] at hpaths
    obtain rfl := hpaths.videoFiles_eq
    obtain rfl := Except.ok.inj (DiscFolder.contents_split_second.symm.trans hcontents)
    have hmissing : ∃ sector ∈ plannedSectors route.segments,
        ¬ Fits (joinBytes [DiscFolder.repeated 3000 4]) sector := by
      refine ⟨1, ?_, by simp [Fits, sectorOffset, sectorSize]⟩
      rw [hsegments]
      decide
    obtain ⟨e, hfailed, hkind⟩ := (hdrain _ (hpos _) (hlong _)).2 hmissing
    simp only [joinBytes_cons, joinBytes_nil, ByteArray.append_empty] at hfailed
    rw [DiscFolder.heldBytes_split hsegments] at hfailed
    exact ⟨e, hfailed, hkind⟩
  obtain ⟨hplayed, hlength⟩ := hplayed
  obtain ⟨e, hfailed, hkind⟩ := hfailed
  refine ⟨whole, cut, e, hwhole, hcut, ?_, hplayed, hfailed, hkind⟩
  rw [← hlength]
  simp

end TitleStream

end OpticalDisc
