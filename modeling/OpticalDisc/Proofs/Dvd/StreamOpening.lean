import OpticalDisc.Proofs.Dvd.StreamSteps

/-!
# Opened title streams

What opening a title has read when it succeeds, and how the stream starts: at the first sector of an
accepted route, with nothing buffered. A fresh stream is aligned.
-/

namespace OpticalDisc

theorem bind_eq_ok {ε σ α β : Type} {x : EStateM ε σ α} {f : α → EStateM ε σ β} {s s' : σ} {b : β}
    (h : (x >>= f) s = .ok b s') : ∃ a s₁, x s = .ok a s₁ ∧ f a s₁ = .ok b s' := by
  change EStateM.bind x f s = _ at h
  unfold EStateM.bind at h
  split at h
  · exact ⟨_, _, ‹_›, h⟩
  · simp at h

theorem bind_apply {ε σ α β : Type} (x : EStateM ε σ α) (f : α → EStateM ε σ β) (s : σ) :
    (x >>= f) s =
      match x s with
      | .ok a s' => f a s'
      | .error e s' => .error e s' := rfl

theorem get_bind_apply {ε σ β : Type} (f : σ → EStateM ε σ β) (s : σ) :
    ((get : EStateM ε σ σ) >>= f) s = f s s := rfl

theorem ofResult_bind_apply {ε σ α β : Type} (result : Except ε α) (f : α → EStateM ε σ β) (s : σ) :
    (ofResult result >>= f) s =
      match result with
      | .ok a => f a s
      | .error e => .error e s := by
  cases result <;> rfl

theorem ofResult_eq_ok {ε σ α : Type} {result : Except ε α} {s s' : σ} {a : α}
    (h : ofResult result s = .ok a s') : result = .ok a ∧ s = s' := by
  cases result with
  | error e => simp at h
  | ok b =>
    simp only [ofResult_ok, EStateM.Result.ok.injEq] at h
    exact ⟨by rw [h.1], h.2⟩

theorem ofResult_bind_eq_ok {ε σ α β : Type} {result : Except ε α} {f : α → EStateM ε σ β}
    {s s' : σ} {b : β} (h : (ofResult result >>= f) s = .ok b s') :
    ∃ a, result = .ok a ∧ f a s = .ok b s' := by
  obtain ⟨a, s₁, hrun, h⟩ := bind_eq_ok h
  obtain ⟨hresult, rfl⟩ := ofResult_eq_ok hrun
  exact ⟨a, hresult, h⟩

theorem Playhead.sectorsPassed_ofRoute {σ : Type} {route : Route} (hr : route.Accepted)
    (device : σ) : (ofRoute device route).sectorsPassed = 0 := by
  cases hhead : route.segments.head? with
  | none => exact absurd (List.head?_eq_none_iff.1 hhead) hr.segments_ne_nil
  | some segment =>
    have hsegment : route.segments[0]? = some segment := by rw [← hhead, List.head?_eq_getElem?]
    have hlt := (segment_playable hr hsegment).first_lt
    simp [ofRoute, hhead, sectorsPassed, enter, if_pos hlt]

theorem Playhead.position_ofRoute {σ : Type} {route : Route} (hr : route.Accepted) (device : σ) :
    (ofRoute device route).position = 0 := by
  rw [(follows_ofRoute hr device).position_eq hr, sectorsPassed_ofRoute hr, sectorOffset,
    Nat.zero_mul]

theorem Playhead.device_ofRoute {σ : Type} (device : σ) (route : Route) :
    (ofRoute device route).device = device := by
  simp only [ofRoute]
  split <;> rfl

theorem Playhead.route_ofRoute {σ : Type} (device : σ) (route : Route) :
    (ofRoute device route).route = route := by
  simp only [ofRoute]
  split <;> rfl

namespace TitleStream

variable {δ σ : Type} {s : TitleStream σ} {selection : DvdSelection} {route : Route} {video : σ}

/-- A stream at the start of a route, before any request. -/
structure Fresh (s : TitleStream σ) (selection : DvdSelection) (route : Route) (video : σ) :
    Prop where
  accepted : route.Accepted
  playhead_eq : s.playhead = Playhead.ofRoute video route
  capacity_eq : s.capacity = max selection.bufferSectors 1 * sectorSize
  buffer_eq : s.buffer = .empty
  taken_eq : s.taken = 0
  skip_eq : s.skip = 0
  position_eq : s.position = 0

theorem Fresh.device_eq (h : s.Fresh selection route video) : s.playhead.device = video := by
  rw [h.playhead_eq, Playhead.device_ofRoute]

theorem Fresh.aligned (h : s.Fresh selection route video)
    (hbuffer : selection.bufferSectors < UInt32.size) : s.Aligned route where
  accepted := h.accepted
  follows := h.playhead_eq ▸ Playhead.follows_ofRoute h.accepted video
  room := by
    have hone : 1 < UInt32.size := by decide
    rw [h.capacity_eq, Nat.mul_div_cancel _ (by decide), Nat.mod_eq_of_lt (by omega)]
    omega
  buffered hleft := by
    rw [h.buffer_eq, h.taken_eq] at hleft
    simp at hleft
  beforeEnd _ _ := by
    rw [h.position_eq, h.skip_eq, h.playhead_eq, Playhead.position_ofRoute h.accepted]
    exact ⟨rfl, by decide⟩
  atEnd _ hend := by
    rw [h.playhead_eq, Playhead.position_ofRoute h.accepted] at hend
    rwa [h.position_eq]

/-- The title set with a number: the one that has been read already, else the one on the disc. -/
def titleSetOf [DvdMedium δ σ] (sets : TitleSets) (number : Nat) : EStateM Error δ TitleSet :=
  match sets.lookup number with
  | some set => pure set
  | none => DvdMedium.openTitleSet number

theorem titleSetOf_bind_eq_ok [DvdMedium δ σ] {α : Type} {sets : TitleSets} {number : Nat}
    {f : TitleSet → EStateM Error δ α} {disc disc' : δ} {a : α}
    (h : (match sets.lookup number with
      | some set => pure set >>= f
      | none => DvdMedium.openTitleSet number >>= f) disc = .ok a disc') :
    ∃ set disc₁, titleSetOf sets number disc = .ok set disc₁ ∧ f set disc₁ = .ok a disc' := by
  unfold titleSetOf
  cases hfound : sets.lookup number with
  | some set =>
    rw [hfound] at h
    exact bind_eq_ok h
  | none =>
    rw [hfound] at h
    exact bind_eq_ok h

theorem titleSet_of_checkSet {manager : VideoManager} {record? : Option TitleRecord} {index : Nat}
    (h : (record?.getD {}).checkSet manager index = .ok ()) : ∃ entry, record? = some entry := by
  cases record? with
  | some entry => exact ⟨entry, rfl⟩
  | none => simp [TitleRecord.checkSet] at h

/-- What opening a title reads: the tables of the disc, the record of the title, its title set and
its video, on the route of its first chapter. -/
theorem openTitle_ok [DvdMedium δ σ] {disc disc' : δ} (h : openTitle selection disc = .ok s disc') :
    ∃ manager sets entry set route video disc₁ disc₂ disc₃,
      DvdMedium.openManager disc = .ok manager disc₁ ∧
      DvdMedium.openSets manager disc₁ = .ok sets disc₂ ∧
      manager.titles[s.title.index]? = some entry ∧
      titleSetOf sets entry.titleSet.toNat disc₂ = .ok set disc₃ ∧
      Route.ofTitle set entry.titleInSet.toNat selection.angle = .ok route ∧
      DvdMedium.openVideo entry.titleSet.toNat disc₃ = .ok video disc' ∧
      s.Fresh selection route video := by
  simp only [openTitle, get_bind_apply] at h
  obtain ⟨manager, disc₁, hmanager, h⟩ := bind_eq_ok h
  obtain ⟨sets, disc₂, hsets, h⟩ := bind_eq_ok h
  obtain ⟨title, -, h⟩ := ofResult_bind_eq_ok h
  obtain ⟨_, hcheck, h⟩ := ofResult_bind_eq_ok h
  obtain ⟨entry, hentry⟩ := titleSet_of_checkSet hcheck
  simp only [hentry, Option.getD_some] at h
  obtain ⟨set, disc₃, hset, h⟩ := titleSetOf_bind_eq_ok h
  obtain ⟨parts, -, h⟩ := ofResult_bind_eq_ok h
  obtain ⟨_, -, h⟩ := ofResult_bind_eq_ok h
  obtain ⟨route, hroute, h⟩ := ofResult_bind_eq_ok h
  obtain ⟨video, _, hvideo, h⟩ := bind_eq_ok h
  simp only [pure, EStateM.pure, EStateM.Result.ok.injEq] at h
  obtain ⟨rfl, rfl⟩ := h
  exact ⟨manager, sets, entry, set, route, video, disc₁, _, _, hmanager, hsets, hentry, hset,
    hroute, hvideo, Route.accepted_of_ofTitle hroute, rfl, rfl, rfl, rfl, rfl, rfl⟩

theorem exists_openTitle [DvdMedium δ σ] {disc : δ} {manager : VideoManager} {sets : TitleSets}
    {title : Title} {entry : TitleRecord} {set : TitleSet} {parts : List PartOfTitle}
    (hmanager : DvdMedium.openManager disc = .ok manager disc)
    (hsets : DvdMedium.openSets manager disc = .ok sets disc)
    (htitle : (manager.catalog sets).select selection.title = .ok title)
    (hentry : manager.titles[title.index]? = some entry)
    (hcheck : entry.checkSet manager title.index = .ok ())
    (hset : sets.lookup entry.titleSet.toNat = some set)
    (hparts : entry.partsIn set title.index = .ok parts)
    (hangle : entry.checkAngle selection.angle = .ok ())
    (hroute : Route.ofTitle set entry.titleInSet.toNat selection.angle = .ok route)
    (hvideo : DvdMedium.openVideo entry.titleSet.toNat disc = .ok video disc) :
    ∃ opened, openTitle selection disc = .ok opened disc ∧ opened.title = title := by
  simp only [openTitle, get_bind_apply]
  simp only [bind, EStateM.bind, hmanager, hsets, htitle, ofResult_ok, hentry, Option.getD_some,
    hcheck, hset, hparts, hangle, hroute, hvideo, pure, EStateM.pure]
  exact ⟨_, rfl, rfl⟩

theorem fresh_of_openTitle [DvdMedium δ σ] {disc disc' : δ}
    (h : openTitle selection disc = .ok s disc') :
    ∃ route video, s.Fresh selection route video := by
  obtain ⟨_, _, _, _, route, video, _, _, _, -, -, -, -, -, -, hfresh⟩ := openTitle_ok h
  exact ⟨route, video, hfresh⟩

/-- A disc whose tables have been read, with the same title set and video for every number. -/
structure TableDisc (σ : Type) where
  manager : VideoManager
  titleSet : TitleSet
  video : σ

instance : DvdMedium (TableDisc σ) σ where
  volumeName? _ := none
  openManager := fun disc => .ok disc.manager disc
  openTitleSet _ := fun disc => .ok disc.titleSet disc
  openVideo _ := fun disc => .ok disc.video disc

end TitleStream

end OpticalDisc
