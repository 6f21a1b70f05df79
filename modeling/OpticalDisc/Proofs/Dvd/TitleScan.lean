import OpticalDisc.Proofs.Dvd.StreamOpening

/-!
# Scans of a disc

A scan reads the title sets that titles refer to, each once and in ascending order. Its candidates
are the titles that can be followed from their title set to the chain of their first chapter, ordered
by title set and then by index; `Dangles` lists the ways in which a title cannot be followed.
-/

namespace OpticalDisc

theorem mem_keys_iff_lookup {sets : TitleSets} {number : Nat} :
    number ∈ sets.map Prod.fst ↔ ∃ set, sets.lookup number = some set := by
  rw [← Option.isSome_iff_exists, List.lookup_isSome_iff]
  simp only [List.mem_map, beq_iff_eq]
  exact ⟨fun ⟨p, hp, heq⟩ => ⟨p, hp, heq.symm⟩, fun ⟨p, hp, heq⟩ => ⟨p, hp, heq.symm⟩⟩

namespace DvdMedium

variable {δ σ : Type} [DvdMedium δ σ] {disc disc' : δ}

def readSets (numbers : List Nat) : EStateM Error δ TitleSets :=
  numbers.mapM fun number => do
    return (number, ← openTitleSet number)

theorem readSets_nil (disc : δ) : readSets [] disc = .ok [] disc := rfl

theorem readSets_cons (number : Nat) (rest : List Nat) (disc : δ) :
    readSets (number :: rest) disc =
      match openTitleSet number disc with
      | .error e disc₁ => .error e disc₁
      | .ok set disc₁ =>
        match readSets rest disc₁ with
        | .error e disc₂ => .error e disc₂
        | .ok sets disc₂ => .ok ((number, set) :: sets) disc₂ := by
  simp only [readSets, List.mapM_cons, bind, EStateM.bind, pure, EStateM.pure]
  cases openTitleSet number disc with
  | error e disc₁ => rfl
  | ok set disc₁ =>
    dsimp only
    split <;> rename_i hrest <;> rw [hrest]

theorem exists_readSets_cons_iff {number : Nat} {rest : List Nat} {sets : TitleSets} :
    (∃ final, readSets (number :: rest) disc = .ok sets final) ↔
      ∃ set next others, openTitleSet number disc = .ok set next ∧
        (∃ final, readSets rest next = .ok others final) ∧ sets = (number, set) :: others := by
  rw [readSets_cons]
  constructor
  · rintro ⟨final, h⟩
    split at h
    · simp at h
    · rename_i set next hopen
      split at h
      · simp at h
      · rename_i others _ hothers
        obtain ⟨rfl, -⟩ := EStateM.Result.ok.inj h
        exact ⟨set, next, others, hopen, ⟨_, hothers⟩, rfl⟩
  · rintro ⟨set, next, others, hopen, ⟨final, hothers⟩, rfl⟩
    exact ⟨final, by simp only [hopen, hothers]⟩

theorem readSets_keys {numbers : List Nat} {sets : TitleSets}
    (h : readSets numbers disc = .ok sets disc') : sets.map Prod.fst = numbers := by
  induction numbers generalizing sets disc disc' with
  | nil =>
    rw [readSets_nil] at h
    obtain ⟨rfl, -⟩ := EStateM.Result.ok.inj h
    rfl
  | cons number rest ih =>
    obtain ⟨set, next, others, -, ⟨final, hothers⟩, rfl⟩ := exists_readSets_cons_iff.1 ⟨_, h⟩
    rw [List.map_cons, ih hothers]

theorem scan_eq_ok {catalog : Catalog} (h : scan disc = .ok catalog disc') :
    ∃ manager disc₁ sets, openManager disc = .ok manager disc₁ ∧
      openSets manager disc₁ = .ok sets disc' ∧ catalog = manager.catalog sets := by
  obtain ⟨manager, disc₁, hmanager, h⟩ := bind_eq_ok h
  obtain ⟨sets, disc₂, hsets, h⟩ := bind_eq_ok h
  obtain ⟨rfl, rfl⟩ := EStateM.Result.ok.inj h
  exact ⟨manager, disc₁, sets, hmanager, hsets, rfl⟩

theorem scan_of_reads {manager : VideoManager} {disc₁ : δ} {sets : TitleSets}
    (hmanager : openManager disc = .ok manager disc₁)
    (hsets : openSets manager disc₁ = .ok sets disc') :
    scan disc = .ok (manager.catalog sets) disc' := by
  simp only [scan, bind_apply, hmanager, hsets]
  rfl

end DvdMedium

namespace TitleSet

variable {set : TitleSet}

def startChain? (set : TitleSet) (title : Nat) : Option ProgramChain :=
  (set.partsOfTitle? title).bind fun parts =>
    parts.head?.bind fun first => set.chain? first.chain.toNat

theorem chain?_of_no_chains (h : set.chains = none) (number : Nat) : set.chain? number = none := by
  cases number with
  | zero => rfl
  | succ i => simp [chain?, h]

end TitleSet

namespace VideoManager

variable {manager : VideoManager} {sets : TitleSets} {entry : TitleRecord} {i j number : Nat}

theorem mem_referencedSets_iff :
    number ∈ manager.referencedSets ↔ 1 ≤ number ∧ number ≤ min manager.titleSetCount.toNat 255 ∧
      ∃ entry ∈ manager.titles, entry.titleSet.toNat = number := by
  simp only [referencedSets, refersTo, List.mem_filter, List.mem_range'_1, List.any_eq_true,
    decide_eq_true_eq, and_assoc]
  apply and_congr_right
  intro _
  apply and_congr_left
  intro _
  omega

theorem pairwise_referencedSets (manager : VideoManager) :
    manager.referencedSets.Pairwise (· < ·) :=
  (List.pairwise_lt_range' 1).filter _

/-- The title sets of the disc that titles refer to, each once and in ascending order. -/
structure Refers (manager : VideoManager) (numbers : List Nat) : Prop where
  increasing : numbers.Pairwise (· < ·)
  mem_iff {number : Nat} : number ∈ numbers ↔
    1 ≤ number ∧ number ≤ min manager.titleSetCount.toNat 255 ∧
      ∃ entry ∈ manager.titles, entry.titleSet.toNat = number

theorem refers_referencedSets (manager : VideoManager) : manager.Refers manager.referencedSets :=
  ⟨manager.pairwise_referencedSets, mem_referencedSets_iff⟩

theorem Refers.eq_referencedSets {numbers : List Nat} (h : manager.Refers numbers) :
    numbers = manager.referencedSets := by
  refine h.increasing.eq_of_mem_iff manager.pairwise_referencedSets ?_
  intro number
  rw [h.mem_iff, mem_referencedSets_iff]

theorem mem_referencedSets_of_mem (hentry : entry ∈ manager.titles)
    (hcheck : 1 ≤ entry.titleSet.toNat ∧ entry.titleSet.toNat ≤ manager.titleSetCount.toNat) :
    entry.titleSet.toNat ∈ manager.referencedSets := by
  have hbyte := entry.titleSet.toNat_lt
  exact mem_referencedSets_iff.2 ⟨hcheck.1, by omega, entry, hentry, rfl⟩

theorem mem_playableIn_iff :
    i ∈ manager.playableIn sets number ↔ ∃ entry chain, manager.titles[i]? = some entry ∧
      entry.titleSet.toNat = number ∧ chainOf? sets entry = some chain := by
  simp only [playableIn, List.mem_filterMap, Prod.exists, List.mem_zipIdx_iff_getElem?,
    Option.ite_none_right_eq_some, Option.some.injEq, Option.isSome_iff_exists]
  constructor
  · rintro ⟨entry, _, hentry, ⟨hnumber, chain, hchain⟩, rfl⟩
    exact ⟨entry, chain, hentry, hnumber, hchain⟩
  · rintro ⟨entry, chain, hentry, hnumber, hchain⟩
    exact ⟨entry, i, hentry, ⟨hnumber, chain, hchain⟩, rfl⟩

theorem mem_keys_of_chainOf? {chain : ProgramChain} (h : chainOf? sets entry = some chain) :
    entry.titleSet.toNat ∈ sets.map Prod.fst := by
  simp only [chainOf?, Option.bind_eq_bind, Option.bind_eq_some_iff] at h
  obtain ⟨set, hset, -⟩ := h
  exact mem_keys_iff_lookup.2 ⟨set, hset⟩

/-- The candidates are the titles that can be followed. -/
theorem mem_candidates_iff :
    i ∈ (manager.catalog sets).candidates ↔
      ∃ entry chain, manager.titles[i]? = some entry ∧ chainOf? sets entry = some chain := by
  simp only [catalog, List.mem_flatMap, mem_playableIn_iff]
  constructor
  · rintro ⟨_, -, entry, chain, hentry, -, hchain⟩
    exact ⟨entry, chain, hentry, hchain⟩
  · rintro ⟨entry, chain, hentry, hchain⟩
    obtain ⟨p, hp, hkey⟩ := List.mem_map.1 (mem_keys_of_chainOf? hchain)
    exact ⟨p, hp, entry, chain, hentry, hkey.symm, hchain⟩

theorem notMem_candidates_iff (hentry : manager.titles[i]? = some entry) :
    i ∉ (manager.catalog sets).candidates ↔ chainOf? sets entry = none := by
  simp [mem_candidates_iff, hentry, Option.eq_none_iff_forall_ne_some]

/-- Title set by title set, and by index within one title set. -/
def ScannedBefore (manager : VideoManager) (i j : Nat) : Prop :=
  ∃ a b, manager.titles[i]? = some a ∧ manager.titles[j]? = some b ∧
    (a.titleSet < b.titleSet ∨ a.titleSet = b.titleSet ∧ i < j)

theorem pairwise_playableIn (manager : VideoManager) (sets : TitleSets) (number : Nat) :
    (manager.playableIn sets number).Pairwise (· < ·) := by
  have hindex : (manager.titles.zipIdx.map Prod.snd).Pairwise (· < ·) := by
    rw [List.zipIdx_map_snd]
    exact List.pairwise_lt_range' 1
  rw [playableIn, List.pairwise_filterMap]
  apply (List.pairwise_map.1 hindex).imp
  intro p q hlt i hi j hj
  simp only [Option.ite_none_right_eq_some, Option.some.injEq] at hi hj
  rwa [← hi.2, ← hj.2]

theorem pairwise_candidates (hsets : sets.map Prod.fst = manager.referencedSets) :
    (manager.catalog sets).candidates.Pairwise manager.ScannedBefore := by
  have hkeys : sets.Pairwise fun p q => p.1 < q.1 :=
    List.pairwise_map.1 (hsets ▸ manager.pairwise_referencedSets)
  rw [catalog, List.pairwise_flatMap]
  constructor
  · intro p _
    apply (manager.pairwise_playableIn sets p.1).imp_of_mem
    intro i j hi hj hlt
    obtain ⟨a, _, ha, hin, -⟩ := mem_playableIn_iff.1 hi
    obtain ⟨b, _, hb, hin', -⟩ := mem_playableIn_iff.1 hj
    exact ⟨a, b, ha, hb, .inr ⟨UInt8.toNat_inj.1 (hin.trans hin'.symm), hlt⟩⟩
  · apply hkeys.imp
    intro p q hlt i hi j hj
    obtain ⟨a, _, ha, hin, -⟩ := mem_playableIn_iff.1 hi
    obtain ⟨b, _, hb, hin', -⟩ := mem_playableIn_iff.1 hj
    refine ⟨a, b, ha, hb, .inl ?_⟩
    rw [UInt8.lt_iff_toNat_lt, hin, hin']
    exact hlt

theorem getElem?_titles (manager : VideoManager) (sets : TitleSets) (i : Nat) :
    (manager.catalog sets).titles[i]? =
      manager.titles[i]?.map fun entry => titleOf sets entry i := by
  simp only [catalog, List.getElem?_toArray, List.getElem?_map, List.getElem?_zipIdx, Nat.zero_add,
    Option.map_map]
  rfl

theorem index_of_getElem?_titles {title : Title}
    (h : (manager.catalog sets).titles[i]? = some title) : title.index = i := by
  rw [getElem?_titles, Option.map_eq_some_iff] at h
  obtain ⟨entry, -, rfl⟩ := h
  rfl

theorem size_titles (manager : VideoManager) (sets : TitleSets) :
    (manager.catalog sets).titles.size = manager.titles.length := by
  simp [catalog]

/-- The references of a title lead nowhere: out of the title sets of the disc, or out of the tables of
its title set. -/
inductive Dangles (manager : VideoManager) (titleSet? : Nat → Option TitleSet)
    (entry : TitleRecord) : Prop
  | noSet (h : entry.titleSet.toNat = 0 ∨ manager.titleSetCount.toNat < entry.titleSet.toNat)
  | noChains {set : TitleSet} (hset : titleSet? entry.titleSet.toNat = some set)
      (h : set.chains = none)
  | noTitle {set : TitleSet} (hset : titleSet? entry.titleSet.toNat = some set)
      (h : set.partsOfTitle? entry.titleInSet.toNat = none)
  | noParts {set : TitleSet} (hset : titleSet? entry.titleSet.toNat = some set)
      (h : set.partsOfTitle? entry.titleInSet.toNat = some [])
  | noChain {set : TitleSet} {first : PartOfTitle} {rest : List PartOfTitle}
      (hset : titleSet? entry.titleSet.toNat = some set)
      (h : set.partsOfTitle? entry.titleInSet.toNat = some (first :: rest))
      (hchain : set.chain? first.chain.toNat = none)

theorem chainOf?_of_lookup {set : TitleSet} (hset : sets.lookup entry.titleSet.toNat = some set) :
    chainOf? sets entry = set.startChain? entry.titleInSet.toNat := by
  simp only [chainOf?, hset, TitleSet.startChain?, TitleSet.firstPart?, Option.bind_eq_bind,
    Option.bind_some, Option.bind_assoc]

/-- A title dangles exactly when a scan that has read these title sets cannot follow it. -/
theorem dangles_iff {titleSet? : Nat → Option TitleSet}
    (hsets : sets.map Prod.fst = manager.referencedSets)
    (hread : ∀ number set, sets.lookup number = some set → titleSet? number = some set)
    (hentry : entry ∈ manager.titles) :
    manager.Dangles titleSet? entry ↔ chainOf? sets entry = none := by
  by_cases hnumber : entry.titleSet.toNat = 0 ∨ manager.titleSetCount.toNat < entry.titleSet.toNat
  · have hnone : chainOf? sets entry = none := by
      rw [Option.eq_none_iff_forall_ne_some]
      intro chain hchain
      have hmem := hsets ▸ mem_keys_of_chainOf? hchain
      have hbounds := mem_referencedSets_iff.1 hmem
      omega
    exact ⟨fun _ => hnone, fun _ => .noSet hnumber⟩
  · have hmem := mem_referencedSets_of_mem hentry (by omega)
    obtain ⟨set, hset⟩ := mem_keys_iff_lookup.1 (hsets ▸ hmem)
    have htitleSet := hread _ set hset
    rw [chainOf?_of_lookup hset, TitleSet.startChain?]
    constructor
    · rintro (hout | ⟨hset', h⟩ | ⟨hset', h⟩ | ⟨hset', h⟩ | ⟨hset', h, hchain⟩)
      · exact absurd hout hnumber
      all_goals obtain rfl := Option.some.inj (htitleSet.symm.trans hset')
      · simp [TitleSet.chain?_of_no_chains h]
      · simp [h]
      · simp [h]
      · simp [h, hchain]
    · intro hnone
      cases hparts : set.partsOfTitle? entry.titleInSet.toNat with
      | none => exact .noTitle htitleSet hparts
      | some parts =>
        cases parts with
        | nil => exact .noParts htitleSet hparts
        | cons first rest =>
          rw [hparts] at hnone
          exact .noChain htitleSet hparts hnone

end VideoManager

end OpticalDisc
