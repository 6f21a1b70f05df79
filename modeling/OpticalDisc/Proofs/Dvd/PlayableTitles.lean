import OpticalDisc.Proofs.Dvd.TitleScan

/-!
# The titles that a scan offers

A title is playable when its references lead, table by table, to the chain of its first chapter. The
candidates of a scan are the playable titles of the disc, each once, title set by title set; only they
are listed with a length.
-/

namespace OpticalDisc

theorem numbered?_eq_some_iff {α : Type} {list : List α} {number : Nat} {a : α} :
    numbered? list number = some a ↔ 1 ≤ number ∧ list[number - 1]? = some a := by
  cases number <;> simp [numbered?]

theorem TitleSet.chain?_eq_some_iff {set : TitleSet} {number : Nat} {chain : ProgramChain} :
    set.chain? number = some chain ↔
      1 ≤ number ∧ ∃ chains, set.chains = some chains ∧ chains[number - 1]? = some chain := by
  cases number <;> simp [chain?, Option.bind_eq_some_iff]

namespace DvdMedium

variable {δ σ : Type} [DvdMedium δ σ] {disc disc' : δ} {numbers : List Nat} {sets : TitleSets}

/-- The title sets with these numbers open, one after the other. -/
inductive Opens : δ → List Nat → TitleSets → δ → Prop
  | nil {disc : δ} : Opens disc [] [] disc
  | cons {disc next last : δ} {number : Nat} {rest : List Nat} {set : TitleSet} {others : TitleSets}
    (hopen : openTitleSet number disc = .ok set next) (hrest : Opens next rest others last) :
    Opens disc (number :: rest) ((number, set) :: others) last

theorem Opens.readSets_eq (h : Opens disc numbers sets disc') :
    readSets numbers disc = .ok sets disc' := by
  induction h with
  | nil => rfl
  | cons hopen _ ih => simp only [readSets_cons, hopen, ih]

end DvdMedium

namespace VideoManager

variable {manager : VideoManager} {sets : TitleSets} {i : Nat} {chain : ProgramChain}

/-- The references of a title lead to a chain: from its title set, which the disc has, by the first
chapter of its title there, to a chain of the same title set. -/
inductive Playable (manager : VideoManager) (titleSet? : Nat → Option TitleSet) (i : Nat)
    (chain : ProgramChain) : Prop
  | intro {entry : TitleRecord} {set : TitleSet} {chains : Array ProgramChain} {first : PartOfTitle}
    {rest : List PartOfTitle}
    (hentry : manager.titles[i]? = some entry)
    (hnumber : 1 ≤ entry.titleSet.toNat ∧
      entry.titleSet.toNat ≤ min manager.titleSetCount.toNat 255)
    (hset : titleSet? entry.titleSet.toNat = some set)
    (hchains : set.chains = some chains)
    (htitle : 1 ≤ entry.titleInSet.toNat ∧
      set.parts[entry.titleInSet.toNat - 1]? = some (first :: rest))
    (hchain : 1 ≤ first.chain.toNat ∧ chains[first.chain.toNat - 1]? = some chain)

theorem startChain?_eq_some_iff {set : TitleSet} {title : Nat} :
    set.startChain? title = some chain ↔ ∃ first rest,
      (1 ≤ title ∧ set.parts[title - 1]? = some (first :: rest)) ∧
        set.chain? first.chain.toNat = some chain := by
  simp only [TitleSet.startChain?, TitleSet.partsOfTitle?, Option.bind_eq_some_iff,
    numbered?_eq_some_iff, List.head?_eq_some_iff]
  constructor
  · rintro ⟨_, hparts, first, ⟨rest, rfl⟩, hchain⟩
    exact ⟨first, rest, hparts, hchain⟩
  · rintro ⟨first, rest, hparts, hchain⟩
    exact ⟨_, hparts, first, ⟨rest, rfl⟩, hchain⟩

/-- The catalog lists a title with its position and what its entry in the title table says; its length
and its cells are those of the chain that its references lead to, if they lead to one. -/
structure Lists (manager : VideoManager) (titleSet? : Nat → Option TitleSet) (i : Nat)
    (entry : TitleRecord) (title : Title) : Prop where
  index_eq : title.index = i
  chapterCount_eq : title.chapterCount = entry.partCount.toNat
  angleCount_eq : title.angleCount = entry.angleCount.toNat
  reference_eq : title.reference = .dvd entry.titleSet.toNat entry.titleInSet.toNat
  playable {chain : ProgramChain} : manager.Playable titleSet? i chain →
    title.duration = chain.time.ticks ∧ title.unitCount = chain.cells.length
  unplayable : (∀ chain, ¬ manager.Playable titleSet? i chain) →
    title.duration = 0 ∧ title.unitCount = 0

/-- With the title sets of a scan, a title is playable when the scan follows it. -/
theorem playable_iff (hsets : sets.map Prod.fst = manager.referencedSets) :
    manager.Playable (fun number => sets.lookup number) i chain ↔
      ∃ entry, manager.titles[i]? = some entry ∧ chainOf? sets entry = some chain := by
  constructor
  · rintro ⟨hentry, -, hset, hchains, htitle, hfirst, hchain⟩
    refine ⟨_, hentry, ?_⟩
    rw [chainOf?_of_lookup hset, startChain?_eq_some_iff]
    exact ⟨_, _, htitle, TitleSet.chain?_eq_some_iff.2 ⟨hfirst, _, hchains, hchain⟩⟩
  · rintro ⟨entry, hentry, hfound⟩
    have hmem := mem_keys_of_chainOf? hfound
    obtain ⟨set, hset⟩ := mem_keys_iff_lookup.1 hmem
    rw [chainOf?_of_lookup hset, startChain?_eq_some_iff] at hfound
    obtain ⟨first, rest, htitle, hchain⟩ := hfound
    obtain ⟨hfirst, chains, hchains, hchain⟩ := TitleSet.chain?_eq_some_iff.1 hchain
    rw [hsets, mem_referencedSets_iff] at hmem
    exact ⟨hentry, ⟨hmem.1, hmem.2.1⟩, hset, hchains, htitle, hfirst, hchain⟩

theorem mem_candidates_iff_playable (hsets : sets.map Prod.fst = manager.referencedSets) :
    i ∈ (manager.catalog sets).candidates ↔
      ∃ chain, manager.Playable (fun number => sets.lookup number) i chain := by
  simp only [mem_candidates_iff, playable_iff hsets]
  exact exists_comm.trans (by simp)

theorem lists_titleOf {entry : TitleRecord} (hsets : sets.map Prod.fst = manager.referencedSets)
    (hentry : manager.titles[i]? = some entry) :
    manager.Lists (fun number => sets.lookup number) i entry (titleOf sets entry i) where
  index_eq := rfl
  chapterCount_eq := rfl
  angleCount_eq := rfl
  reference_eq := rfl
  playable hplayable := by
    obtain ⟨found, hfound, hchain⟩ := (playable_iff hsets).1 hplayable
    obtain rfl := Option.some.inj (hfound.symm.trans hentry)
    simp only [titleOf, hchain, Option.elim_some, and_self]
  unplayable hnone := by
    have hchain : chainOf? sets entry = none := by
      rw [Option.eq_none_iff_forall_ne_some]
      intro chain hchain
      exact hnone chain ((playable_iff hsets).2 ⟨entry, hentry, hchain⟩)
    simp only [titleOf, hchain, Option.elim_none, and_self]

theorem ScannedBefore.ne {j : Nat} (h : manager.ScannedBefore i j) : i ≠ j := by
  rintro rfl
  obtain ⟨a, b, ha, hb, hlt | ⟨-, hlt⟩⟩ := h
  · obtain rfl := Option.some.inj (ha.symm.trans hb)
    exact UInt8.lt_irrefl _ hlt
  · exact Nat.lt_irrefl _ hlt

end VideoManager

namespace DvdMedium

variable {δ σ : Type} [DvdMedium δ σ] {disc disc₁ disc' : δ} {manager : VideoManager}
  {sets : TitleSets}

/-- A scan of a disc on which the title sets that titles refer to open, in ascending order, succeeds.
Its candidates are the playable titles, each once, by title set and then by index, and its catalog
lists the titles of the title table in their order. -/
theorem scan_offers_playable {numbers : List Nat} (hmanager : openManager disc = .ok manager disc₁)
    (hrefers : manager.Refers numbers) (hopens : Opens disc₁ numbers sets disc') :
    let titleSet? := fun number => sets.lookup number
    ∃ catalog, scan disc = .ok catalog disc' ∧
      (∀ i, i ∈ catalog.candidates ↔ ∃ chain, manager.Playable titleSet? i chain) ∧
      catalog.candidates.Nodup ∧ catalog.candidates.Pairwise manager.ScannedBefore ∧
      catalog.titles.size = manager.titles.length ∧
      ∀ i entry, manager.titles[i]? = some entry →
        ∃ title, catalog.titles[i]? = some title ∧ manager.Lists titleSet? i entry title := by
  obtain rfl := hrefers.eq_referencedSets
  have hread := hopens.readSets_eq
  have hsets := readSets_keys hread
  have hordered := VideoManager.pairwise_candidates hsets
  refine ⟨manager.catalog sets, scan_of_reads hmanager hread, ?_, ?_, hordered,
    manager.size_titles sets, ?_⟩
  · intro i
    exact VideoManager.mem_candidates_iff_playable hsets
  · exact hordered.imp VideoManager.ScannedBefore.ne
  · intro i entry hentry
    refine ⟨VideoManager.titleOf sets entry i, ?_, VideoManager.lists_titleOf hsets hentry⟩
    rw [VideoManager.getElem?_titles, hentry, Option.map_some]

/-- Five titles of a disc with more title sets than a title can refer to: in the last of these, twice in
the second one, in none at all and past the titles of the second one. -/
def manySets : TitleStream.TableDisc Unit where
  manager :=
    { titleSetCount := 300
      titles := [⟨0, 1, 1, 0, 255, 1, 0⟩, ⟨0, 2, 3, 0, 2, 2, 0⟩, ⟨0, 1, 1, 0, 0, 1, 0⟩,
        ⟨0, 1, 1, 0, 2, 3, 0⟩, ⟨0, 1, 1, 0, 2, 1, 0⟩] }
  titleSet :=
    { parts := [[⟨1, 1⟩], [⟨2, 1⟩, ⟨1, 1⟩]]
      chains := some #[
        { time := ⟨0, 0, 0x10, 0x40⟩, programMap := [1], cells := [⟨0, 0, .none, {}⟩] },
        { time := ⟨0, 0, 0x20, 0x40⟩, programMap := [1], cells := [⟨1, 1, .none, {}⟩] }] }
  video := ()

/-- The titles of the second title set come first. -/
theorem scan_offers_playable_manySets :
    ∃ catalog title, scan manySets = .ok catalog manySets ∧ catalog.candidates = [1, 4, 0] ∧
      catalog.titles.size = 5 ∧ catalog.titles[3]? = some title ∧ title.duration = 0 := by
  have hrefers : manySets.manager.Refers [2, 255] := by
    have hreferenced : manySets.manager.referencedSets = [2, 255] := by decide +kernel
    exact hreferenced ▸ manySets.manager.refers_referencedSets
  have hopens : Opens manySets [2, 255] [(2, manySets.titleSet), (255, manySets.titleSet)]
      manySets := .cons rfl (.cons rfl .nil)
  obtain ⟨catalog, hscan, hcandidates, -, -, hsize, hlists⟩ := scan_offers_playable rfl hrefers hopens
  obtain ⟨title, htitle, hlisted⟩ := hlists 3 _ rfl
  have hread : readSets manySets.manager.referencedSets manySets = _ :=
    hrefers.eq_referencedSets ▸ hopens.readSets_eq
  have hcatalog : scan manySets = .ok (manySets.manager.catalog
      [(2, manySets.titleSet), (255, manySets.titleSet)]) manySets := scan_of_reads rfl hread
  obtain ⟨rfl, -⟩ := EStateM.Result.ok.inj (hcatalog.symm.trans hscan)
  have hordered : (manySets.manager.catalog
      [(2, manySets.titleSet), (255, manySets.titleSet)]).candidates = [1, 4, 0] := by
    decide +kernel
  refine ⟨_, title, hscan, hordered, hsize, htitle, (hlisted.unplayable ?_).1⟩
  intro chain hplayable
  have hmem := (hcandidates 3).2 ⟨chain, hplayable⟩
  rw [hordered] at hmem
  simp at hmem

end DvdMedium

end OpticalDisc
