import OpticalDisc.Proofs.Dvd.PlayheadSeeks
import OpticalDisc.Proofs.Dvd.StreamRefinement

/-!
# Reading a route to its end

A playhead on a device that holds the planned sectors passes at least one of them with every read
before the end. So reads into any buffers come to the end after at most as many reads as sectors are
planned, and what they have brought by then does not depend on the buffers, nor on how many sectors
came at a time.
-/

namespace OpticalDisc

namespace Playhead

open TitleStream (Supplies plannedBytes)

variable {σ : Type} {p : Playhead σ} {route : Route} {contents : Nat → ByteArray}
  {held : Nat → Prop} {good : σ → Prop} {sizes : Nat → Nat}

/-- A playhead on a route, with the bytes of the planned sectors behind it. -/
structure Delivers (p : Playhead σ) (route : Route) (contents : Nat → ByteArray) (good : σ → Prop)
    (bytes : ByteArray) : Prop where
  follows : p.Follows route
  good_device : good p.device
  bytes_eq : bytes = sectorBytes contents ((plannedSectors route.segments).take p.sectorsPassed)

theorem Delivers.ofRoute (hr : route.Accepted) {device : σ} (hgood : good device) :
    (Playhead.ofRoute device route).Delivers route contents good .empty where
  follows := follows_ofRoute hr device
  good_device := by rwa [device_ofRoute]
  bytes_eq := by rw [sectorsPassed_ofRoute hr, List.take_zero, sectorBytes_nil]

variable [SectorDevice σ]

def afterReads (p : Playhead σ) (sizes : Nat → Nat) (n : Nat) : Playhead σ :=
  p.after ((List.range n).map (Move.read <| sizes ·))

def readAnswer (p : Playhead σ) (sizes : Nat → Nat) (n : Nat) : MoveAnswer :=
  (Move.read (sizes n)).answer (p.afterReads sizes n)

def MoveAnswer.data : MoveAnswer → ByteArray
  | .bytes data => data
  | .reached _ | .failed _ => .empty

def returned (p : Playhead σ) (sizes : Nat → Nat) (n : Nat) : ByteArray :=
  joinBytes ((List.range n).map fun i => (p.readAnswer sizes i).data)

theorem afterReads_succ (p : Playhead σ) (sizes : Nat → Nat) (n : Nat) :
    p.afterReads sizes (n + 1) = (Move.read (sizes n)).apply (p.afterReads sizes n) := by
  simp [afterReads, after, List.range_succ]

theorem returned_succ (p : Playhead σ) (sizes : Nat → Nat) (n : Nat) :
    p.returned sizes (n + 1) = p.returned sizes n ++ (p.readAnswer sizes n).data := by
  simp [returned, List.range_succ]

theorem Delivers.read (hs : Supplies route contents held good) {bytes : ByteArray}
    (h : p.Delivers route contents good bytes) {size : Nat} (hsize : sectorSize ≤ size)
    (hword : size / sectorSize < UInt32.size) :
    ∃ data p', Playhead.read size p = .ok data p' ∧ p'.Delivers route contents good (bytes ++ data) ∧
      ∃ count, data.size = sectorOffset count ∧ p'.sectorsPassed = p.sectorsPassed + count ∧
        (0 < count ↔ p.sectorsPassed < (plannedSectors route.segments).length) := by
  have hroom : 0 < size / sectorSize % UInt32.size := by
    rw [Nat.mod_eq_of_lt hword]
    exact Nat.div_pos hsize (by decide)
  rcases h.follows.read_served hs.serves hs.accepted h.good_device hroom hsize with
    ⟨count, p', hread, hgood, hpassed, -, -⟩ | ⟨sector, -, -, -, hnext, hmissing⟩
  · obtain ⟨hp', moved, hbytes, hmoved, hsome⟩ := h.follows.read_ok hs.accepted hroom hread
    obtain rfl : moved = count := by omega
    rw [h.follows.segments_eq] at hsome
    refine ⟨_, p', hread, ⟨hp', hgood, ?_⟩, moved, hbytes, hpassed, hsome⟩
    rw [h.bytes_eq, ← sectorBytes_append, hpassed, List.take_add]
  · exact absurd (hs.holds (List.mem_of_getElem? hnext)) hmissing

section Run

variable (hs : Supplies route contents held good) (hp : p.Delivers route contents good .empty)
  (hsizes : ∀ i, sectorSize ≤ sizes i ∧ sizes i / sectorSize < UInt32.size)

include hs hp hsizes

theorem Delivers.afterReads (n : Nat) :
    (p.afterReads sizes n).Delivers route contents good (p.returned sizes n) := by
  induction n with
  | zero => exact hp
  | succ n ih =>
    obtain ⟨data, p', hread, hp', -⟩ := ih.read hs (hsizes n).1 (hsizes n).2
    obtain ⟨hanswer, hnext⟩ := answer_read_of_ok hread
    rw [afterReads_succ, hnext, returned_succ, readAnswer, hanswer]
    exact hp'

/-- What the read does that comes after `n` others. -/
theorem Delivers.readAnswer_cases (n : Nat) :
    ∃ data count, p.readAnswer sizes n = .bytes data ∧ data.size = sectorOffset count ∧
      (p.afterReads sizes (n + 1)).sectorsPassed = (p.afterReads sizes n).sectorsPassed + count ∧
      (0 < count ↔
        (p.afterReads sizes n).sectorsPassed < (plannedSectors route.segments).length) := by
  have hn := hp.afterReads hs hsizes n
  obtain ⟨data, p', hread, -, count, hdata, hpassed, hsome⟩ := hn.read hs (hsizes n).1 (hsizes n).2
  obtain ⟨hanswer, hnext⟩ := answer_read_of_ok hread
  refine ⟨data, count, hanswer, hdata, ?_, hsome⟩
  rw [afterReads_succ, hnext, hpassed]

theorem Delivers.min_le_sectorsPassed (n : Nat) :
    min n (plannedSectors route.segments).length ≤ (p.afterReads sizes n).sectorsPassed := by
  induction n with
  | zero => exact (Nat.min_le_left ..).trans (Nat.zero_le _)
  | succ n ih =>
    obtain ⟨-, count, -, -, hpassed, hsome⟩ := hp.readAnswer_cases hs hsizes n
    omega

theorem Delivers.monotone_sectorsPassed :
    Monotone fun n => (p.afterReads sizes n).sectorsPassed := by
  apply monotone_nat_of_le_succ
  intro n
  obtain ⟨-, count, -, -, hpassed, -⟩ := hp.readAnswer_cases hs hsizes n
  rw [hpassed]
  exact Nat.le_add_right _ _

theorem Delivers.readAnswer_eq (n : Nat) :
    ∃ data, p.readAnswer sizes n = .bytes data ∧
      (0 < data.size ↔
        (p.afterReads sizes n).sectorsPassed < (plannedSectors route.segments).length) := by
  obtain ⟨data, count, hanswer, hsize, -, hsome⟩ := hp.readAnswer_cases hs hsizes n
  refine ⟨data, hanswer, ?_⟩
  rw [hsize, ← hsome]
  exact Nat.mul_pos_iff_of_pos_right (by decide)

theorem Delivers.returned_eq {n : Nat}
    (hend : (plannedSectors route.segments).length ≤ (p.afterReads sizes n).sectorsPassed) :
    p.returned sizes n = plannedBytes contents route := by
  rw [(hp.afterReads hs hsizes n).bytes_eq, List.take_of_length_le hend, plannedBytes]

/-- By the first read that brings nothing, all planned sectors have been brought. -/
theorem Delivers.returned_of_empty {n : Nat} (hempty : p.readAnswer sizes n = .bytes .empty) :
    p.returned sizes n = plannedBytes contents route := by
  obtain ⟨data, hanswer, hsome⟩ := hp.readAnswer_eq hs hsizes n
  apply hp.returned_eq hs hsizes
  obtain rfl : data = .empty := by simpa [hanswer] using hempty
  rw [← Nat.not_lt, ← hsome]
  exact Nat.lt_irrefl 0

/-- The reads that bring something come first, and are at most as many as the planned sectors. -/
theorem Delivers.exists_end :
    ∃ n ≤ (plannedSectors route.segments).length,
      (∀ i < n, ∃ data, p.readAnswer sizes i = .bytes data ∧ 0 < data.size) ∧
      ∀ i, n ≤ i → p.readAnswer sizes i = .bytes .empty := by
  let passedAll (n : Nat) : Prop :=
    (plannedSectors route.segments).length ≤ (p.afterReads sizes n).sectorsPassed
  have hall : passedAll (plannedSectors route.segments).length := by
    have hpassed := hp.min_le_sectorsPassed hs hsizes (plannedSectors route.segments).length
    rwa [Nat.min_self] at hpassed
  have hexists : ∃ n, passedAll n := ⟨_, hall⟩
  classical
  -- the end is the first read that finds all planned sectors passed
  refine ⟨Nat.find hexists, Nat.find_le hall, ?_, ?_⟩
  · intro i hi
    obtain ⟨data, hanswer, hsome⟩ := hp.readAnswer_eq hs hsizes i
    exact ⟨data, hanswer, hsome.2 (Nat.not_le.1 (Nat.find_min hexists hi))⟩
  · intro i hi
    obtain ⟨data, hanswer, hsome⟩ := hp.readAnswer_eq hs hsizes i
    have hend : passedAll i :=
      (Nat.find_spec hexists).trans (hp.monotone_sectorsPassed hs hsizes hi)
    have hnone : data.size = 0 := by
      have := mt hsome.1 (Nat.not_lt.2 hend)
      omega
    rw [hanswer, ByteArray.size_eq_zero_iff.1 hnone]

end Run

/-- Reads from the start of a route, into any buffers with room for a sector and from a device that
holds the planned sectors and answers each request with any number of sectors from one on, bring
some bytes each for at most as many reads as sectors are planned, and nothing from then on. What
they have brought is the planned sectors in order. So it is the same for any two such runs of reads.
-/
theorem reads_bring_plan {chainNumber : UInt16} {chain : ProgramChain} {program angle : Nat}
    (h : Route.ofChain chainNumber chain program angle = .ok route)
    (hserves : SectorDevice.Serves contents held good)
    (hheld : ∀ sector ∈ plannedSectors route.segments, held sector) {device : σ}
    (hgood : good device)
    (hsizes : ∀ i, sectorSize ≤ sizes i ∧ sizes i / sectorSize < UInt32.size) :
    let p := ofRoute device route
    (∃ n ≤ p.length / sectorSize,
      (∀ i < n, ∃ data, p.readAnswer sizes i = .bytes data ∧ 0 < data.size) ∧
      ∀ i, n ≤ i → p.readAnswer sizes i = .bytes .empty ∧
        p.returned sizes i = sectorBytes contents (plannedSectors route.segments)) ∧
    ∀ {τ : Type} [SectorDevice τ] {otherHeld : Nat → Prop} {otherGood : τ → Prop} {other : τ}
      {otherSizes : Nat → Nat}, SectorDevice.Serves contents otherHeld otherGood →
      (∀ sector ∈ plannedSectors route.segments, otherHeld sector) → otherGood other →
      (∀ i, sectorSize ≤ otherSizes i ∧ otherSizes i / sectorSize < UInt32.size) →
      ∀ {n m : Nat}, p.readAnswer sizes n = .bytes .empty →
        (ofRoute other route).readAnswer otherSizes m = .bytes .empty →
        p.returned sizes n = (ofRoute other route).returned otherSizes m := by
  intro p
  obtain ⟨hr, -, -⟩ := Route.accepted_of_ofChain h
  have hs : Supplies route contents held good := ⟨hr, hserves, (hheld _ ·)⟩
  have hp : p.Delivers route contents good .empty := .ofRoute hr hgood
  constructor
  · obtain ⟨n, hn, hsome, hnone⟩ := hp.exists_end hs hsizes
    refine ⟨n, ?_, hsome, ?_⟩
    · rwa [hp.follows.length_eq_sectors hr, hp.follows.segments_eq, sectorOffset,
        Nat.mul_div_cancel _ (by decide)]
    · intro i hi
      exact ⟨hnone i hi, hp.returned_of_empty hs hsizes (hnone i hi)⟩
  · intro τ _ otherHeld otherGood other otherSizes hotherServes hotherHeld hotherGood hotherSizes n m
      hempty hotherEmpty
    have hother : Supplies route contents otherHeld otherGood := ⟨hr, hotherServes, (hotherHeld _ ·)⟩
    rw [hp.returned_of_empty hs hsizes hempty,
      Delivers.returned_of_empty hother (.ofRoute hr hotherGood) hotherSizes hotherEmpty]

/-- Through a buffer of two sectors and more, and through one of a single sector. -/
theorem reads_bring_plan_twoAngles :
    let content : ByteArray := .mk (Array.replicate 43008 7)
    let route : Route := ⟨1, twoAngles, [⟨1, 2⟩], 1, 0⟩
    let p := ofRoute (StoredSectors.mk (MemoryStore.mk content 0)) route
    Route.ofChain 1 twoAngles 1 1 = .ok route ∧
      ∃ n m, p.readAnswer (fun _ => 5000) n = .bytes .empty ∧
        p.readAnswer (fun _ => 2048) m = .bytes .empty ∧
        p.returned (fun _ => 5000) n =
          sectorBytes (sectorIn content) (plannedSectors route.segments) ∧
        p.returned (fun _ => 5000) n = p.returned (fun _ => 2048) m := by
  intro content route p
  have h : Route.ofChain 1 twoAngles 1 1 = .ok route := rfl
  have hsize : content.size = 43008 := by simp [content, ByteArray.size]
  have hplanned : ∀ sector ∈ plannedSectors route.segments, sector < 21 := by decide +kernel
  have hfits : ∀ sector ∈ plannedSectors route.segments, Fits content sector := by
    intro sector hsector
    have hlt := hplanned sector hsector
    simp only [Fits, hsize, sectorOffset, sectorSize]
    omega
  have hserves := StoredSectors.serves (MemoryStore.reads content)
  have hgood : ∃ position, MemoryStore.At content position (MemoryStore.mk content 0) :=
    ⟨0, rfl, rfl⟩
  have hlarge : ∀ _ : Nat, sectorSize ≤ 5000 ∧ 5000 / sectorSize < UInt32.size :=
    fun _ => by decide
  have hsmall : ∀ _ : Nat, sectorSize ≤ 2048 ∧ 2048 / sectorSize < UInt32.size :=
    fun _ => by decide
  obtain ⟨⟨n, -, -, hend⟩, hsame⟩ := reads_bring_plan h hserves hfits hgood hlarge
  obtain ⟨⟨m, -, -, hother⟩, -⟩ := reads_bring_plan h hserves hfits hgood hsmall
  obtain ⟨hnone, hall⟩ := hend n le_rfl
  obtain ⟨hotherNone, -⟩ := hother m le_rfl
  exact ⟨h, n, m, hnone, hotherNone, hall, hsame hserves hfits hgood hsmall hnone hotherNone⟩

end Playhead

end OpticalDisc
