import OpticalDisc.Proofs.Dvd.DiscCalls

/-!
# Discs whose tables stay the same

Calls may change the state of a disc. On an unchanging disc they never change what its manager and
its title sets are, so the same tables are read before and after any calls.
-/

namespace OpticalDisc

namespace DvdMedium

variable {δ σ : Type} [DvdMedium δ σ]

/-- The states that calls bring a disc into, whatever they answer. -/
inductive Reaches (disc : δ) : δ → Prop
  | start : Reaches disc disc
  | manager {later : δ} (h : Reaches disc later) : Reaches disc (stateAfter (openManager later))
  | titleSet {later : δ} (h : Reaches disc later) (number : Nat) :
    Reaches disc (stateAfter (openTitleSet number later))
  | video {later : δ} (h : Reaches disc later) (number : Nat) :
    Reaches disc (stateAfter (openVideo number later))

/-- The tables of the disc are answered in the same way on every call. -/
structure Unchanging (disc : δ) : Prop where
  manager_eq {later : δ} (h : Reaches disc later) :
    answerOf (openManager later) = answerOf (openManager disc)
  titleSet_eq {later : δ} (h : Reaches disc later) (number : Nat) :
    answerOf (openTitleSet number later) = answerOf (openTitleSet number disc)

/-- The tables that a scan reads, as the disc itself answers them. -/
structure Tables (disc : δ) (manager : VideoManager) (sets : TitleSets) : Prop where
  manager_eq : answerOf (openManager disc) = .ok manager
  keys_eq : sets.map Prod.fst = manager.referencedSets
  titleSet_eq : ∀ p ∈ sets, answerOf (openTitleSet p.1 disc) = .ok p.2

theorem Tables.answer_of_lookup {disc : δ} {manager : VideoManager} {sets : TitleSets}
    (h : Tables disc manager sets) {number : Nat} {set : TitleSet}
    (hset : sets.lookup number = some set) : answerOf (openTitleSet number disc) = .ok set := by
  obtain ⟨before, after, rfl, -⟩ := List.lookup_eq_some_iff.1 hset
  exact h.titleSet_eq (number, set) (List.mem_append_right _ List.mem_cons_self)

namespace Unchanging

variable {disc later later₁ later₂ : δ} {manager : VideoManager} {sets : TitleSets}

/-- Title sets are read alike after any calls. The induction is on their numbers: each call leads to
another state that is reached. -/
theorem readSets_iff (h : Unchanging disc) (hlater : Reaches disc later) {numbers : List Nat} :
    (∃ final, readSets numbers later = .ok sets final) ↔
      sets.map Prod.fst = numbers ∧ ∀ p ∈ sets, answerOf (openTitleSet p.1 disc) = .ok p.2 := by
  induction numbers generalizing later sets with
  | nil =>
    simp only [readSets_nil, List.map_eq_nil_iff]
    constructor
    · rintro ⟨_, heq⟩
      obtain ⟨rfl, -⟩ := EStateM.Result.ok.inj heq
      exact ⟨rfl, by simp⟩
    · rintro ⟨rfl, -⟩
      exact ⟨later, rfl⟩
  | cons number rest ih =>
    have hanswer := h.titleSet_eq hlater number
    have hnext := hlater.titleSet number
    rw [exists_readSets_cons_iff]
    constructor
    · rintro ⟨set, next, others, hopen, hothers, rfl⟩
      rw [hopen] at hanswer hnext
      obtain ⟨hkeys, hall⟩ := (ih hnext).1 hothers
      exact ⟨by rw [List.map_cons, hkeys], List.forall_mem_cons.2 ⟨hanswer.symm, hall⟩⟩
    · rintro ⟨hkeys, hall⟩
      obtain ⟨⟨_, set⟩, others, rfl, rfl, hothers⟩ := List.map_eq_cons_iff.1 hkeys
      obtain ⟨hfirst, hall⟩ := List.forall_mem_cons.1 hall
      have hopen := answerOf_eq_ok_iff.1 (hanswer.trans hfirst)
      exact ⟨set, _, others, hopen, (ih hnext).2 ⟨hothers, hall⟩, rfl⟩

theorem tables_of_reads (h : Unchanging disc) (hlater : Reaches disc later)
    (hmanager : openManager later = .ok manager later₁)
    (hsets : openSets manager later₁ = .ok sets later₂) : Tables disc manager sets := by
  have hanswer := h.manager_eq hlater
  have hnext := hlater.manager
  rw [hmanager] at hanswer hnext
  obtain ⟨hkeys, hall⟩ := (h.readSets_iff hnext).1 ⟨later₂, hsets⟩
  exact ⟨hanswer.symm, hkeys, hall⟩

theorem reads_of_tables (h : Unchanging disc) (hlater : Reaches disc later)
    (htables : Tables disc manager sets) :
    ∃ later₁ later₂, openManager later = .ok manager later₁ ∧
      openSets manager later₁ = .ok sets later₂ := by
  have hmanager := answerOf_eq_ok_iff.1 ((h.manager_eq hlater).trans htables.manager_eq)
  obtain ⟨later₂, hsets⟩ :=
    (h.readSets_iff hlater.manager).2 ⟨htables.keys_eq, htables.titleSet_eq⟩
  exact ⟨_, later₂, hmanager, hsets⟩

end Unchanging

theorem unchanging_tableDisc (disc : TitleStream.TableDisc σ) : Unchanging disc := by
  have hsame {later : TitleStream.TableDisc σ} (h : Reaches disc later) : later = disc := by
    induction h with
    | start => rfl
    | manager _ ih => exact ih
    | titleSet _ _ ih => exact ih
    | video _ _ ih => exact ih
  constructor
  · intro later h
    rw [hsame h]
  · intro later h number
    rw [hsame h]

theorem Reaches.of_recorded {disc : δ} {calls : List DiscCall} {later : Recorded DiscCall δ}
    (h : Reaches ⟨disc, calls⟩ later) : Reaches disc later.inner := by
  induction h with
  | start => exact .start
  | manager _ ih =>
    change Reaches disc (stateAfter (Recorded.record _ _ _)).inner
    exact Recorded.stateAfter_record .. ▸ ih.manager
  | titleSet _ number ih =>
    change Reaches disc (stateAfter (Recorded.record _ _ _)).inner
    exact Recorded.stateAfter_record .. ▸ ih.titleSet number
  | video _ number ih =>
    change Reaches disc (stateAfter (Recorded.record _ _ _)).inner
    exact Recorded.stateAfter_record .. ▸ ih.video number

/-- Writing down the calls on an unchanging disc changes its state with each of them, and no answer. -/
theorem Unchanging.recorded {disc : δ} (h : Unchanging disc) (calls : List DiscCall) :
    Unchanging (⟨disc, calls⟩ : Recorded DiscCall δ) := by
  constructor
  · intro later hlater
    change answerOf (Recorded.record _ _ _) = answerOf (Recorded.record _ _ _)
    rw [Recorded.answerOf_record, Recorded.answerOf_record]
    exact h.manager_eq hlater.of_recorded
  · intro later hlater number
    change answerOf (Recorded.record _ _ _) = answerOf (Recorded.record _ _ _)
    rw [Recorded.answerOf_record, Recorded.answerOf_record]
    exact h.titleSet_eq hlater.of_recorded number

end DvdMedium

end OpticalDisc
