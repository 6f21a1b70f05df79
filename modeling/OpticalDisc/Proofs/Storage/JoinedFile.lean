import OpticalDisc.Proofs.Storage.FaultyStores

/-!
# Joined stores as one file

Stores that are joined answer like one file of their contents, however they are read and sought. A
read ends with the part that holds the position, and it fails when that part fails; then the position
stays, so the read can be tried again.
-/

namespace OpticalDisc

namespace JoinedStore

variable {ρ : Type} [SeekableBytes ρ] {At : ByteArray → Nat → ρ → Prop}
  {contents : List ByteArray} {s : JoinedStore ρ}

/-- What joined stores with these contents answer, and the position afterwards. Seeks go as in a file
of all contents. Past its end a read asks no part and brings nothing; before it, the part that holds
the position brings what the file has there, and no more than this part holds, or it fails. -/
inductive Step (contents : List ByteArray) (s : JoinedStore ρ) :
    ByteRequest → ByteAnswer → Nat → Prop
  | sought {target : SeekTarget} {answer : ByteAnswer} {next : Nat}
    (hflat : FlatStep (joinBytes contents) s.position (.seek target) answer next) :
    Step contents s (.seek target) answer next
  | past {n : Nat} (hpast : (joinBytes contents).size ≤ s.position) :
    Step contents s (.read n) (.bytes .empty) s.position
  | brought {n : Nat} {before after : List (StorePart ρ)} {part : StorePart ρ} {chunk : Chunk n}
    {store : ρ} (hlocates : Locates s.parts s.position before part after)
    (hread : part.readAt n (s.position - lengthOfParts before) = .ok chunk store)
    (hflat : FlatStep (joinBytes contents) s.position (.read n) (.bytes chunk.1)
      (s.position + chunk.1.size))
    (hwithin : s.position + chunk.1.size ≤ lengthOfParts before + part.length) :
    Step contents s (.read n) (.bytes chunk.1) (s.position + chunk.1.size)
  | failed {n : Nat} {before after : List (StorePart ρ)} {part : StorePart ρ} {e : IoError}
    {store : ρ} (hlocates : Locates s.parts s.position before part after)
    (hread : part.readAt n (s.position - lengthOfParts before) = .error e store) :
    Step contents s (.read n) (.failed e) s.position

/-- Bytes of the content at the position are what a file brings, unless there are none where some
were asked for. -/
theorem flatStep_read {content : ByteArray} {position n : Nat} {chunk : Chunk n}
    (hchunk : chunk.1 = content.extract position (position + chunk.1.size))
    (hsome : 0 < n → 0 < chunk.1.size) :
    FlatStep content position (.read n) (.bytes chunk.1) (position + chunk.1.size) := by
  have hle := chunk.2
  by_cases hn : n = 0
  · subst hn
    have hnone : chunk.1 = .empty := ByteArray.size_eq_zero_iff.1 (Nat.le_zero.1 hle)
    rw [hnone]
    exact .noRoom
  · have hpos := hsome (Nat.pos_of_ne_zero hn)
    have hsize := congrArg ByteArray.size hchunk
    rw [ByteArray.size_extract] at hsize
    have hflat : FlatStep content position (.read n)
        (.bytes (content.extract position (position + chunk.1.size)))
        (position + chunk.1.size) := .some hpos hle (by omega)
    rwa [← hchunk] at hflat

theorem step_read (hcarries : ∀ content, SeekableBytes.Carries content (At content))
    (hparts : List.Forall₂ (StorePart.Holds At) s.parts contents) (n : Nat) :
    Step contents s (.read n) ((ByteRequest.read n).perform s).1
        ((ByteRequest.read n).perform s).2.position ∧
      List.Forall₂ (StorePart.Holds At) ((ByteRequest.read n).perform s).2.parts contents := by
  rcases s.read_cases n with ⟨hpast, hread⟩ | ⟨before, part, after, hlocates, hcase⟩
  · rw [perform_read_of_ok hread]
    rw [lengthOfParts_eq hparts] at hpast
    exact ⟨.past hpast, hparts⟩
  · rcases hcase with ⟨chunk, store, hbrought, hread⟩ | ⟨e, store, hfailed, hread⟩
    · rw [perform_read_of_ok hread]
      obtain ⟨hchunk, hwithin, hsome, hparts'⟩ := readAt_located hcarries hparts hlocates hbrought
      exact ⟨.brought hlocates hbrought (flatStep_read hchunk hsome) hwithin, hparts'⟩
    · rw [perform_read_of_error hread]
      exact ⟨.failed hlocates hfailed, readAt_located_failed hcarries hparts hlocates hfailed⟩

theorem step_seek (hparts : List.Forall₂ (StorePart.Holds At) s.parts contents)
    {target : SeekTarget} (hword : (ByteRequest.seek target).IsWord) :
    Step contents s (.seek target) ((ByteRequest.seek target).perform s).1
      ((ByteRequest.seek target).perform s).2.position := by
  have hlength := lengthOfParts_eq hparts
  rw [← length_eq_lengthOfParts] at hlength
  cases hplace : target.resolve? s.position s.length with
  | none =>
    rw [perform_seek_of_error (seek_of_resolve?_eq_none hplace)]
    rw [hlength] at hplace
    exact .sought (.of_resolve?_eq_none hword hplace _)
  | some position =>
    rw [perform_seek_of_ok (seek_of_resolve?_eq_some hplace)]
    rw [hlength] at hplace
    exact .sought (.of_resolve?_eq_some hword hplace)

theorem parts_perform_seek (s : JoinedStore ρ) (target : SeekTarget) :
    ((ByteRequest.seek target).perform s).2.parts = s.parts := by
  cases hplace : target.resolve? s.position s.length with
  | none => rw [perform_seek_of_error (seek_of_resolve?_eq_none hplace)]
  | some position => rw [perform_seek_of_ok (seek_of_resolve?_eq_some hplace)]

theorem holds_performAll (hcarries : ∀ content, SeekableBytes.Carries content (At content))
    (hparts : List.Forall₂ (StorePart.Holds At) s.parts contents) (requests : List ByteRequest) :
    List.Forall₂ (StorePart.Holds At) (performAll s requests).2.parts contents := by
  refine performAll_keeps
    (fun s : JoinedStore ρ => List.Forall₂ (StorePart.Holds At) s.parts contents) ?_ hparts requests
  intro s request hparts
  cases request with
  | read n => exact (step_read hcarries hparts n).2
  | seek target => rwa [parts_perform_seek]

/-- Stores that can be measured join to one that starts at the first byte and, after any requests,
answers the next one like a file of all contents, except that its reads end with a part and fail with
it. -/
theorem join_refines_file (hcarries : ∀ content, SeekableBytes.Carries content (At content))
    {stores : List ρ}
    (hstores : List.Forall₂ (fun store content => ∃ position, At content position store)
      stores contents)
    (hmeasured : ∀ store ∈ stores, ∃ length store',
      SeekableBytes.seek (.fromEnd 0) store = .ok length store') :
    ∃ joined, join stores = .ok joined ∧ joined.position = 0 ∧
      joined.length = (joinBytes contents).size ∧
      ∀ (earlier : List ByteRequest) (request : ByteRequest), request.IsWord →
        let s := (performAll joined earlier).2
        Step contents s request (request.perform s).1 (request.perform s).2.position := by
  obtain ⟨joined, hjoin⟩ := exists_join hmeasured
  have hat := at_of_join hcarries hstores hjoin
  refine ⟨joined, hjoin, hat.1, length_eq hat, ?_⟩
  intro earlier request hword
  have hparts := holds_performAll hcarries hat.2 earlier
  cases request with
  | read n => exact (step_read hcarries hparts n).1
  | seek target => exact step_seek hparts hword

/-- Three parts, of which the first gives its bytes one at a time, the second has none and the third
cannot be read at once. -/
def faultyParts : List FaultyStore :=
  [{ content := ⟨#[1, 2]⟩, position := 2, script := [none] }, { content := ⟨#[]⟩ },
    { content := ⟨#[3, 4, 5]⟩, script := [some (.reported .other "unreadable")] }]

theorem seek_faultyParts :
    ∀ store ∈ faultyParts, SeekableBytes.seek (.fromEnd 0) store =
      .ok store.content.size { store with position := store.content.size } := by
  intro store hstore
  have hsize : store.content.size ≤ 3 := by
    simp only [faultyParts, List.mem_cons, List.not_mem_nil, or_false] at hstore
    rcases hstore with rfl | rfl | rfl <;> decide
  have hword : store.content.size < UInt64.size := Nat.lt_of_le_of_lt hsize (by decide)
  exact FaultyStore.seek_of_resolve? (SeekTarget.resolve?_end hword)

def failsWith (cause : IoError) : ByteAnswer → Bool
  | .failed e => e = cause
  | _ => false

theorem eq_failed_of_failsWith {cause : IoError} {answer : ByteAnswer}
    (h : failsWith cause answer = true) : answer = .failed cause := by
  cases answer <;> simp_all [failsWith]

/-- After two reads of a byte each the third part fails, and brings its bytes when it is read again. -/
theorem join_refines_file_faultyParts :
    ∃ joined, join faultyParts = .ok joined ∧ joined.length = 5 ∧
      (List.range 5).map (fun reads =>
        (performAll joined (List.replicate reads (.read 8))).2.position) = [0, 1, 2, 2, 5] ∧
      Step [⟨#[1, 2]⟩, ⟨#[]⟩, ⟨#[3, 4, 5]⟩] (performAll joined [.read 8, .read 8]).2 (.read 8)
        (.failed (.reported .other "unreadable")) 2 := by
  have hstores : List.Forall₂ (fun store content => ∃ position, FaultyStore.At content position store)
      faultyParts [⟨#[1, 2]⟩, ⟨#[]⟩, ⟨#[3, 4, 5]⟩] :=
    .cons ⟨2, rfl, rfl⟩ (.cons ⟨0, rfl, rfl⟩ (.cons ⟨0, rfl, rfl⟩ .nil))
  obtain ⟨joined, hjoin, -, hlength, hstep⟩ :=
    join_refines_file (fun content => (FaultyStore.resumes content).toCarries) hstores
      fun store hstore => ⟨_, _, seek_faultyParts store hstore⟩
  have hparts : faultyParts.mapM measure = .ok (faultyParts.map fun store =>
      ⟨{ store with position := store.content.size }, store.content.size⟩) :=
    mapM_eq_ok_iff.2 (List.forall₂_map_right_iff.2 (List.forall₂_same.2 fun store hstore =>
      measure_of_seek (seek_faultyParts store hstore)))
  have hjoined := Except.ok.inj (hjoin.symm.trans (join_of_measured hparts))
  have hpositions : (List.range 5).map (fun reads =>
      (performAll joined (List.replicate reads (.read 8))).2.position) = [0, 1, 2, 2, 5] := by
    rw [hjoined]
    decide +kernel
  have hanswer : ((ByteRequest.read 8).perform (performAll joined [.read 8, .read 8]).2).1 =
      .failed (.reported .other "unreadable") := by
    apply eq_failed_of_failsWith
    rw [hjoined]
    decide +kernel
  have hposition : ((ByteRequest.read 8).perform
      (performAll joined [.read 8, .read 8]).2).2.position = 2 := by
    rw [hjoined]
    decide +kernel
  have hfailed := hstep [.read 8, .read 8] (.read 8) trivial
  simp only [hanswer, hposition] at hfailed
  exact ⟨joined, hjoin, hlength, hpositions, hfailed⟩

end JoinedStore

end OpticalDisc
