import OpticalDisc.Proofs.Storage.JoinedParts
import OpticalDisc.Proofs.Storage.Requests
import OpticalDisc.Proofs.Storage.SectorContents

/-!
# Stores that may fail

A store carries some bytes when every read that succeeds brings the next of them. It may fail at any
read and any seek, and a failure may leave it at any position; the bytes stay the same. Parts that
carry their contents make a joined store that carries all of them, one after the other.
-/

namespace OpticalDisc

variable {ρ : Type}

section Carries

variable [SeekableBytes ρ]

/-- A store in one of the states `At position` brings `content` from the position on, at least one
byte of it before its end, with every read that succeeds. -/
structure SeekableBytes.Carries (content : ByteArray) (At : Nat → ρ → Prop) : Prop where
  read {position n : Nat} {store store' : ρ} {chunk : Chunk n} : At position store →
    SeekableBytes.read n store = .ok chunk store' →
    chunk.1 = content.extract position (position + chunk.1.size) ∧
      (0 < n → position < content.size → 0 < chunk.1.size) ∧
      At (position + chunk.1.size) store'
  read_failed {position n : Nat} {store store' : ρ} {e : IoError} : At position store →
    SeekableBytes.read n store = .error e store' → ∃ left, At left store'
  seek {position target reached : Nat} {store store' : ρ} : At position store →
    SeekableBytes.seek (.start target) store = .ok reached store' → At target store'
  seek_failed {position target : Nat} {store store' : ρ} {e : IoError} : At position store →
    SeekableBytes.seek (.start target) store = .error e store' → ∃ left, At left store'
  measure {position length : Nat} {store store' : ρ} : At position store →
    SeekableBytes.seek (.fromEnd 0) store = .ok length store' →
    length = content.size ∧ At length store'

/-- A store that can be read on after an interruption, where it was. -/
structure SeekableBytes.Resumes (content : ByteArray) (At : Nat → ρ → Prop) : Prop
    extends SeekableBytes.Carries content At where
  interrupted {position n : Nat} {store store' : ρ} {e : IoError} : At position store →
    SeekableBytes.read n store = .error e store' → e.kind = .interrupted → At position store'

end Carries

theorem mapM_eq_ok_iff {α β ε : Type} {f : α → Except ε β} {as : List α} {bs : List β} :
    as.mapM f = .ok bs ↔ List.Forall₂ (fun a b => f a = .ok b) as bs := by
  induction as generalizing bs with
  | nil => simp [pure, Except.pure, eq_comm]
  | cons a as ih =>
    rw [List.mapM_cons]
    constructor
    · intro h
      cases ha : f a with
      | error e => simp [ha, bind, Except.bind] at h
      | ok b =>
        cases has : as.mapM f with
        | error e => simp [ha, has, bind, Except.bind] at h
        | ok rest =>
          obtain rfl : b :: rest = bs := by
            simpa [ha, has, bind, Except.bind, pure, Except.pure] using h
          exact .cons ha (ih.1 has)
    · intro h
      cases h with
      | cons ha has => simp [ha, ih.2 has, bind, Except.bind, pure, Except.pure]

/-- A part with this content, measured right. -/
def StorePart.Holds (At : ByteArray → Nat → ρ → Prop) (part : StorePart ρ) (content : ByteArray) :
    Prop :=
  part.length = content.size ∧ ∃ position, At content position part.store

/-- Parts with these contents, behind a position. -/
def JoinedStore.At (At : ByteArray → Nat → ρ → Prop) (contents : List ByteArray) (position : Nat)
    (s : JoinedStore ρ) : Prop :=
  s.position = position ∧ List.Forall₂ (StorePart.Holds At) s.parts contents

section Parts

variable {At : ByteArray → Nat → ρ → Prop} {parts : List (StorePart ρ)} {contents : List ByteArray}

theorem lengthOfParts_eq (h : List.Forall₂ (StorePart.Holds At) parts contents) :
    lengthOfParts parts = (joinBytes contents).size := by
  induction h with
  | nil => rfl
  | cons hpart _ ih => rw [lengthOfParts_cons, ih, joinBytes_cons, ByteArray.size_append, hpart.1]

theorem JoinedStore.length_eq {s : JoinedStore ρ} {position : Nat}
    (h : s.At At contents position) : s.length = (joinBytes contents).size := by
  rw [length_eq_lengthOfParts, lengthOfParts_eq h.2]

theorem exists_contents_of_append {before after : List (StorePart ρ)} {part : StorePart ρ}
    (h : List.Forall₂ (StorePart.Holds At) (before ++ part :: after) contents) :
    ∃ front content rest, contents = front ++ content :: rest ∧
      List.Forall₂ (StorePart.Holds At) before front ∧ part.Holds At content ∧
      List.Forall₂ (StorePart.Holds At) after rest := by
  induction before generalizing contents with
  | nil =>
    cases h with
    | cons hpart hafter => exact ⟨[], _, _, rfl, .nil, hpart, hafter⟩
  | cons first before ih =>
    cases h with
    | @cons _ head _ tail hfirst hrest =>
      obtain ⟨front, content, rest, rfl, hbefore, hpart, hafter⟩ := ih hrest
      exact ⟨head :: front, content, rest, rfl, .cons hfirst hbefore, hpart, hafter⟩

theorem forall₂_moved {before after : List (StorePart ρ)} {part : StorePart ρ}
    {front rest : List ByteArray} {content : ByteArray} {left : Nat} {store : ρ}
    (hbefore : List.Forall₂ (StorePart.Holds At) before front) (hpart : part.Holds At content)
    (hafter : List.Forall₂ (StorePart.Holds At) after rest) (hat : At content left store) :
    List.Forall₂ (StorePart.Holds At) (before ++ { part with store } :: after)
      (front ++ content :: rest) :=
  List.rel_append hbefore (.cons ⟨hpart.1, left, hat⟩ hafter)

end Parts

section ReadAt

variable [SeekableBytes ρ] {content : ByteArray} {At : Nat → ρ → Prop} {part : StorePart ρ}
  {store : ρ} {position n offset : Nat}

theorem StorePart.readAt_ok (hcarries : SeekableBytes.Carries content At)
    (hat : At position part.store) {chunk : Chunk n} (h : part.readAt n offset = .ok chunk store) :
    chunk.1 = content.extract offset (offset + chunk.1.size) ∧
      chunk.1.size ≤ part.length - offset ∧
      (0 < n → offset < part.length → offset < content.size → 0 < chunk.1.size) ∧
      ∃ left, At left store := by
  unfold readAt at h
  split at h
  · simp at h
  · rename_i hseek
    have hsought := hcarries.seek hat hseek
    split at h
    · simp at h
    · rename_i brought _ hread
      obtain ⟨hchunk, hsome, hat'⟩ := hcarries.read hsought hread
      obtain ⟨rfl, rfl⟩ := EStateM.Result.ok.inj h
      have hle := brought.2
      exact ⟨hchunk, by simp only [Chunk.widen]; omega, fun hn hpart hlt => hsome (by omega) hlt,
        _, hat'⟩

theorem StorePart.readAt_failed (hcarries : SeekableBytes.Carries content At)
    (hat : At position part.store) {e : IoError} (h : part.readAt n offset = .error e store) :
    ∃ left, At left store := by
  unfold readAt at h
  split at h
  · rename_i hseek
    obtain ⟨rfl, rfl⟩ := EStateM.Result.error.inj h
    exact hcarries.seek_failed hat hseek
  · rename_i hseek
    split at h
    · rename_i hread
      obtain ⟨rfl, rfl⟩ := EStateM.Result.error.inj h
      exact hcarries.read_failed (hcarries.seek hat hseek) hread
    · simp at h

end ReadAt

namespace JoinedStore

variable [SeekableBytes ρ] {At : ByteArray → Nat → ρ → Prop} {contents : List ByteArray}
  {parts before after : List (StorePart ρ)} {part : StorePart ρ} {store : ρ} {n offset : Nat}

/-- What the part that holds an offset brings lies in the joined contents at the offset. -/
theorem readAt_located (hcarries : ∀ content, SeekableBytes.Carries content (At content))
    (hparts : List.Forall₂ (StorePart.Holds At) parts contents)
    (hlocates : Locates parts offset before part after) {chunk : Chunk n}
    (hread : part.readAt n (offset - lengthOfParts before) = .ok chunk store) :
    chunk.1 = (joinBytes contents).extract offset (offset + chunk.1.size) ∧
      offset + chunk.1.size ≤ lengthOfParts before + part.length ∧ (0 < n → 0 < chunk.1.size) ∧
      List.Forall₂ (StorePart.Holds At) (before ++ { part with store } :: after) contents := by
  obtain ⟨rfl, hle, hlt⟩ := hlocates
  obtain ⟨front, content, rest, rfl, hbefore, hpart, hafter⟩ := exists_contents_of_append hparts
  obtain ⟨hlength, position, hat⟩ := hpart
  obtain ⟨hchunk, hsize, hsome, left, hleft⟩ := StorePart.readAt_ok (hcarries content) hat hread
  have hfront := lengthOfParts_eq hbefore
  refine ⟨?_, by omega, fun hn => hsome hn (by omega) (by omega),
    forall₂_moved hbefore ⟨hlength, position, hat⟩ hafter hleft⟩
  have hstop : offset + chunk.1.size - (joinBytes front).size =
      offset - (joinBytes front).size + chunk.1.size := by omega
  rw [joinBytes_append, extract_append_right (by omega), hstop, joinBytes_cons,
    extract_append_left (by omega), ← hfront]
  exact hchunk

theorem readAt_located_failed (hcarries : ∀ content, SeekableBytes.Carries content (At content))
    (hparts : List.Forall₂ (StorePart.Holds At) parts contents)
    (hlocates : Locates parts offset before part after) {e : IoError}
    (hread : part.readAt n (offset - lengthOfParts before) = .error e store) :
    List.Forall₂ (StorePart.Holds At) (before ++ { part with store } :: after) contents := by
  obtain ⟨rfl, -, -⟩ := hlocates
  obtain ⟨front, content, rest, rfl, hbefore, hpart, hafter⟩ := exists_contents_of_append hparts
  obtain ⟨hlength, position, hat⟩ := hpart
  obtain ⟨left, hleft⟩ := StorePart.readAt_failed (hcarries content) hat hread
  exact forall₂_moved hbefore ⟨hlength, position, hat⟩ hafter hleft

/-- Joined stores carry the contents of their parts one after the other. -/
theorem carries (hcarries : ∀ content, SeekableBytes.Carries content (At content))
    (contents : List ByteArray) :
    SeekableBytes.Carries (joinBytes contents) (JoinedStore.At At contents) where
  read {position n s s' chunk} hat h := by
    obtain ⟨rfl, hparts⟩ := hat
    rcases s.read_cases n with ⟨hpast, hread⟩ | ⟨before, part, after, hlocates, hcase⟩
    · obtain ⟨rfl, rfl⟩ := EStateM.Result.ok.inj (hread.symm.trans h)
      rw [lengthOfParts_eq hparts] at hpast
      refine ⟨?_, fun _ hlt => absurd hlt (Nat.not_lt.2 hpast), rfl, hparts⟩
      simp [Chunk.empty]
    · rcases hcase with ⟨found, store, hbrought, hread⟩ | ⟨e, store, -, hread⟩
      · obtain ⟨rfl, rfl⟩ := EStateM.Result.ok.inj (hread.symm.trans h)
        obtain ⟨hchunk, -, hsome, hparts'⟩ := readAt_located hcarries hparts hlocates hbrought
        exact ⟨hchunk, fun hn _ => hsome hn, rfl, hparts'⟩
      · exact absurd (hread.symm.trans h) (by simp)
  read_failed {position n s s' e} hat h := by
    obtain ⟨rfl, hparts⟩ := hat
    rcases s.read_cases n with ⟨-, hread⟩ | ⟨before, part, after, hlocates, hcase⟩
    · exact absurd (hread.symm.trans h) (by simp)
    · rcases hcase with ⟨chunk, store, -, hread⟩ | ⟨e, store, hfailed, hread⟩
      · exact absurd (hread.symm.trans h) (by simp)
      · obtain ⟨rfl, rfl⟩ := EStateM.Result.error.inj (hread.symm.trans h)
        exact ⟨_, rfl, readAt_located_failed hcarries hparts hlocates hfailed⟩
  seek hat h := by
    obtain ⟨hreached, rfl⟩ := seek_eq_ok h
    exact ⟨(Option.some.inj hreached).symm, hat.2⟩
  seek_failed hat h := by
    simp [SeekableBytes.seek, JoinedStore.seek, SeekTarget.resolve?] at h
  measure hat h := by
    obtain ⟨hlength, rfl⟩ := seek_eq_ok h
    exact ⟨(SeekTarget.eq_of_resolve?_end hlength).trans (length_eq hat), rfl, hat.2⟩

theorem holds_of_measure (hcarries : ∀ content, SeekableBytes.Carries content (At content))
    {content : ByteArray} {position : Nat} {store : ρ} {part : StorePart ρ}
    (hat : At content position store) (h : measure store = .ok part) : part.Holds At content := by
  unfold measure at h
  split at h
  · rename_i length store' hseek
    obtain ⟨hlength, hat'⟩ := (hcarries content).measure hat hseek
    simp only [Except.ok.injEq] at h
    subst h
    exact ⟨hlength, _, hat'⟩
  · simp at h

theorem measure_of_seek {store store' : ρ} {length : Nat}
    (h : SeekableBytes.seek (.fromEnd 0) store = .ok length store') :
    measure store = .ok ⟨store', length⟩ := by
  unfold measure
  rw [h]

theorem at_of_join (hcarries : ∀ content, SeekableBytes.Carries content (At content))
    {stores : List ρ} {contents : List ByteArray} {s : JoinedStore ρ}
    (h : List.Forall₂ (fun store content => ∃ position, At content position store) stores contents)
    (hjoin : join stores = .ok s) : s.At At contents 0 := by
  unfold join at hjoin
  cases hparts : stores.mapM measure with
  | error cause => simp [hparts, bind, Except.bind] at hjoin
  | ok parts =>
    simp only [hparts, bind, Except.bind, pure, Except.pure, Except.ok.injEq] at hjoin
    subst hjoin
    refine ⟨rfl, ?_⟩
    have hmeasured := mapM_eq_ok_iff.1 hparts
    clear hparts
    induction hmeasured generalizing contents with
    | nil =>
      cases h
      exact .nil
    | cons hpart _ ih =>
      cases h with
      | cons hstore hrest =>
        obtain ⟨position, hat⟩ := hstore
        exact .cons (holds_of_measure hcarries hat hpart) (ih hrest)

theorem join_of_measured {stores : List ρ} {parts : List (StorePart ρ)}
    (h : stores.mapM measure = .ok parts) : join stores = .ok { parts } := by
  simp only [join, h, bind, Except.bind, pure, Except.pure]

theorem exists_join {stores : List ρ}
    (h : ∀ store ∈ stores, ∃ length store',
      SeekableBytes.seek (.fromEnd 0) store = .ok length store') : ∃ s, join stores = .ok s := by
  have hmeasured : ∃ parts, stores.mapM measure = .ok parts := by
    induction stores with
    | nil => exact ⟨[], rfl⟩
    | cons store rest ih =>
      obtain ⟨length, store', hseek⟩ := h store List.mem_cons_self
      obtain ⟨parts, hparts⟩ := ih fun later hlater => h later (List.mem_cons_of_mem _ hlater)
      exact ⟨⟨store', length⟩ :: parts,
        mapM_eq_ok_iff.2 (.cons (measure_of_seek hseek) (mapM_eq_ok_iff.1 hparts))⟩
  obtain ⟨parts, hparts⟩ := hmeasured
  exact ⟨_, join_of_measured hparts⟩

end JoinedStore

/-- Bytes in memory whose next reads follow a script: each of them fails, or brings one byte at most.
A failure that is no interruption leaves the store at its end. -/
structure FaultyStore where
  content : ByteArray
  position : Nat := 0
  script : List (Option IoError) := []

namespace FaultyStore

def bring (s : FaultyStore) (n : Nat) (script : List (Option IoError)) :
    EStateM.Result IoError FaultyStore (Chunk n) :=
  let chunk := Chunk.slice s.content s.position n
  .ok chunk { s with position := s.position + chunk.1.size, script }

def read (n : Nat) : EStateM IoError FaultyStore (Chunk n) := fun s =>
  match s.script with
  | [] => s.bring n []
  | none :: script =>
    match s.bring (min n 1) script with
    | .ok chunk s' => .ok (chunk.widen (Nat.min_le_left ..)) s'
    | .error e s' => .error e s'
  | some e :: script =>
    if e.kind = .interrupted then .error e { s with script }
    else .error e { s with script, position := s.content.size }

def seek (target : SeekTarget) : EStateM IoError FaultyStore Nat := fun s =>
  match target.resolve? s.position s.content.size with
  | some position => .ok position { s with position }
  | none => .error (.reported .invalidInput "no such position") s

theorem read_eq_error {n : Nat} {s s' : FaultyStore} {e : IoError} (h : read n s = .error e s') :
    s'.content = s.content ∧ s.script = some e :: s'.script ∧
      (e.kind = .interrupted → s'.position = s.position) := by
  unfold read at h
  split at h
  · simp [bring] at h
  · simp [bring] at h
  · rename_i cause script hscript
    split at h <;> obtain ⟨rfl, rfl⟩ := EStateM.Result.error.inj h
    · exact ⟨rfl, hscript, fun _ => rfl⟩
    · rename_i hkind
      exact ⟨rfl, hscript, fun h => absurd h hkind⟩

theorem read_eq_ok {n : Nat} {s s' : FaultyStore} {chunk : Chunk n} (h : read n s = .ok chunk s') :
    (∃ m, (0 < n → 0 < m) ∧ chunk.1 = s.content.extract s.position (s.position + m)) ∧
      s'.content = s.content ∧ s'.position = s.position + chunk.1.size := by
  unfold read at h
  split at h
  · obtain ⟨rfl, rfl⟩ := EStateM.Result.ok.inj h
    exact ⟨⟨n, id, rfl⟩, rfl, rfl⟩
  · obtain ⟨rfl, rfl⟩ := EStateM.Result.ok.inj h
    exact ⟨⟨min n 1, by omega, rfl⟩, rfl, rfl⟩
  · split at h <;> simp at h

theorem seek_eq_ok {target : SeekTarget} {s s' : FaultyStore} {reached : Nat}
    (h : seek target s = .ok reached s') :
    target.resolve? s.position s.content.size = some reached ∧
      s' = { s with position := reached } := by
  unfold seek at h
  split at h
  · rename_i position hposition
    obtain ⟨rfl, rfl⟩ := EStateM.Result.ok.inj h
    exact ⟨hposition, rfl⟩
  · simp at h

theorem seek_of_resolve? {target : SeekTarget} {s : FaultyStore} {position : Nat}
    (h : target.resolve? s.position s.content.size = some position) :
    seek target s = .ok position { s with position } := by
  simp only [seek, h]

instance : ResumableBytes FaultyStore where
  read := read
  seek := seek
  interruptions_end := by
    refine Subrelation.wf ?_ (measure fun s : FaultyStore => s.script.length).wf
    rintro s' s ⟨n, e, hread, -⟩
    change s'.script.length < s.script.length
    rw [(read_eq_error hread).2.1]
    exact Nat.lt_succ_self _

def At (content : ByteArray) (position : Nat) (s : FaultyStore) : Prop :=
  s.content = content ∧ s.position = position

theorem resumes (content : ByteArray) : SeekableBytes.Resumes content (At content) where
  read {position n s s' chunk} hat h := by
    obtain ⟨rfl, rfl⟩ := hat
    obtain ⟨⟨m, hm, hchunk⟩, hcontent, hposition⟩ := read_eq_ok h
    refine ⟨?_, ?_, hcontent, hposition⟩
    · rw [hchunk, extract_size]
    · intro hn hlt
      rw [hchunk, ByteArray.size_extract]
      have := hm hn
      omega
  read_failed hat h := ⟨_, (read_eq_error h).1.trans hat.1, rfl⟩
  seek hat h := by
    obtain ⟨hreached, rfl⟩ := seek_eq_ok h
    exact ⟨hat.1, (Option.some.inj hreached).symm⟩
  seek_failed hat h := by
    simp [SeekableBytes.seek, seek, SeekTarget.resolve?] at h
  measure hat h := by
    obtain ⟨hlength, rfl⟩ := seek_eq_ok h
    have hsize := congrArg ByteArray.size hat.1
    exact ⟨(SeekTarget.eq_of_resolve?_end hlength).trans hsize, hat.1, rfl⟩
  interrupted hat h hkind := by
    obtain ⟨hcontent, -, hposition⟩ := read_eq_error h
    exact ⟨hcontent.trans hat.1, (hposition hkind).trans hat.2⟩

end FaultyStore

end OpticalDisc
