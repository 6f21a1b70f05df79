import Mathlib.Tactic
import OpticalDisc.Storage.ByteStore

/-!
# Reads and seeks in sequence

Requests to a stream of bytes and the answers to them, one after the other; `drain` reads to the end.
`FlatRun` says which answers a plain file with a position gives: every stream of bytes is measured
against it.
-/

namespace OpticalDisc

inductive ByteRequest
  | read (n : Nat)
  | seek (target : SeekTarget)
  deriving DecidableEq, Repr

inductive ByteAnswer
  | bytes (bytes : ByteArray)
  | position (position : Nat)
  | failed (cause : IoError)

section Run

variable {ρ : Type} [SeekableBytes ρ]

/-- The answer to a request, and the stream afterwards. -/
def ByteRequest.perform (s : ρ) : ByteRequest → ByteAnswer × ρ
  | .read n =>
    match SeekableBytes.read n s with
    | .ok chunk s' => (.bytes chunk.1, s')
    | .error e s' => (.failed e, s')
  | .seek target =>
    match SeekableBytes.seek target s with
    | .ok position s' => (.position position, s')
    | .error e s' => (.failed e, s')

theorem perform_read_of_ok {n : Nat} {s s' : ρ} {chunk : Chunk n}
    (h : SeekableBytes.read n s = .ok chunk s') :
    (ByteRequest.read n).perform s = (.bytes chunk.1, s') := by
  simp only [ByteRequest.perform, h]

theorem perform_read_of_error {n : Nat} {s s' : ρ} {e : IoError}
    (h : SeekableBytes.read n s = .error e s') :
    (ByteRequest.read n).perform s = (.failed e, s') := by
  simp only [ByteRequest.perform, h]

theorem perform_seek_of_ok {target : SeekTarget} {s s' : ρ} {position : Nat}
    (h : SeekableBytes.seek target s = .ok position s') :
    (ByteRequest.seek target).perform s = (.position position, s') := by
  simp only [ByteRequest.perform, h]

theorem perform_seek_of_error {target : SeekTarget} {s s' : ρ} {e : IoError}
    (h : SeekableBytes.seek target s = .error e s') :
    (ByteRequest.seek target).perform s = (.failed e, s') := by
  simp only [ByteRequest.perform, h]

def performAll (s : ρ) : List ByteRequest → List ByteAnswer × ρ
  | [] => ([], s)
  | request :: rest =>
    let (answer, s') := request.perform s
    let (answers, s'') := performAll s' rest
    (answer :: answers, s'')

@[simp] theorem performAll_nil (s : ρ) : performAll s [] = ([], s) := rfl

@[simp] theorem performAll_cons (s : ρ) (request : ByteRequest) (rest : List ByteRequest) :
    performAll s (request :: rest) =
      ((request.perform s).1 :: (performAll (request.perform s).2 rest).1,
        (performAll (request.perform s).2 rest).2) := rfl

theorem performAll_keeps (Inv : ρ → Prop)
    (hstep : ∀ s request, Inv s → Inv (ByteRequest.perform s request).2) {s : ρ} (hs : Inv s)
    (requests : List ByteRequest) : Inv (performAll s requests).2 := by
  induction requests generalizing s with
  | nil => exact hs
  | cons request rest ih => exact ih (hstep s request hs)

/-- How reading on has ended. -/
inductive ReadEnd
  /-- There may be more. -/
  | unfinished
  /-- A read has brought no bytes. -/
  | finished
  | failed (cause : IoError)

/-- All bytes that reads of these lengths bring, up to the first read that brings none or fails. -/
def drain (s : ρ) : List Nat → ByteArray × ReadEnd
  | [] => (.empty, .unfinished)
  | n :: rest =>
    match SeekableBytes.read n s with
    | .error e _ => (.empty, .failed e)
    | .ok chunk s' =>
      if chunk.1.size = 0 then (.empty, .finished)
      else (chunk.1 ++ (drain s' rest).1, (drain s' rest).2)

theorem drain_of_error {n : Nat} {s s' : ρ} {e : IoError} (rest : List Nat)
    (h : SeekableBytes.read n s = .error e s') : drain s (n :: rest) = (.empty, .failed e) := by
  simp only [drain, h]

theorem drain_of_none {n : Nat} {s s' : ρ} {chunk : Chunk n} (rest : List Nat)
    (h : SeekableBytes.read n s = .ok chunk s') (hnone : chunk.1.size = 0) :
    drain s (n :: rest) = (.empty, .finished) := by
  simp only [drain, h, if_pos hnone]

theorem drain_of_some {n : Nat} {s s' : ρ} {chunk : Chunk n} (rest : List Nat)
    (h : SeekableBytes.read n s = .ok chunk s') (hsome : chunk.1.size ≠ 0) :
    drain s (n :: rest) = (chunk.1 ++ (drain s' rest).1, (drain s' rest).2) := by
  simp only [drain, h, if_neg hsome]

end Run

/-- The place that a target names in a file of `length` bytes, which may lie outside of it. -/
def SeekTarget.place (position length : Nat) : SeekTarget → Int
  | start target => target
  | current offset => position + offset
  | fromEnd offset => length + offset

/-- What a file with these contents answers at a position, and the position afterwards. A read of at
least one byte before the end gives at least one, and may give fewer than were asked for. A seek may
go past the end, but not below zero and not out of the range of 64-bit words. -/
inductive FlatStep (content : ByteArray) (position : Nat) : ByteRequest → ByteAnswer → Nat → Prop
  | noRoom : FlatStep content position (.read 0) (.bytes .empty) position
  | atEnd {n : Nat} : content.size ≤ position →
      FlatStep content position (.read n) (.bytes .empty) position
  | some {n count : Nat} : 0 < count → count ≤ n → position + count ≤ content.size →
      FlatStep content position (.read n) (.bytes (content.extract position (position + count)))
        (position + count)
  | moved {target : SeekTarget} {reached : Nat} :
      (reached : Int) = target.place position content.size → reached < UInt64.size →
      FlatStep content position (.seek target) (.position reached) reached
  | refused {target : SeekTarget} {text : String} :
      target.place position content.size < 0 ∨
        (UInt64.size : Int) ≤ target.place position content.size →
      FlatStep content position (.seek target) (.failed (.reported .invalidInput text)) position

/-- The answers of a file to requests in order, from one position to another. -/
inductive FlatRun (content : ByteArray) : Nat → List ByteRequest → List ByteAnswer → Nat → Prop
  | nil {position : Nat} : FlatRun content position [] [] position
  | cons {position next last : Nat} {request : ByteRequest} {answer : ByteAnswer}
      {rest : List ByteRequest} {answers : List ByteAnswer} :
      FlatStep content position request answer next → FlatRun content next rest answers last →
      FlatRun content position (request :: rest) (answer :: answers) last

/-- A request that a caller with 64-bit words can make. -/
def ByteRequest.IsWord : ByteRequest → Prop
  | .seek (.start target) => target < UInt64.size
  | _ => True

theorem SeekTarget.resolve?_eq_some {target : SeekTarget} {position length reached : Nat}
    (h : target.resolve? position length = some reached) :
    (reached : Int) = target.place position length := by
  cases target with
  | start start => simpa [resolve?, place, eq_comm] using h
  | current offset =>
    simp only [resolve?, positionAt?, Option.ite_none_right_eq_some, Option.some.injEq] at h
    simp only [place]
    omega
  | fromEnd offset =>
    simp only [resolve?, positionAt?, Option.ite_none_right_eq_some, Option.some.injEq] at h
    simp only [place]
    omega

theorem SeekTarget.resolve?_end {position length : Nat} (h : length < UInt64.size) :
    resolve? position length (.fromEnd 0) = some length := by
  have hlow : 0 ≤ (length : Int) + 0 := by omega
  have hhigh : (length : Int) + 0 < (UInt64.size : Int) := by
    rw [Int.add_zero]
    exact Int.ofNat_lt.2 h
  simpa only [resolve?, Int.add_zero, Int.toNat_natCast] using positionAt?_of_mem hlow hhigh

theorem SeekTarget.eq_of_resolve?_end {position length reached : Nat}
    (h : resolve? position length (.fromEnd 0) = some reached) : reached = length := by
  simpa [place] using resolve?_eq_some h

theorem SeekTarget.resolve?_eq_none_iff {target : SeekTarget} {position length : Nat}
    (hword : (ByteRequest.seek target).IsWord) :
    target.resolve? position length = none ↔
      target.place position length < 0 ∨ (UInt64.size : Int) ≤ target.place position length := by
  cases target with
  | start start =>
    simp only [ByteRequest.IsWord] at hword
    simp only [resolve?, place, reduceCtorEq, false_iff]
    omega
  | current offset =>
    simp only [resolve?, positionAt?, place, ite_eq_right_iff, reduceCtorEq, imp_false]
    omega
  | fromEnd offset =>
    simp only [resolve?, positionAt?, place, ite_eq_right_iff, reduceCtorEq, imp_false]
    omega

theorem FlatStep.of_resolve?_eq_some {content : ByteArray} {target : SeekTarget}
    {position reached : Nat} (hword : (ByteRequest.seek target).IsWord)
    (h : target.resolve? position content.size = Option.some reached) :
    FlatStep content position (.seek target) (.position reached) reached := by
  have hplace := SeekTarget.resolve?_eq_some h
  have hnone := @SeekTarget.resolve?_eq_none_iff target position content.size hword
  rw [h, ← hplace] at hnone
  refine .moved hplace ?_
  simp only [reduceCtorEq, false_iff] at hnone
  omega

theorem FlatStep.of_resolve?_eq_none {content : ByteArray} {target : SeekTarget} {position : Nat}
    (hword : (ByteRequest.seek target).IsWord)
    (h : target.resolve? position content.size = none) (text : String) :
    FlatStep content position (.seek target) (.failed (.reported .invalidInput text)) position :=
  .refused ((SeekTarget.resolve?_eq_none_iff hword).1 h)

end OpticalDisc
