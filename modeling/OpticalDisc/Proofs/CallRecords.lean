import OpticalDisc.Error

/-!
# Calls and records of them

A call on a device gives an answer and leaves the device in a new state. A recorder stands between a
device and its user. The device answers as it does without the recorder, and every call is written
down, also one that fails.
-/

namespace OpticalDisc

section Answers

variable {ε σ α : Type} {result : EStateM.Result ε σ α} {a : α}

/-- The answer of a call, without the state that it leaves behind. -/
def answerOf : EStateM.Result ε σ α → Except ε α
  | .ok a _ => .ok a
  | .error e _ => .error e

def stateAfter : EStateM.Result ε σ α → σ
  | .ok _ s => s
  | .error _ s => s

theorem answerOf_eq_ok_iff : answerOf result = .ok a ↔ result = .ok a (stateAfter result) := by
  cases result <;> simp [answerOf, stateAfter]

end Answers

/-- A device with the calls that have been made on it, in their order. -/
structure Recorded (κ δ : Type) where
  inner : δ
  calls : List κ

namespace Recorded

variable {κ δ ε α : Type}

def answered (calls : List κ) : EStateM.Result ε δ α → EStateM.Result ε (Recorded κ δ) α
  | .ok a inner => .ok a ⟨inner, calls⟩
  | .error e inner => .error e ⟨inner, calls⟩

/-- Writes a call down, whether it succeeds or not. -/
def record (call : κ) (action : EStateM ε δ α) : EStateM ε (Recorded κ δ) α :=
  fun recorded => answered (recorded.calls ++ [call]) (action recorded.inner)

@[simp] theorem answerOf_record (call : κ) (action : EStateM ε δ α) (recorded : Recorded κ δ) :
    answerOf (record call action recorded) = answerOf (action recorded.inner) := by
  rw [record]
  cases action recorded.inner <;> rfl

@[simp] theorem stateAfter_record (call : κ) (action : EStateM ε δ α) (recorded : Recorded κ δ) :
    (stateAfter (record call action recorded)).inner = stateAfter (action recorded.inner) := by
  rw [record]
  cases action recorded.inner <;> rfl

variable {action : EStateM ε δ α} {call : κ} {inner inner' : δ}

theorem record_of_ok {a : α} (h : action inner = .ok a inner') (calls : List κ) :
    record call action ⟨inner, calls⟩ = .ok a ⟨inner', calls ++ [call]⟩ := by
  rw [record, h, answered]

theorem record_of_error {e : ε} (h : action inner = .error e inner') (calls : List κ) :
    record call action ⟨inner, calls⟩ = .error e ⟨inner', calls ++ [call]⟩ := by
  rw [record, h, answered]

theorem record_append_of_ok {a : α} (h : action inner = .ok a inner') (front rest : List κ) :
    record call action ⟨inner, front ++ rest⟩ = .ok a ⟨inner', front ++ (rest ++ [call])⟩ := by
  rw [record_of_ok h, List.append_assoc]

theorem record_append_of_error {e : ε} (h : action inner = .error e inner')
    (front rest : List κ) :
    record call action ⟨inner, front ++ rest⟩ = .error e ⟨inner', front ++ (rest ++ [call])⟩ := by
  rw [record_of_error h, List.append_assoc]

end Recorded

end OpticalDisc
