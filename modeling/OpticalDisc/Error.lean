/-!
# Failures

Operations on a disc fail with an `Error`, byte streams with an `IoError`. `Error.io` carries a
stream failure unchanged, and `Error.toIo` turns a disc failure into a stream failure that keeps
its message.
-/

namespace OpticalDisc

/-- The kinds of failure that a byte stream reports. -/
inductive IoKind
  | brokenPipe
  | notFound
  | unexpectedEof
  | invalidData
  | invalidInput
  | unsupported
  | timedOut
  | interrupted
  | other
  deriving DecidableEq, Repr

/-- The failures of file access that the operating system reports by number. -/
inductive OsError
  | noEntry
  | notDirectory
  | isDirectory
  | nameTooLong
  deriving DecidableEq, Repr

def OsError.message : OsError → String
  | .noEntry => "No such file or directory (os error 2)"
  | .notDirectory => "Not a directory (os error 20)"
  | .isDirectory => "Is a directory (os error 21)"
  | .nameTooLong => "File name too long (os error 36)"

/-- A failed read or seek. -/
inductive IoError
  | reported (kind : IoKind) (text : String)
  | system (cause : OsError)
  deriving DecidableEq, Repr

namespace IoError

def kind : IoError → IoKind
  | reported kind _ => kind
  | system .noEntry => .notFound
  | system _ => .other

def message : IoError → String
  | reported _ text => text
  | system cause => cause.message

end IoError

/-- A failed operation on a disc. The end of a stream is no failure: reads report it as no bytes. -/
inductive Error
  /-- A disc, a file of it or a playable title is missing. -/
  | notFound (text : String)
  /-- An explicit choice lies outside its bounds. -/
  | outOfRange (what : String) (value count : Nat)
  /-- A table of the disc points outside its own bounds. -/
  | corruptIndex (text : String)
  | io (cause : IoError)
  | unsupported (text : String)
  /-- The caller's buffer cannot hold one sector. -/
  | bufferUnderflow (need size : Nat)
  deriving DecidableEq, Repr

namespace Error

/-- Sectors were asked for and none came. -/
def nothingRead (lba requested : Nat) : Error :=
  io (.reported .unexpectedEof s!"no blocks read ({requested} requested at sector {lba})")

def message : Error → String
  | notFound text => s!"not found: {text}"
  | outOfRange what value count => s!"{what} {value} out of range (valid: 0..{count})"
  | corruptIndex text => s!"corrupt index: {text}"
  | io cause => s!"I/O error: {cause.message}"
  | unsupported text => s!"unsupported: {text}"
  | bufferUnderflow need size => s!"buffer underflow: need {need} bytes, have {size}"

/-- The failure as a byte stream reports it. -/
def toIo : Error → IoError
  | io cause => cause
  | e@(notFound _) => .reported .notFound e.message
  | e@(outOfRange ..) => .reported .invalidInput e.message
  | e@(bufferUnderflow ..) => .reported .invalidInput e.message
  | e@(corruptIndex _) => .reported .invalidData e.message
  | e@(unsupported _) => .reported .unsupported e.message

@[simp] theorem toIo_io (cause : IoError) : (io cause).toIo = cause := rfl

end Error

/-- A step that succeeds hands over to the next one. -/
theorem ok_bind {α β ε : Type} (a : α) (next : α → Except ε β) :
    ((.ok a : Except ε α) >>= next) = next a := rfl

/-- A value of `Except` that comes after another. -/
theorem except_bind_eq_ok_iff {ε α β : Type} {x : Except ε α} {f : α → Except ε β} {b : β} :
    (x >>= f) = .ok b ↔ ∃ a, x = .ok a ∧ f a = .ok b := by
  cases x <;> simp [bind, Except.bind]

/-- The action that has this result and leaves the state alone. -/
def ofResult {ε σ α : Type} : Except ε α → EStateM ε σ α
  | .ok a => pure a
  | .error e => throw e

@[simp] theorem ofResult_ok {ε σ α : Type} (a : α) (s : σ) :
    (ofResult (.ok a) : EStateM ε σ α) s = .ok a s := rfl

@[simp] theorem ofResult_error {ε σ α : Type} (e : ε) (s : σ) :
    (ofResult (.error e) : EStateM ε σ α) s = .error e s := rfl

end OpticalDisc
