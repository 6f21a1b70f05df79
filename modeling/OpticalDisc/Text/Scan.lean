/-!
# Scans

A scan reads a value off the front of a text and leaves the rest, or fails. Of two alternatives the
second is tried, from the same place, where the first one fails.
-/

namespace OpticalDisc.Text

abbrev Scan := StateT (List Char) Option

namespace Scan

variable {α β : Type}

/-- The next character, if it is one of these. -/
def char (allowed : Char → Bool) : Scan Char
  | [] => none
  | c :: rest => if allowed c then some (c, rest) else none

/-- These characters exactly. -/
def literal (text : String) : Scan Unit := fun cs =>
  if text.toList.isPrefixOf cs then some ((), cs.drop text.length) else none

/-- These characters exactly, which stand for `a`. -/
def word (text : String) (a : α) : Scan α := do
  literal text
  return a

/-- The longest run of such characters, which may be empty. -/
def run (allowed : Char → Bool) : Scan (List Char) := fun cs =>
  some (cs.takeWhile allowed, cs.dropWhile allowed)

/-- As `scan`, or nothing where that fails. -/
def maybe (scan : Scan α) : Scan (Option α) := fun cs =>
  match scan cs with
  | some (a, rest) => some (some a, rest)
  | none => some (none, cs)

/-- At least one such character. -/
def run1 (allowed : Char → Bool) : Scan (List Char) := do
  let first ← char allowed
  return first :: (← run allowed)

/-- Repeats a scan while it succeeds, at most once for each character of `bound`. What was `found`
so far comes newest first. -/
def repeated (scan : Scan α) : (bound : List Char) → (found : List α) → Scan (List α)
  | [], found, cs => some (found.reverse, cs)
  | _ :: bound, found, cs =>
    match scan cs with
    | none => some (found.reverse, cs)
    | some (a, rest) => repeated scan bound (a :: found) rest

/-- Repeats a scan while it succeeds. It has to take something off the text each time, so it cannot
succeed more often than the text has characters. -/
def many (scan : Scan α) : Scan (List α) := fun cs =>
  repeated scan cs [] cs

/-- The text is at its end. -/
def atEnd : Scan Unit := fun cs =>
  if cs.isEmpty then some ((), []) else none

/-- Refuses what does not satisfy a condition. -/
def require (condition : Bool) : Scan Unit := fun cs =>
  if condition then some ((), cs) else none

/-- The value of an option, if there is one. -/
def ofOption (a? : Option α) : Scan α := fun cs =>
  a?.map (·, cs)

/-- What a scan reads from a text when it reads all of it. -/
def whole? (scan : Scan α) (text : String) : Option α :=
  match scan text.toList with
  | some (a, []) => some a
  | _ => none

end Scan

end OpticalDisc.Text
