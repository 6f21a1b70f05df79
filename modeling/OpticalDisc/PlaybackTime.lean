import OpticalDisc.TimeBase
import OpticalDisc.Text.Number

/-!
# Playback times

A disc stores playback times as four bytes: packed decimal hours, minutes and seconds, and a frame
byte whose top two bits name the frame rate. Digits above nine are not rejected: a packed byte is
always ten times its high nibble plus its low nibble.
-/

namespace OpticalDisc

/-- The value of a packed decimal byte. -/
def packedDecimal (byte : Nat) : Nat :=
  byte / 16 * 10 + byte % 16

/-- A playback time in its four bytes on disc. -/
structure PlaybackTime where
  hour : UInt8 := 0
  minute : UInt8 := 0
  second : UInt8 := 0
  frame : UInt8 := 0
  deriving DecidableEq, Repr, Inhabited

namespace PlaybackTime

variable (t : PlaybackTime)

/-- The time without its frames. -/
def seconds : Nat :=
  packedDecimal t.hour.toNat * 3600 + packedDecimal t.minute.toNat * 60 +
    packedDecimal t.second.toNat

def milliseconds : Nat :=
  t.seconds * 1000

/-- Frames per second as a fraction, when the frame byte names a rate. -/
def frameRate? : Option (Nat × Nat) :=
  match t.frame.toNat / 64 with
  | 1 => some (25, 1)
  | 3 => some (30000, 1001)
  | _ => none

/-- The time in 90 kHz ticks; frames of an unnamed rate do not count. -/
def ticks : Nat :=
  let base := t.seconds * discClock
  match t.frameRate? with
  | some (num, den) => base + packedDecimal (t.frame.toNat % 64) * discClock * den / num
  | none => base

end PlaybackTime

/-- Disc ticks as `h:mm:ss`, with any number of hour digits. -/
def clockText (ticks : Nat) : String :=
  let secs := ticks / discClock
  let minute := Text.zeroPadded 2 (secs % 3600 / 60)
  let second := Text.zeroPadded 2 (secs % 60)
  s!"{secs / 3600}:{minute}:{second}"

end OpticalDisc
