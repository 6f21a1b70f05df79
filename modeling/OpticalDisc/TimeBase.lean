import OpticalDisc.Word

/-!
# Time bases

A time base is the length of one tick as a fraction of a second. `convert` moves a tick count from
one base to another and rounds to the nearest tick, a half away from zero; results are held to the
range of signed 64-bit words.
-/

namespace OpticalDisc

/-- Ticks last `num / den` seconds. -/
structure TimeBase where
  num : Int
  den : Int
  deriving DecidableEq, Repr

/-- Disc timestamps count at 90 kHz. -/
def discClock : Nat := 90000

/-- The integer nearest to `num / den` for a positive `den`, a half going away from zero. -/
def roundDiv (num den : Int) : Int :=
  if 0 ≤ num then (num + den / 2) / den else -((-num + den / 2) / den)

namespace TimeBase

/-- The base of timestamps on a disc. -/
def disc : TimeBase := ⟨1, discClock⟩

def micros : TimeBase := ⟨1, 1000000⟩

def toText (base : TimeBase) : String :=
  s!"{base.num}/{base.den}"

/-- `value` ticks of `source` as ticks of `target`, and zero when that quotient has no value. -/
def convert (value : Int) (source target : TimeBase) : Int :=
  let num := value * source.num * target.den
  let den := source.den * target.num
  if den = 0 then 0
  else if den < 0 then clampWord (roundDiv (-num) (-den))
  else clampWord (roundDiv num den)

end TimeBase

end OpticalDisc
