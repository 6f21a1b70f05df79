/-!
# Signed words

Times are signed 64-bit words. A count that is stored in such a word wraps, and a computed time is
held to the range.
-/

namespace OpticalDisc

/-- The least signed 64-bit word. -/
def minWord : Int := -0x8000000000000000

/-- The greatest signed 64-bit word. -/
def maxWord : Int := 0x7fffffffffffffff

/-- The signed 64-bit word with the bits of `n`. -/
def signedWord (n : Nat) : Int :=
  Int.bmod n UInt64.size

/-- The signed 64-bit word closest to `n`. -/
def clampWord (n : Int) : Int :=
  max minWord (min n maxWord)

theorem signedWord_of_le {n : Nat} (h : (n : Int) ≤ maxWord) : signedWord n = n := by
  simp only [maxWord] at h
  exact Int.bmod_eq_of_le (by simp only [UInt64.size]; omega) (by simp only [UInt64.size]; omega)

theorem clampWord_of_mem {n : Int} (hl : minWord ≤ n) (hu : n ≤ maxWord) : clampWord n = n := by
  unfold clampWord
  omega

end OpticalDisc
