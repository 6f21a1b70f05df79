import Mathlib.Tactic
import OpticalDisc.TimeBase

/-!
# Conversions between time bases

A conversion rounds the exact rational time to the nearest tick, a half away from zero, and holds it to
a signed word. Each of the two steps keeps the order of times, so a conversion does. `quotient?` takes
the steps of a conversion in 128-bit words.
-/

namespace OpticalDisc

/-- No integer is nearer to `x` than `n`, and of two that are equally near, `n` is the one farther from
zero. -/
structure IsNearest (x : ℚ) (n : ℤ) : Prop where
  near : |x - n| ≤ 1 / 2
  away : |x - n| = 1 / 2 → |x| ≤ |(n : ℚ)|

theorem IsNearest.neg {x : ℚ} {n : ℤ} (h : IsNearest x n) : IsNearest (-x) (-n) := by
  have hdistance : |-x - ((-n : ℤ) : ℚ)| = |x - n| := by
    rw [Int.cast_neg, ← neg_sub', abs_neg]
  constructor
  · rw [hdistance]
    exact h.near
  · rw [hdistance, abs_neg, Int.cast_neg, abs_neg]
    exact h.away

theorem IsNearest.le {x : ℚ} {m n : ℤ} (hm : IsNearest x m) (hn : IsNearest x n) : m ≤ n := by
  by_contra hlt
  have hstep : (n : ℚ) + 1 ≤ m := by exact_mod_cast Int.not_le.1 hlt
  have hlower := (abs_le.1 hm.near).1
  have hupper := (abs_le.1 hn.near).2
  -- the two are one apart, with `x` in the middle, and one of them is nearer to zero
  have hx : x = n + 1 / 2 := by linarith
  have hnext : (m : ℚ) = n + 1 := by linarith
  rcases le_or_gt 0 n with hsign | hsign
  · have hnonneg : (0 : ℚ) ≤ n := by exact_mod_cast hsign
    have haway := hn.away (by rw [hx]; norm_num)
    rw [hx, abs_of_nonneg (by linarith), abs_of_nonneg hnonneg] at haway
    linarith
  · have hneg : (n : ℚ) + 1 ≤ 0 := by exact_mod_cast hsign
    have haway := hm.away (by rw [hx, hnext]; norm_num)
    rw [hx, hnext, abs_of_nonpos (by linarith), abs_of_nonpos hneg] at haway
    linarith

theorem IsNearest.unique {x : ℚ} {m n : ℤ} (hm : IsNearest x m) (hn : IsNearest x n) : m = n :=
  le_antisymm (hm.le hn) (hn.le hm)

theorem isNearest_intCast (n : ℤ) : IsNearest n n := by
  constructor
  · norm_num
  · intro
    exact le_rfl

section RoundDiv

variable {num den : Int}

theorem roundDiv_of_neg (hnum : num < 0) : roundDiv num den = -roundDiv (-num) den := by
  rw [roundDiv, roundDiv, if_neg (by omega), if_pos (by omega)]

/-- In ticks of `den`, the quotient is off by no more than a half, and only upwards by a half. -/
theorem roundDiv_bounds (hnum : 0 ≤ num) (hden : 0 < den) :
    2 * num - den < 2 * (den * roundDiv num den) ∧ 2 * (den * roundDiv num den) ≤ 2 * num + den := by
  have hdivision := Int.mul_ediv_add_emod (num + den / 2) den
  have hpos := Int.emod_nonneg (num + den / 2) hden.ne'
  have hlt := Int.emod_lt_of_pos (num + den / 2) hden
  rw [roundDiv, if_pos hnum]
  omega

theorem roundDiv_nonneg (hnum : 0 ≤ num) (hden : 0 < den) : 0 ≤ roundDiv num den := by
  rw [roundDiv, if_pos hnum]
  apply Int.ediv_nonneg
  · omega
  · exact hden.le

theorem isNearest_roundDiv_of_nonneg (hnum : 0 ≤ num) (hden : 0 < den) :
    IsNearest ((num : ℚ) / den) (roundDiv num den) := by
  obtain ⟨hlower, hupper⟩ := roundDiv_bounds hnum hden
  have hpos : (0 : ℚ) < den := by exact_mod_cast hden
  have hover : (num : ℚ) / den - roundDiv num den < 1 / 2 := by
    rw [sub_lt_iff_lt_add, div_lt_iff₀ hpos]
    have hcast : 2 * (num : ℚ) - den < 2 * (den * roundDiv num den) := by exact_mod_cast hlower
    linarith
  have hunder : -(1 / 2) ≤ (num : ℚ) / den - roundDiv num den := by
    rw [le_sub_iff_add_le, le_div_iff₀ hpos]
    have hcast : 2 * (den * roundDiv num den : ℚ) ≤ 2 * num + den := by exact_mod_cast hupper
    linarith
  constructor
  · exact abs_le.2 ⟨hunder, hover.le⟩
  · intro htie
    have hle : (num : ℚ) / den ≤ roundDiv num den := by
      by_contra hlt
      rw [abs_of_pos (sub_pos.2 (not_le.1 hlt))] at htie
      exact hover.ne htie
    have hnonneg : 0 ≤ (num : ℚ) / den := div_nonneg (by exact_mod_cast hnum) hpos.le
    rw [abs_of_nonneg hnonneg, abs_of_nonneg (hnonneg.trans hle)]
    exact hle

theorem isNearest_roundDiv (hden : 0 < den) (num : Int) :
    IsNearest ((num : ℚ) / den) (roundDiv num den) := by
  rcases le_or_gt 0 num with hnum | hnum
  · exact isNearest_roundDiv_of_nonneg hnum hden
  · have hpos : 0 ≤ -num := by omega
    have h := (isNearest_roundDiv_of_nonneg hpos hden).neg
    rwa [← roundDiv_of_neg hnum, Int.cast_neg, neg_div, neg_neg] at h

example : roundDiv 5 10 = 1 ∧ roundDiv (-5) 10 = -1 ∧ roundDiv (-4) 10 = 0 := by decide

theorem roundDiv_mono {a b : Int} (hden : 0 < den) (h : a ≤ b) : roundDiv a den ≤ roundDiv b den := by
  rcases le_or_gt 0 a with ha | ha
  · rw [roundDiv, roundDiv, if_pos ha, if_pos (ha.trans h)]
    exact Int.ediv_le_ediv hden (by omega)
  · have hleft : 0 ≤ roundDiv (-a) den := roundDiv_nonneg (by omega) hden
    rw [roundDiv_of_neg ha]
    rcases le_or_gt 0 b with hb | hb
    · have hright : 0 ≤ roundDiv b den := roundDiv_nonneg hb hden
      omega
    · rw [roundDiv_of_neg hb, neg_le_neg_iff, roundDiv, roundDiv, if_pos (by omega),
        if_pos (by omega)]
      exact Int.ediv_le_ediv hden (by omega)

theorem roundDiv_mul (hden : 0 < den) (n : Int) : roundDiv (n * den) den = n := by
  have hquotient : ((n * den : ℤ) : ℚ) / den = n := by
    rw [Int.cast_mul]
    exact mul_div_cancel_right₀ _ (by exact_mod_cast hden.ne')
  have h := isNearest_roundDiv hden (n * den)
  rw [hquotient] at h
  exact h.unique (isNearest_intCast n)

theorem abs_roundDiv_le (hden : 0 < den) {n : Int} (h : |num| ≤ n * den) : |roundDiv num den| ≤ n := by
  obtain ⟨hlower, hupper⟩ := abs_le.1 h
  apply abs_le.2
  constructor
  · rw [← roundDiv_mul hden (-n)]
    apply roundDiv_mono hden
    rwa [neg_mul]
  · rw [← roundDiv_mul hden n]
    exact roundDiv_mono hden hupper

end RoundDiv

namespace TimeBase

structure Positive (base : TimeBase) : Prop where
  num_pos : 0 < base.num
  den_pos : 0 < base.den

theorem positive_disc : Positive .disc := ⟨by decide, by decide⟩

/-- How many ticks of `target` make up `value` ticks of `source`. -/
def exactTicks (value : Int) (source target : TimeBase) : ℚ :=
  ((value * source.num * target.den : Int) : ℚ) / ((source.den * target.num : Int) : ℚ)

/-- The exact number of ticks, rounded to the nearest integer. -/
def nearestTicks (value : Int) (source target : TimeBase) : Int :=
  let num := value * source.num * target.den
  let den := source.den * target.num
  if den < 0 then roundDiv (-num) (-den) else roundDiv num den

section Convert

variable {source target : TimeBase} {value : Int}

theorem convert_of_ne (h : source.den * target.num ≠ 0) :
    convert value source target = clampWord (nearestTicks value source target) := by
  simp only [convert, nearestTicks, if_neg h]
  split <;> rfl

theorem isNearest_nearestTicks (h : source.den * target.num ≠ 0) :
    IsNearest (exactTicks value source target) (nearestTicks value source target) := by
  unfold exactTicks nearestTicks
  dsimp only
  split
  · rename_i hneg
    have hpos : 0 < -(source.den * target.num) := by omega
    -- a quotient stays the same when both of its parts change their sign
    have hnearest := isNearest_roundDiv hpos (-(value * source.num * target.den))
    rwa [Int.cast_neg, Int.cast_neg, neg_div_neg_eq] at hnearest
  · rename_i hnonneg
    exact isNearest_roundDiv (by omega) _

theorem convert_eq (hsource : source.Positive) (htarget : target.Positive) (value : Int) :
    convert value source target = clampWord
      (roundDiv (value * source.num * target.den) (source.den * target.num)) := by
  have hden := Int.mul_pos hsource.den_pos htarget.num_pos
  rw [convert, if_neg hden.ne', if_neg hden.not_gt]

end Convert

def wide? (n : Int) : Option Int :=
  if -2 ^ 127 ≤ n ∧ n < 2 ^ 127 then some n else none

theorem wide?_of_abs_lt {n : Int} (h : |n| < 2 ^ 127) : wide? n = some n := by
  rw [abs_lt] at h
  exact if_pos ⟨h.1.le, h.2⟩

/-- The quotient of a conversion in 128-bit words, with division towards zero. It has no value when a
step leaves the range of these words, or when the divisor is zero. -/
def quotient? (value : Int) (source target : TimeBase) : Option Int := do
  let scaled ← wide? (value * source.num)
  let num ← wide? (scaled * target.den)
  let den ← wide? (source.den * target.num)
  if den = 0 then none
  else do
    let num ← if den < 0 then wide? (-num) else some num
    let den ← if den < 0 then wide? (-den) else some den
    let half := den.tdiv 2
    let shifted ← wide? (if 0 ≤ num then num + half else num - half)
    some (shifted.tdiv den)

/-- A conversion that has no value when its quotient has none, or one that is not a signed word. -/
def guardedConvert (value : Int) (source target : TimeBase) : Option Int := do
  let quotient ← quotient? value source target
  if minWord ≤ quotient ∧ quotient ≤ maxWord then some quotient else none

theorem wide?_shifted {num den : Int} (hden : 0 < den) (h : |num| + den / 2 < 2 ^ 127) :
    wide? (if 0 ≤ num then num + den.tdiv 2 else num - den.tdiv 2) =
      some (if 0 ≤ num then num + den.tdiv 2 else num - den.tdiv 2) := by
  have hlower := neg_abs_le num
  have hupper := le_abs_self num
  apply wide?_of_abs_lt
  rw [Int.tdiv_eq_ediv_of_nonneg hden.le, abs_lt]
  split <;> omega

/-- From half a divisor away from zero, division towards zero rounds to the nearest integer. -/
theorem tdiv_shifted {num den : Int} (hden : 0 < den) :
    (if 0 ≤ num then num + den.tdiv 2 else num - den.tdiv 2).tdiv den = roundDiv num den := by
  rw [Int.tdiv_eq_ediv_of_nonneg hden.le, roundDiv]
  split
  · apply Int.tdiv_eq_ediv_of_nonneg
    omega
  · have hneg : num - den / 2 = -(-num + den / 2) := by omega
    rw [hneg, Int.neg_tdiv, Int.tdiv_eq_ediv_of_nonneg (by omega)]

variable {source target : TimeBase} {value : Int}

theorem quotient?_of_ne (hne : source.den * target.num ≠ 0)
    (hscaled : |value * source.num| < 2 ^ 127)
    (hsum : |value * source.num * target.den| + |source.den * target.num| / 2 < 2 ^ 127)
    (hden : |source.den * target.num| < 2 ^ 127) :
    quotient? value source target = some (nearestTicks value source target) := by
  have hnum : |value * source.num * target.den| < 2 ^ 127 := by
    have hnonneg := abs_nonneg (source.den * target.num)
    omega
  simp only [quotient?, nearestTicks, wide?_of_abs_lt hscaled, wide?_of_abs_lt hnum,
    wide?_of_abs_lt hden, Option.bind_eq_bind, Option.bind_some, if_neg hne]
  split
  · rename_i hneg
    have hpos : 0 < -(source.den * target.num) := by omega
    rw [abs_of_neg hneg, ← abs_neg (value * source.num * target.den)] at hsum
    rw [← abs_neg] at hnum hden
    simp only [wide?_of_abs_lt hnum, wide?_of_abs_lt hden, Option.bind_some, wide?_shifted hpos hsum,
      tdiv_shifted hpos]
  · rename_i hnonneg
    have hpos : 0 < source.den * target.num := by omega
    rw [abs_of_pos hpos] at hsum
    simp only [Option.bind_some, wide?_shifted hpos hsum, tdiv_shifted hpos]

theorem quotient?_eq (hsource : source.Positive) (htarget : target.Positive)
    (hnum : |value * source.num * target.den| + source.den * target.num / 2 < 2 ^ 127)
    (hden : source.den * target.num < 2 ^ 127) :
    quotient? value source target =
      some (roundDiv (value * source.num * target.den) (source.den * target.num)) := by
  have hpos := Int.mul_pos hsource.den_pos htarget.num_pos
  have hle : |value * source.num| ≤ |value * source.num * target.den| := by
    rw [abs_mul (value * source.num)]
    apply le_mul_of_one_le_right (abs_nonneg _)
    exact Int.one_le_abs htarget.den_pos.ne'
  have hscaled : |value * source.num| < 2 ^ 127 := by omega
  rw [← abs_of_pos hpos] at hnum hden
  rw [quotient?_of_ne hpos.ne' hscaled hnum hden, nearestTicks, if_neg hpos.not_gt]

/-- Where the exact number of ticks is within the signed words, a conversion takes every step without
leaving its range, and rounds that number. -/
theorem guardedConvert_eq (hsource : source.Positive) (htarget : target.Positive)
    (hnum : |value * source.num * target.den| + source.den * target.num / 2 < 2 ^ 127)
    (hden : source.den * target.num < 2 ^ 127)
    (hword : |value * source.num * target.den| ≤ maxWord * (source.den * target.num)) :
    guardedConvert value source target = some (convert value source target) ∧
      IsNearest (exactTicks value source target) (convert value source target) := by
  have hpos := Int.mul_pos hsource.den_pos htarget.num_pos
  obtain ⟨hlower, hupper⟩ := abs_le.1 (abs_roundDiv_le hpos hword)
  have hmin : minWord ≤ roundDiv (value * source.num * target.den) (source.den * target.num) := by
    unfold minWord maxWord at *
    omega
  rw [convert_eq hsource htarget, clampWord_of_mem hmin hupper]
  constructor
  · simp only [guardedConvert, quotient?_eq hsource htarget hnum hden, Option.bind_eq_bind,
      Option.bind_some, if_pos (And.intro hmin hupper)]
  · exact isNearest_roundDiv hpos _

end TimeBase

end OpticalDisc
