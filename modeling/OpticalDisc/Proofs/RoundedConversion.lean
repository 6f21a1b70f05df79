import OpticalDisc.Proofs.TimeConversion

/-!
# Conversions between any time bases, and back

Whatever the signs of two bases are, a conversion rounds the exact number of ticks to the nearest
integer, a half away from zero, and holds it to a signed word. Its steps stay within 128-bit words as
long as the product that is divided and half the divisor do, so always from the base of disc times. A
disc time comes back from any base whose ticks last no longer than those of the disc.
-/

namespace OpticalDisc

def IsWord (n : Int) : Prop :=
  minWord ≤ n ∧ n ≤ maxWord

namespace IsWord

variable {m n : Int}

theorem clampWord_eq (h : IsWord n) : clampWord n = n :=
  clampWord_of_mem h.1 h.2

theorem abs_le_pow (h : IsWord n) : |n| ≤ 2 ^ 63 := by
  obtain ⟨hlower, hupper⟩ := h
  unfold minWord maxWord at *
  rw [abs_le]
  omega

theorem abs_mul_le (hm : IsWord m) (hn : IsWord n) : |m * n| ≤ 2 ^ 126 := by
  rw [abs_mul]
  exact Int.mul_le_mul hm.abs_le_pow hn.abs_le_pow (abs_nonneg n) (by decide)

end IsWord

namespace TimeBase

theorem wide?_mul {m n : Int} (hm : IsWord m) (hn : IsWord n) : wide? (m * n) = some (m * n) := by
  have hproduct := hm.abs_mul_le hn
  exact wide?_of_abs_lt (by omega)

structure InWords (base : TimeBase) : Prop where
  num : IsWord base.num
  den : IsWord base.den

theorem inWords_disc : InWords .disc := by
  constructor <;> constructor <;> decide

/-- The product that is divided and half the divisor together are within the range of 128-bit words. -/
def Fits (value : Int) (source target : TimeBase) : Prop :=
  |value * source.num * target.den| + |source.den * target.num| / 2 < 2 ^ 127

/-- A conversion whose steps up to the quotient are taken in 128-bit words. It has no value when one of
them leaves the range of these words. -/
def wideConvert (value : Int) (source target : TimeBase) : Option Int := do
  let scaled ← wide? (value * source.num)
  let _ ← wide? (scaled * target.den)
  let den ← wide? (source.den * target.num)
  if den = 0 then some 0
  else do
    let quotient ← quotient? value source target
    some (clampWord quotient)

section Rounding

variable {value : Int} {source target : TimeBase}

theorem Fits.abs_lt (h : Fits value source target) :
    |value * source.num * target.den| < 2 ^ 127 := by
  unfold Fits at h
  have hhalf : 0 ≤ |source.den * target.num| / 2 := Int.ediv_nonneg (abs_nonneg _) (by decide)
  omega

theorem Fits.quotient?_eq (h : Fits value source target) (hvalue : IsWord value)
    (hsource : source.InWords) (htarget : target.InWords) (hne : source.den * target.num ≠ 0) :
    quotient? value source target = some (nearestTicks value source target) := by
  have hscaled := hvalue.abs_mul_le hsource.num
  have hdivisor := hsource.den.abs_mul_le htarget.num
  exact quotient?_of_ne hne (by omega) h (by omega)

theorem Fits.wideConvert_eq (h : Fits value source target) (hvalue : IsWord value)
    (hsource : source.InWords) (htarget : target.InWords) :
    wideConvert value source target = some (convert value source target) := by
  simp only [wideConvert, wide?_mul hvalue hsource.num, wide?_of_abs_lt h.abs_lt,
    wide?_mul hsource.den htarget.num, Option.bind_eq_bind, Option.bind_some]
  by_cases hzero : source.den * target.num = 0
  · simp only [hzero, if_true, convert]
  · rw [if_neg hzero, h.quotient?_eq hvalue hsource htarget hzero, Option.bind_some,
      convert_of_ne hzero]

end Rounding

section Back

variable {value n : Int} {target : TimeBase}

/-- On the way back, the distance to an integer grows or shrinks by the ratio of the two ticks. -/
theorem exactTicks_back_sub (hnum : 0 < target.num) (hden : 0 < target.den) (value n : Int) :
    exactTicks n target .disc - value =
      (n - exactTicks value .disc target) *
        (((disc.den * target.num : Int) : ℚ) / (target.den : ℚ)) := by
  have hnum' : (target.num : ℚ) ≠ 0 := by exact_mod_cast hnum.ne'
  have hden' : (target.den : ℚ) ≠ 0 := by exact_mod_cast hden.ne'
  have hclock : (disc.den : ℚ) ≠ 0 := by norm_num [disc, discClock]
  have hone : (disc.num : ℚ) = 1 := by norm_num [disc]
  unfold exactTicks
  push_cast
  rw [hone]
  field_simp

theorem exactTicks_of_same (hnum : 0 < target.num) (hsame : disc.den * target.num = target.den)
    (value : Int) : exactTicks value .disc target = value := by
  have hclock : disc.den * target.num ≠ 0 := (Int.mul_pos (by decide) hnum).ne'
  rw [exactTicks, ← hsame, show disc.num = 1 from rfl, mul_one, Int.cast_mul value]
  exact mul_div_cancel_right₀ _ (by exact_mod_cast hclock)

/-- From ticks that are no longer than those of the disc, rounding finds the disc time again: half a
tick is less than half a disc tick, or nothing has been rounded. -/
theorem isNearest_back (hnum : 0 < target.num) (hfine : disc.den * target.num ≤ target.den)
    (h : IsNearest (exactTicks value .disc target) n) :
    IsNearest (exactTicks n target .disc) value := by
  have hclock : 0 < disc.den * target.num := Int.mul_pos (by decide) hnum
  have hden : 0 < target.den := hclock.trans_le hfine
  have hden' : (0 : ℚ) < target.den := by exact_mod_cast hden
  have hback := exactTicks_back_sub hnum hden value n
  rcases hfine.lt_or_eq with hfiner | hsame
  · have hratio : 0 < ((disc.den * target.num : Int) : ℚ) / target.den :=
      div_pos (by exact_mod_cast hclock) hden'
    have hless : ((disc.den * target.num : Int) : ℚ) / target.den < 1 := by
      rw [div_lt_one hden']
      exact_mod_cast hfiner
    have hnear : |exactTicks n target .disc - value| < 1 / 2 :=
      calc
        |exactTicks n target .disc - value|
          = |exactTicks value .disc target - n| *
              (((disc.den * target.num : Int) : ℚ) / target.den) := by
            rw [hback, abs_mul, abs_of_pos hratio, abs_sub_comm]
        _ ≤ 1 / 2 * (((disc.den * target.num : Int) : ℚ) / target.den) :=
            mul_le_mul_of_nonneg_right h.near hratio.le
        _ < 1 / 2 := by linarith
    exact ⟨hnear.le, fun htie => absurd htie hnear.ne⟩
  · rw [exactTicks_of_same hnum hsame] at h hback
    obtain rfl := h.unique (isNearest_intCast value)
    rw [sub_self, zero_mul, sub_eq_zero] at hback
    rw [hback]
    exact isNearest_intCast _

theorem fits_back (hn : IsWord n) (htarget : target.InWords) (hnum : 0 < target.num)
    (hfine : disc.den * target.num ≤ target.den) : Fits n target .disc := by
  have hclock : 0 < disc.den * target.num := Int.mul_pos (by decide) hnum
  have hden : |target.den| ≤ 2 ^ 63 := htarget.den.abs_le_pow
  have hproduct : |n * target.num * disc.den| ≤ 2 ^ 126 := by
    rw [mul_assoc, mul_comm target.num, abs_mul, abs_of_pos hclock]
    have hticks : disc.den * target.num ≤ 2 ^ 63 := hfine.trans ((le_abs_self _).trans hden)
    exact Int.mul_le_mul hn.abs_le_pow hticks hclock.le (by decide)
  have hdivisor : |target.den * disc.num| ≤ 2 ^ 63 := by
    rwa [show disc.num = 1 from rfl, mul_one]
  unfold Fits
  omega

/-- A disc time survives the conversion to a base whose ticks last no longer than those of the disc: if
the nearest number of its ticks is a word, the conversion gives that number, and the conversion back gives
the time, with no step out of the range of its words. -/
theorem convert_back (hvalue : IsWord value) (htarget : target.InWords) (hnum : 0 < target.num)
    (hfine : disc.den * target.num ≤ target.den)
    (hnearest : IsNearest (exactTicks value .disc target) n) (hword : IsWord n) :
    convert value .disc target = n ∧ wideConvert n target .disc = some value ∧
      convert n target .disc = value := by
  have hclock : 0 < disc.den * target.num := Int.mul_pos (by decide) hnum
  have hthere : convert value .disc target = n := by
    rw [convert_of_ne hclock.ne', (isNearest_nearestTicks hclock.ne').unique hnearest,
      hword.clampWord_eq]
  have hden : target.den * disc.num ≠ 0 := by
    rw [show disc.num = 1 from rfl, mul_one]
    exact (hclock.trans_le hfine).ne'
  have hreturn : convert n target .disc = value := by
    rw [convert_of_ne hden,
      (isNearest_nearestTicks hden).unique (isNearest_back hnum hfine hnearest), hvalue.clampWord_eq]
  refine ⟨hthere, ?_, hreturn⟩
  rw [(fits_back hword htarget hnum hfine).wideConvert_eq hword htarget inWords_disc, hreturn]

/-- Seven ticks before the start of a disc are 77 microseconds and seven ninths. -/
theorem convert_back_sevenTicks :
    convert (-7) .disc .micros = -78 ∧ wideConvert (-78) .micros .disc = some (-7) := by
  have hseven : IsWord (-7) := ⟨by decide, by decide⟩
  have hmicros : InWords .micros := ⟨⟨by decide, by decide⟩, ⟨by decide, by decide⟩⟩
  have hrounded : nearestTicks (-7) .disc .micros = -78 := by decide
  have hnearest : IsNearest (exactTicks (-7) .disc .micros) (-78) :=
    hrounded ▸ isNearest_nearestTicks (by decide)
  obtain ⟨hthere, hback, -⟩ := convert_back hseven hmicros (by decide) (by decide) hnearest
    ⟨by decide, by decide⟩
  exact ⟨hthere, hback⟩

end Back

end TimeBase

end OpticalDisc
