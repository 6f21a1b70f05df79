import Mathlib.Tactic
import OpticalDisc.PlaybackTime

/-!
# Whole seconds of playback times

Ticks are the seconds of a time and what its frames come to. The low six bits of the frame byte can
hold more frames than the rate has in a second, so the whole seconds of the ticks are those of the
time itself, or one more.
-/

namespace OpticalDisc

theorem packedDecimal_le {byte : Nat} (h : byte < 256) : packedDecimal byte ≤ 165 := by
  unfold packedDecimal
  omega

namespace PlaybackTime

variable (t : PlaybackTime)

def frames : Nat :=
  packedDecimal (t.frame.toNat % 64)

/-- The whole seconds that the frames make up at their rate. -/
def frameSeconds : Nat :=
  t.frameRate?.elim 0 fun (num, den) => t.frames * den / num

theorem frames_le : t.frames ≤ 45 := by
  unfold frames packedDecimal
  omega

theorem frameRate?_cases :
    t.frameRate? = none ∨ t.frameRate? = some (25, 1) ∨ t.frameRate? = some (30000, 1001) := by
  unfold frameRate?
  split <;> simp

/-- 25 frames make up a second, or 30 at the slightly slower rate; no more than one second fits into
the frame byte. -/
theorem frameSeconds_le : t.frameSeconds ≤ 1 := by
  have hframes := t.frames_le
  unfold frameSeconds
  rcases t.frameRate?_cases with hrate | hrate | hrate <;>
    simp only [hrate, Option.elim_none, Option.elim_some]
  · exact Nat.zero_le 1
  · omega
  · omega

theorem ticks_div : t.ticks / discClock = t.seconds + t.frameSeconds := by
  have hclock : 0 < discClock := by decide
  unfold ticks frameSeconds
  cases hrate : t.frameRate? with
  | none =>
    simp only [Option.elim_none, Nat.add_zero]
    rw [Nat.mul_div_cancel _ hclock]
  | some rate =>
    obtain ⟨num, den⟩ := rate
    simp only [Option.elim_some]
    calc
      (t.seconds * discClock + t.frames * discClock * den / num) / discClock
        = t.seconds + t.frames * discClock * den / num / discClock := by
          rw [Nat.add_comm, Nat.add_mul_div_right _ _ hclock, Nat.add_comm]
      _ = t.seconds + t.frames * den * discClock / discClock / num := by
          rw [Nat.div_div_eq_div_mul, Nat.mul_comm num, ← Nat.div_div_eq_div_mul,
            Nat.mul_right_comm]
      _ = t.seconds + t.frames * den / num := by
          rw [Nat.mul_div_cancel _ hclock]

theorem seconds_le : t.seconds ≤ 165 * 3661 := by
  have hhour := packedDecimal_le t.hour.toNat_lt
  have hminute := packedDecimal_le t.minute.toNat_lt
  have hsecond := packedDecimal_le t.second.toNat_lt
  unfold seconds
  omega

theorem ticks_le : (t.ticks : Int) ≤ maxWord := by
  have hdiv := t.ticks_div
  have hseconds := t.seconds_le
  have hframes := t.frameSeconds_le
  unfold discClock at hdiv
  unfold maxWord
  omega

end PlaybackTime

end OpticalDisc
