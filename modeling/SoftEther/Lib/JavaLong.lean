import Mathlib.Algebra.Order.Ring.Int

namespace SoftEther.Lib

/-!
# Differences of Java longs

Clock readings are integers; `longSub` is their difference with the wrap of a 64-bit `long`.
For readings in order, a difference above a bound is a true difference above it.
-/

/-- `a - b` on 64-bit longs. -/
def longSub (a b : ℤ) : ℤ := (a - b).bmod (2 ^ 64)

theorem longSub_le {a b : ℤ} (h : b ≤ a) (hpos : 0 ≤ longSub a b) : longSub a b ≤ a - b := by
  unfold longSub at hpos ⊢
  rw [Int.bmod_def] at hpos ⊢
  split at hpos
  · rename_i hlow
    rw [if_pos hlow]
    omega
  · omega

end SoftEther.Lib
