import Mathlib.Algebra.Order.Round
import Mathlib.Tactic.Common
import Mathlib.Tactic.FieldSimp
import Mathlib.Tactic.Linarith
import Mathlib.Tactic.Positivity
import Mathlib.Tactic.Ring

/-!
A wheel of `n` steps to a revolution. The step nearest to an angle is found by rounding, and
rounding may end in the next revolution; who reduces the angle first and rounds afterwards
misses that on the last half of a step.
-/
namespace Ratfist.Revolution

variable {α : Type*} [Field α] [LinearOrder α] [IsStrictOrderedRing α] [FloorRing α]

def nearestStep (n : ℕ) (turns : α) : ℤ := round (n * turns) % n

/-- The angle reduced to one revolution and then rounded. -/
def count (n : ℕ) (turns : α) : ℤ := round (n * Int.fract turns)

variable {n : ℕ}

theorem count_add_int (turns : α) (k : ℤ) : count n (turns + k) = count n turns := by
  rw [count, Int.fract_add_intCast, count]

theorem round_eq_count (turns : α) : round (n * turns) = count n turns + n * ⌊turns⌋ := by
  have hsplit : n * turns = n * Int.fract turns + ((n * ⌊turns⌋ : ℤ) : α) := by
    rw [Int.fract]
    push_cast
    ring
  rw [hsplit, round_add_intCast, count]

theorem count_nonneg (turns : α) : 0 ≤ count n turns := by
  have hpart : 0 ≤ (n : α) * Int.fract turns := mul_nonneg n.cast_nonneg (Int.fract_nonneg turns)
  rw [count, round_eq, Int.floor_nonneg]
  linarith

theorem count_le (turns : α) : count n turns ≤ n := by
  have hpart : (n : α) * Int.fract turns ≤ n :=
    mul_le_of_le_one_right n.cast_nonneg (Int.fract_lt_one turns).le
  have hless : (count n turns : α) < n + 1 := by
    have hround := round_le_add_half ((n : α) * Int.fract turns)
    rw [count]
    linarith
  exact Int.lt_add_one_iff.mp (by exact_mod_cast hless)

theorem count_lt_iff (hn : 0 < n) (turns : α) :
    count n turns < n ↔ Int.fract turns < 1 - 1 / (2 * n) := by
  have hpos : (0 : α) < n := by exact_mod_cast hn
  have hlast : (n : α) * (1 - 1 / (2 * n)) = n - 1 / 2 := by
    field_simp
  rw [count, round_eq, Int.floor_lt, Int.cast_natCast, ← lt_sub_iff_add_lt, ← hlast]
  exact mul_lt_mul_iff_right₀ hpos

/-- Except on the last half of a step, where the wheel should be at the step 0. -/
theorem count_eq_nearestStep_iff (hn : 0 < n) (turns : α) :
    count n turns = nearestStep n turns ↔ Int.fract turns < 1 - 1 / (2 * n) := by
  rw [← count_lt_iff hn, nearestStep, round_eq_count, Int.add_mul_emod_self_left]
  constructor
  · intro heq
    rw [heq]
    exact Int.emod_lt_of_pos _ (by omega)
  · intro hlt
    exact (Int.emod_eq_of_lt (count_nonneg turns) hlt).symm

theorem count_near (hn : 0 < n) (turns : α) :
    |(count n turns : α) / n - turns + ⌊turns⌋| ≤ 1 / (2 * n) := by
  have hpos : (0 : α) < n := by exact_mod_cast hn
  have hround := abs_sub_round ((n : α) * Int.fract turns)
  have hscale : (count n turns : α) / n - turns + ⌊turns⌋ =
      -((n : α) * Int.fract turns - count n turns) / n := by
    rw [Int.fract]
    field_simp
    ring
  rw [hscale, abs_div, abs_neg, abs_of_pos hpos, count]
  calc |(n : α) * Int.fract turns - round ((n : α) * Int.fract turns)| / n
      ≤ 1 / 2 / n := by gcongr
    _ = 1 / (2 * n) := by rw [div_div]

end Ratfist.Revolution
