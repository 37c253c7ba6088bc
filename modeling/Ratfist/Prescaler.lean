import Mathlib.Algebra.Order.Floor.Semiring
import Mathlib.Tactic.Common
import Mathlib.Tactic.GCongr
import Mathlib.Tactic.Linarith
import Mathlib.Tactic.Positivity
import Mathlib.Tactic.Ring

/-!
A timer of `w` values behind a prescaler. The prescaler is the smallest with which the timer
reaches `t` clocks; both registers are rounded down, and each counts one clock more than its
value. The period is longer than `t` by at most one tick, and it grows with `t`.
-/
namespace Ratfist.Prescaler

variable {α : Type*} [Field α] [LinearOrder α] [IsStrictOrderedRing α] [FloorSemiring α]

def prescaler (w : ℕ) (t : α) : ℕ := ⌊t / w⌋₊

def counter (w : ℕ) (t : α) : ℕ := ⌊t / (prescaler w t + 1)⌋₊

def period (w : ℕ) (t : α) : ℕ := (prescaler w t + 1) * (counter w t + 1)

variable {w : ℕ} {s t : α}

theorem lt_width_mul (hw : 0 < w) (t : α) : t < w * (prescaler w t + 1) := by
  have hwidth : (0 : α) < w := by exact_mod_cast hw
  have hquot : t / w < prescaler w t + 1 := Nat.lt_floor_add_one (t / w)
  rw [div_lt_iff₀ hwidth] at hquot
  linarith

theorem width_mul_le (hw : 0 < w) (ht : 0 ≤ t) : (w * prescaler w t : α) ≤ t := by
  have hwidth : (0 : α) < w := by exact_mod_cast hw
  have hquot : (prescaler w t : α) ≤ t / w := Nat.floor_le (div_nonneg ht hwidth.le)
  rw [le_div_iff₀ hwidth] at hquot
  linarith

/-- The value of the counter fits the timer. -/
theorem div_prescaler_lt (hw : 0 < w) (t : α) : t / (prescaler w t + 1) < w := by
  have hpos : (0 : α) < prescaler w t + 1 := by positivity
  rw [div_lt_iff₀ hpos]
  exact lt_width_mul hw t

theorem counter_lt (hw : 0 < w) (ht : 0 ≤ t) : counter w t < w := by
  have hpos : (0 : α) < prescaler w t + 1 := by positivity
  exact (Nat.floor_lt (div_nonneg ht hpos.le)).mpr (div_prescaler_lt hw t)

theorem lt_period (w : ℕ) (t : α) : t < period w t := by
  have hpos : (0 : α) < prescaler w t + 1 := by positivity
  have hquot : t / (prescaler w t + 1) < counter w t + 1 := Nat.lt_floor_add_one _
  rw [div_lt_iff₀ hpos] at hquot
  unfold period
  push_cast
  linarith

theorem period_le (ht : 0 ≤ t) : (period w t : α) ≤ t + prescaler w t + 1 := by
  have hpos : (0 : α) < prescaler w t + 1 := by positivity
  have hquot : (counter w t : α) ≤ t / (prescaler w t + 1) := Nat.floor_le (div_nonneg ht hpos.le)
  rw [le_div_iff₀ hpos] at hquot
  unfold period
  push_cast
  linarith

theorem prescaler_mono (h : s ≤ t) : prescaler w s ≤ prescaler w t := by
  apply Nat.floor_mono
  gcongr

/-- Where the prescaler steps up, the longest period of the smaller one is below `t`. -/
theorem period_mono (hw : 0 < w) (hs : 0 ≤ s) (h : s ≤ t) : period w s ≤ period w t := by
  rcases (prescaler_mono (w := w) h).eq_or_lt with hsame | hless
  · have hcounter : counter w s ≤ counter w t := by
      unfold counter
      rw [hsame]
      apply Nat.floor_mono
      gcongr
    unfold period
    rw [hsame]
    exact Nat.mul_le_mul_left _ (Nat.succ_le_succ hcounter)
  · have hlast : period w s ≤ (prescaler w s + 1) * w :=
      Nat.mul_le_mul_left _ (counter_lt hw hs)
    have hfirst : (prescaler w s + 1) * w ≤ w * prescaler w t := by
      rw [Nat.mul_comm]
      exact Nat.mul_le_mul_left _ hless
    have hbelow : ((w * prescaler w t : ℕ) : α) < period w t := by
      push_cast
      exact (width_mul_le hw (hs.trans h)).trans_lt (lt_period w t)
    exact (hlast.trans hfirst).trans (Nat.le_of_lt (by exact_mod_cast hbelow))

end Ratfist.Prescaler
