import Ratfist.Revolution
import Ratfist.StepperPosition

/-!
The stop position in exact arithmetic. `bsp_stepper_set_stop_pos` reduces the angle to one
revolution and then rounds it, so that an angle less than half a half-step below a whole
revolution gives the count 4096 instead of 0.
-/
namespace Ratfist.StopPosition

open Stepper StepperBsp Revolution

/-- The compare channel of the position timer; its interrupt stops the motor. -/
structure Compare where
  value : ℕ
  flag : Bool
  irqEnabled : Bool
deriving DecidableEq, Repr

def Compare.bspStepperSetStopPos {F : Type} (ops : FloatOps F) (c : Compare) (stepperId : UInt8)
    (stopPosDeg : F) : Compare :=
  if stepperId ≠ 0 then c
  else { c with value := stopPos ops stopPosDeg, flag := false, irqEnabled := true }

def nearestHalfStep (angle : ℚ) : ℤ := nearestStep 4096 (angle / 360)

structure Nearest (angle : ℚ) (c : Compare) : Prop where
  count : (c.value : ℤ) = nearestHalfStep angle
  sameAngle : ∀ (c' : Compare) (k : ℤ),
    (c'.bspStepperSetStopPos exact 0 (angle + 360 * k)).value = c.value
  inCircle : ∀ s : StepperBsp, s.position.counter = c.value →
    0 ≤ s.bspStepperGetPos exact 0 ∧ s.bspStepperGetPos exact 0 < 360
  near : ∀ s : StepperBsp, s.position.counter = c.value →
    ∃ k : ℤ, |s.bspStepperGetPos exact 0 - angle + 360 * k| ≤ 360 / 4096 / 2

def adjusted (angle : ℚ) : ℚ :=
  let adj := exact.fmodf angle 360
  if exact.lt adj 0 then adj + 360 else adj

theorem adjusted_eq (angle : ℚ) : adjusted angle = 360 * Int.fract (angle / 360) := by
  have hfract := Int.fract_nonneg (angle / 360)
  have hturn := Int.fract_lt_one (angle / 360)
  have hdown : angle - 360 * ⌊angle / 360⌋ = 360 * Int.fract (angle / 360) := by
    rw [Int.fract]
    ring
  simp only [adjusted, exact, decide_eq_true_eq]
  by_cases hneg : angle / 360 < 0
  · rw [if_pos hneg]
    by_cases hwhole : Int.fract (angle / 360) = 0
    · obtain ⟨turns, hturns⟩ := Int.fract_eq_zero_iff.mp hwhole
      have hzero : angle - 360 * (⌈angle / 360⌉ : ℤ) = 0 := by
        rw [← hturns, Int.ceil_intCast, hturns]
        ring
      rw [hzero, hwhole, if_neg (lt_irrefl 0), mul_zero]
    · have hup : angle - 360 * (⌈angle / 360⌉ : ℤ) = 360 * Int.fract (angle / 360) - 360 := by
        rw [Int.ceil_eq_add_one_sub_fract hwhole]
        ring
      rw [hup, if_pos (by linarith), sub_add_cancel]
  · rw [if_neg hneg, hdown, if_neg (by linarith)]

theorem stopPos_eq (angle : ℚ) : (stopPos exact angle : ℤ) = count 4096 (angle / 360) := by
  have hlow := count_nonneg (n := 4096) (angle / 360)
  have hhigh := count_le (n := 4096) (angle / 360)
  have hround : ⌊4096 * adjusted angle / 360 + 0.5⌋ = count 4096 (angle / 360) := by
    rw [adjusted_eq, count, round_eq]
    congr 1
    push_cast
    ring
  have hvalue : stopPos exact angle = ⌊4096 * adjusted angle / 360 + 0.5⌋.toNat % 2 ^ 32 := rfl
  rw [hvalue, hround]
  omega

section SetStopPos

variable (c : Compare) (angle : ℚ)

theorem setStopPos_value :
    ((c.bspStepperSetStopPos exact 0 angle).value : ℤ) = count 4096 (angle / 360) := by
  rw [Compare.bspStepperSetStopPos, if_neg (by simp)]
  exact stopPos_eq angle

/-- Whole revolutions make no difference, neither to the value nor to whether it is right. -/
theorem setStopPos_turns (c' : Compare) (k : ℤ) :
    (c'.bspStepperSetStopPos exact 0 (angle + 360 * k)).value =
      (c.bspStepperSetStopPos exact 0 angle).value := by
  have hturns : (angle + 360 * k) / 360 = angle / 360 + k := by ring
  have hsame : ((c'.bspStepperSetStopPos exact 0 (angle + 360 * k)).value : ℤ) =
      (c.bspStepperSetStopPos exact 0 angle).value := by
    rw [setStopPos_value, setStopPos_value, hturns, count_add_int]
  exact_mod_cast hsame

variable {c angle}

theorem getPos_of_value {s : StepperBsp}
    (hs : s.position.counter = (c.bspStepperSetStopPos exact 0 angle).value) :
    s.bspStepperGetPos exact 0 = (count 4096 (angle / 360) : ℚ) * 360 / 4096 := by
  rw [StepperPosition.getPos_eq, hs, setStopPos_value]

theorem getPos_near {s : StepperBsp}
    (hs : s.position.counter = (c.bspStepperSetStopPos exact 0 angle).value) :
    |s.bspStepperGetPos exact 0 - angle + 360 * ⌊angle / 360⌋| ≤ 360 / 4096 / 2 := by
  have hnear := count_near (n := 4096) (by norm_num) (angle / 360)
  have hscale : s.bspStepperGetPos exact 0 - angle + 360 * ⌊angle / 360⌋ =
      360 * ((count 4096 (angle / 360) : ℚ) / 4096 - angle / 360 + ⌊angle / 360⌋) := by
    rw [getPos_of_value hs]
    ring
  rw [hscale, abs_mul]
  norm_num at hnear ⊢
  linarith

theorem nearest_of_count (h : count 4096 (angle / 360) = nearestHalfStep angle) :
    Nearest angle (c.bspStepperSetStopPos exact 0 angle) := by
  refine ⟨(setStopPos_value c angle).trans h, setStopPos_turns c angle, ?_, ?_⟩
  · intro s hs
    have hlow : 0 ≤ count 4096 (angle / 360) := count_nonneg _
    have hhigh : count 4096 (angle / 360) < 4096 := by
      rw [h]
      exact Int.emod_lt_of_pos _ (by norm_num)
    have hlow : (0 : ℚ) ≤ count 4096 (angle / 360) := by exact_mod_cast hlow
    have hhigh : (count 4096 (angle / 360) : ℚ) < 4096 := by exact_mod_cast hhigh
    rw [getPos_of_value hs]
    constructor <;> linarith
  · intro s hs
    exact ⟨⌊angle / 360⌋, getPos_near hs⟩

end SetStopPos

/-- The compare value is right unless the angle is within half a half-step below a whole
revolution. -/
theorem setStopPos_nearest_iff (c : Compare) (angle : ℚ) :
    Nearest angle (c.bspStepperSetStopPos exact 0 angle) ↔
      360 * Int.fract (angle / 360) < 360 - 360 / 4096 / 2 := by
  have hlast : 360 * Int.fract (angle / 360) < 360 - 360 / 4096 / 2 ↔
      count 4096 (angle / 360) = nearestHalfStep angle := by
    rw [nearestHalfStep, count_eq_nearestStep_iff (by norm_num)]
    constructor <;> intro h <;> push_cast at h ⊢ <;> linarith
  rw [hlast]
  constructor
  · intro hnearest
    exact (setStopPos_value c angle).symm.trans hnearest.count
  · exact nearest_of_count

/-- The motor is to stop at 359.99 degrees, and its stop position is 360 degrees. -/
theorem setStopPos_whole_revolution : ∃ s : StepperBsp,
    s.position.counter = ((⟨0, false, false⟩ : Compare).bspStepperSetStopPos exact 0 359.99).value ∧
    s.bspStepperGetPos exact 0 = 360 ∧
    ¬ Nearest 359.99 ((⟨0, false, false⟩ : Compare).bspStepperSetStopPos exact 0 359.99) := by
  have hcount : count 4096 ((359.99 : ℚ) / 360) = 4096 := by
    decide +kernel
  obtain ⟨s, hs⟩ : ∃ s : StepperBsp, s.position.counter =
      ((⟨0, false, false⟩ : Compare).bspStepperSetStopPos exact 0 359.99).value :=
    ⟨{ bspSpinnerInit .stm32f411discovery with position := ⟨true, true, _, 0, 4096⟩ }, rfl⟩
  have hpos : s.bspStepperGetPos exact 0 = 360 := by
    rw [getPos_of_value hs, hcount]
    norm_num
  exact ⟨s, hs, hpos, fun h => (hpos ▸ (h.inCircle s hs).2).false⟩

end Ratfist.StopPosition
