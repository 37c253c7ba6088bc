import Ratfist.Prescaler
import Ratfist.Stepper
import Mathlib.Tactic.NormNum

/-!
The rate of the steps, in exact arithmetic. `bsp_stepper_set_rate` divides the clock of the
timebase by a prescaler and a period; both fit their registers, and the time between two
half-steps is that of the rate, rounded up by at most one tick of the prescaler.
-/
namespace Ratfist.StepperRate

open Constants Stepper Prescaler

def absRate (ratePct : ℚ) : ℚ := min |ratePct| 100

def total (b : Board) (ratePct : ℚ) : ℚ := ticksTotal b / absRate ratePct

def stepPeriod (s : StepperBsp) : ℕ := (s.timebase.prescaler + 1) * (s.timebase.period + 1)

structure Timed (total : ℚ) (s : StepperBsp) : Prop where
  prescFits : total / 65536 < 65536
  presc : s.timebase.prescaler = ⌊total / 65536⌋₊
  ctrValFits : total / (s.timebase.prescaler + 1) < 65536
  ctrVal : s.timebase.period = ⌊total / (s.timebase.prescaler + 1)⌋₊
  noSentinel : s.timebase.prescaler ≠ 0xffff
  longer : total < stepPeriod s
  within : (stepPeriod s : ℚ) ≤ total + s.timebase.prescaler + 1

theorem abs_adjRatePct (ratePct : ℚ) : |adjRatePct exact ratePct| = absRate ratePct := by
  unfold adjRatePct absRate exact
  simp only [id_eq, decide_eq_true_eq]
  split_ifs with hhigh hlow
  · have habs : 100 < |ratePct| := hhigh.trans_le (le_abs_self ratePct)
    rw [min_eq_right habs.le]
    norm_num
  · have habs : 100 < |ratePct| := by
      rw [lt_abs]
      right
      linarith
    rw [min_eq_right habs.le]
    norm_num
  · rw [min_eq_left]
    rw [abs_le]
    constructor <;> linarith

/-- What the timebase can count to lies far above the slowest rate. -/
theorem total_bounds (b : Board) {ratePct : ℚ} (h : 0.1 < absRate ratePct) :
    0 ≤ total b ratePct ∧ total b ratePct < 96000000 := by
  have hpos : 0 < absRate ratePct := lt_trans (by norm_num) h
  have hticks : 0 ≤ ticksTotal b ∧ ticksTotal b ≤ 9600000 := by
    cases b <;> norm_num [ticksTotal]
  refine ⟨div_nonneg hticks.1 hpos.le, ?_⟩
  rw [total, div_lt_iff₀ hpos]
  norm_num at h
  linarith [hticks.2]

theorem total_anti (b : Board) {ratePct ratePct' : ℚ} (h : 0.1 < absRate ratePct)
    (hle : |ratePct| ≤ |ratePct'|) : total b ratePct' ≤ total b ratePct := by
  have hpos : 0 < absRate ratePct := lt_trans (by norm_num) h
  have hticks : 0 ≤ ticksTotal b := by cases b <;> norm_num [ticksTotal]
  have hrate : absRate ratePct ≤ absRate ratePct' := min_le_min_right 100 hle
  exact div_le_div_of_nonneg_left hticks hpos hrate

theorem toUInt16_of_lt {x : ℚ} (hx : 0 ≤ x) (h : x < 65536) : exact.toUInt16 x = ⌊x⌋₊ := by
  have hfloor : ⌊x⌋₊ < 65536 := (Nat.floor_lt hx).mpr (by exact_mod_cast h)
  have hnat : ⌊x⌋.toNat = ⌊x⌋₊ := Int.floor_toNat x
  show ⌊x⌋.toNat % 2 ^ 16 = ⌊x⌋₊
  rw [hnat]
  exact Nat.mod_eq_of_lt hfloor

/-- `presc` and `ctr_val` are the registers of a prescaled timer of 65536 values. -/
theorem timebaseSettings_eq (b : Board) {ratePct : ℚ} (h : 0.1 < absRate ratePct) :
    timebaseSettings exact b ratePct =
      (prescaler 65536 (total b ratePct), counter 65536 (total b ratePct)) := by
  obtain ⟨hnonneg, hbound⟩ := total_bounds b h
  have hexceeds : exact.exceeds (exact.fabsf (adjRatePct exact ratePct)) 0.1 = true := by
    show decide (0.1 < |adjRatePct exact ratePct|) = true
    rw [abs_adjRatePct]
    exact decide_eq_true h
  have htotal : exact.div (exact.literal (ticksTotal b))
      (exact.fabsf (adjRatePct exact ratePct)) = total b ratePct := by
    show ticksTotal b / |adjRatePct exact ratePct| = total b ratePct
    rw [abs_adjRatePct, total]
  have hpresc : exact.toUInt16 (exact.div (total b ratePct) (exact.literal 65536)) =
      prescaler 65536 (total b ratePct) := by
    have hdiv : 0 ≤ total b ratePct / 65536 := by positivity
    have hfits : total b ratePct / 65536 < 65536 := by linarith
    exact toUInt16_of_lt hdiv hfits
  have hctrVal : exact.toUInt16 (exact.div (total b ratePct)
      (exact.add (exact.ofCounter (prescaler 65536 (total b ratePct))) (exact.literal 1))) =
      counter 65536 (total b ratePct) := by
    have hdiv : 0 ≤ total b ratePct / ((prescaler 65536 (total b ratePct) : ℕ) + 1 : ℚ) := by
      positivity
    have hfits : total b ratePct / ((prescaler 65536 (total b ratePct) : ℕ) + 1 : ℚ) < 65536 := by
      exact_mod_cast div_prescaler_lt (w := 65536) (by norm_num) (total b ratePct)
    show exact.toUInt16 (total b ratePct / ((prescaler 65536 (total b ratePct) : ℕ) + 1 : ℚ)) = _
    rw [toUInt16_of_lt hdiv hfits, counter]
  rw [timebaseSettings, if_pos hexceeds]
  simp only [htotal, hpresc, hctrVal]

theorem timebaseSettings_stopped (b : Board) {ratePct : ℚ} (h : ¬ 0.1 < absRate ratePct) :
    timebaseSettings exact b ratePct = (0xffff, 0xffff) := by
  have hexceeds : exact.exceeds (exact.fabsf (adjRatePct exact ratePct)) 0.1 = false := by
    show decide (0.1 < |adjRatePct exact ratePct|) = false
    rw [abs_adjRatePct]
    exact decide_eq_false h
  rw [timebaseSettings, hexceeds]
  rfl

theorem setDirection_timebase (s : StepperBsp) (b : Board) (fwd : Bool) :
    (s.setDirection b fwd).timebase = s.timebase := by
  unfold StepperBsp.setDirection
  split_ifs <;> rfl

/-- The timebase after a call, from any state. -/
theorem setRate_timebase {F : Type} (ops : FloatOps F) (b : Board) (s : StepperBsp) {ratePct : F}
    {presc ctrVal : ℕ} (h : timebaseSettings ops b ratePct = (presc, ctrVal)) :
    (s.bspStepperSetRate ops b 0 ratePct).timebase =
      { s.timebase with
        enabled := !(presc == 0xffff && ctrVal == 0xffff) && s.timebase.enabled
        counter := 0
        prescaler := presc
        period := ctrVal } := by
  unfold StepperBsp.bspStepperSetRate
  simp only [h, StepperBsp.update_quiet, StepperBsp.bspStepperIsMoving, ne_eq,
    not_true_eq_false, if_false]
  split_ifs with hrun
  · simp only [setDirection_timebase, hrun]
  · simp only [setDirection_timebase, Bool.not_eq_true] at hrun ⊢
    rw [hrun]

section SetRate

variable (b : Board) (s : StepperBsp) {ratePct : ℚ}

theorem setRate_stepPeriod (h : 0.1 < absRate ratePct) :
    stepPeriod (s.bspStepperSetRate exact b 0 ratePct) = period 65536 (total b ratePct) := by
  rw [stepPeriod, setRate_timebase exact b s (timebaseSettings_eq b h)]
  rfl

theorem setRate_timed (h : 0.1 < absRate ratePct) :
    Timed (total b ratePct) (s.bspStepperSetRate exact b 0 ratePct) := by
  obtain ⟨hnonneg, hbound⟩ := total_bounds b h
  have hpresc : (s.bspStepperSetRate exact b 0 ratePct).timebase.prescaler =
      prescaler 65536 (total b ratePct) := by
    rw [setRate_timebase exact b s (timebaseSettings_eq b h)]
  have hctrVal : (s.bspStepperSetRate exact b 0 ratePct).timebase.period =
      counter 65536 (total b ratePct) := by
    rw [setRate_timebase exact b s (timebaseSettings_eq b h)]
  have hperiod := setRate_stepPeriod b s h
  -- 96000000 / 65536, far below the sentinel
  have hsmall : prescaler 65536 (total b ratePct) < 1465 := by
    rw [prescaler, Nat.floor_lt (by positivity)]
    push_cast
    linarith
  refine ⟨by linarith, hpresc, ?_, ?_, ?_, ?_, ?_⟩
  · rw [hpresc]
    exact_mod_cast div_prescaler_lt (w := 65536) (by norm_num) (total b ratePct)
  · rw [hctrVal, hpresc]
    rfl
  · omega
  · rw [hperiod]
    exact lt_period 65536 (total b ratePct)
  · rw [hperiod, hpresc]
    exact period_le hnonneg

/-- A greater rate has no longer period, also where the prescaler changes. -/
theorem setRate_stepPeriod_anti (s₂ : StepperBsp) {ratePct₂ : ℚ} (h : 0.1 < absRate ratePct)
    (hle : |ratePct| ≤ |ratePct₂|) :
    stepPeriod (s₂.bspStepperSetRate exact b 0 ratePct₂) ≤
      stepPeriod (s.bspStepperSetRate exact b 0 ratePct) := by
  have h₂ : 0.1 < absRate ratePct₂ := h.trans_le (min_le_min_right 100 hle)
  rw [setRate_stepPeriod b s₂ h₂, setRate_stepPeriod b s h]
  exact period_mono (by norm_num) (total_bounds b h₂).1 (total_anti b h hle)

theorem setRate_enabled (ratePct : ℚ) :
    (s.bspStepperSetRate exact b 0 ratePct).timebase.enabled ↔
      s.timebase.enabled ∧ 0.1 < absRate ratePct := by
  by_cases h : 0.1 < absRate ratePct
  · have hsentinel := (setRate_timed b s h).noSentinel
    rw [setRate_timebase exact b s (timebaseSettings_eq b h)] at hsentinel ⊢
    have hruns : (prescaler 65536 (total b ratePct) == 0xffff) = false :=
      beq_eq_false_iff_ne.mpr hsentinel
    simp [hruns, h]
  · rw [setRate_timebase exact b s (timebaseSettings_stopped b h)]
    simp [h]

end SetRate

/-- Above a rate of 0.1 % the timebase gets the period of the rate, and it runs on if it was
running; at or below it stops. -/
theorem bspStepperSetRate_period (b : Board) (s : StepperBsp) (ratePct : ℚ) :
    (0.1 < absRate ratePct →
      Timed (total b ratePct) (s.bspStepperSetRate exact b 0 ratePct) ∧
      ∀ (s₂ : StepperBsp) (ratePct₂ : ℚ), |ratePct| ≤ |ratePct₂| →
        stepPeriod (s₂.bspStepperSetRate exact b 0 ratePct₂) ≤
          stepPeriod (s.bspStepperSetRate exact b 0 ratePct)) ∧
    ((s.bspStepperSetRate exact b 0 ratePct).timebase.enabled ↔
      s.timebase.enabled ∧ 0.1 < absRate ratePct) := by
  refine ⟨fun h => ⟨setRate_timed b s h, ?_⟩, setRate_enabled b s ratePct⟩
  intro s₂ ratePct₂ hle
  exact setRate_stepPeriod_anti b s s₂ h hle

end Ratfist.StepperRate
