import Ratfist.Stepper
import Mathlib.Tactic.Linarith
import Mathlib.Tactic.NormNum

/-!
The position that the stepper motor reports. A revolution has 4096 half-steps for
`bsp_stepper_get_pos` and `bsp_stepper_set_stop_pos`, but the position timer counts modulo
one more, as its period register is the last value that it takes.
-/
namespace Ratfist.StepperPosition

open Constants Stepper StepperBsp

variable {F : Type} (ops : FloatOps F)

def tally (fwd : Bool) : Bool × ℕ → Action F → Bool × ℕ
  | (dir, k), .halfStep => (dir, if dir = fwd then k + 1 else k)
  | (dir, k), .setRate id ratePct => (if id = 0 then newDirIsFwd ops ratePct else dir, k)
  | (dir, k), _ => (dir, k)

def halfSteps (fwd : Bool) (actions : List (Action F)) : ℕ :=
  (actions.foldl (tally ops fwd) (true, 0)).2

def net (actions : List (Action F)) : ℤ := halfSteps ops true actions - halfSteps ops false actions

def position (net : ℤ) : ℚ := (net % 4096 : ℤ) * 360 / 4096

/-- The motor reports the position that its half-steps have led to. -/
structure Reports (b : Board) (actions : List (Action F)) (s : StepperBsp) : Prop where
  position : s.bspStepperGetPos exact 0 = position (net ops actions)
  inCircle : 0 ≤ s.bspStepperGetPos exact 0 ∧ s.bspStepperGetPos exact 0 < 360
  sameNet : ∀ actions' s', run ops b actions' = some s' → net ops actions' = net ops actions →
    s'.bspStepperGetPos exact 0 = s.bspStepperGetPos exact 0

section Tally

variable {ops}

theorem tally_direction (fwd : Bool) (actions : List (Action F)) :
    (actions.foldl (tally ops fwd) (true, 0)).1 = commanded ops actions := by
  induction actions using List.reverseRecOn with
  | nil => rfl
  | append_singleton actions action ih =>
    rw [commanded_snoc, List.foldl_append, List.foldl_cons, List.foldl_nil, ← ih]
    cases action <;> rfl

theorem halfSteps_snoc (fwd : Bool) (actions : List (Action F)) (action : Action F) :
    halfSteps ops fwd (actions ++ [action]) =
      match action with
      | .halfStep => if commanded ops actions = fwd then halfSteps ops fwd actions + 1
        else halfSteps ops fwd actions
      | _ => halfSteps ops fwd actions := by
  rw [halfSteps, List.foldl_append, List.foldl_cons, List.foldl_nil, ← tally_direction fwd]
  cases action <;> rfl

theorem net_other (actions : List (Action F)) {action : Action F} (h : action ≠ .halfStep) :
    net ops (actions ++ [action]) = net ops actions := by
  rw [net, halfSteps_snoc, halfSteps_snoc]
  cases action with
  | halfStep => exact absurd rfl h
  | _ => rfl

theorem net_halfStep (actions : List (Action F)) :
    net ops (actions ++ [.halfStep]) =
      net ops actions + if commanded ops actions then 1 else -1 := by
  rw [net, halfSteps_snoc, halfSteps_snoc, net]
  cases commanded ops actions <;> simp <;> omega

end Tally

/-- The counter takes the values from 0 to its period, in both directions. -/
theorem count_counter {t : Timer} {n : ℤ} (hperiod : t.period = 4096)
    (h : (t.counter : ℤ) = n % 4097) :
    (t.count.counter : ℤ) = (n + if t.up then 1 else -1) % 4097 := by
  unfold Timer.count
  cases t.up
  · simp only [Bool.false_eq_true, if_false, hperiod]
    split_ifs <;> omega
  · simp only [if_true, hperiod]
    split_ifs <;> omega

theorem counter_of_run {b : Board} {actions : List (Action F)} {s : StepperBsp}
    (h : run ops b actions = some s) :
    (s.position.counter : ℤ) = net ops actions % 4097 := by
  refine Runs.runs_history
    (fun earlier (m : StepperBsp) => (m.position.counter : ℤ) = net ops earlier % 4097) ?_ ?_ h
  · rfl
  · intro earlier action m t hm ih hstep
    have hsteered := steered_of_run hm
    cases hsteered.step hstep with
    | other action timebase hother _ =>
      rw [net_other earlier hother]
      exact ih
    | setRate ratePct timebase fwd' hfwd' =>
      rw [net_other earlier (by simp)]
      exact ih
    | halfStep henabled =>
      rw [net_halfStep, ← hsteered.up]
      exact count_counter hsteered.period ih

/-- In exact arithmetic the position is the one that the counter stands for. -/
theorem getPos_eq (s : StepperBsp) :
    s.bspStepperGetPos exact 0 = (s.position.counter : ℤ) * 360 / 4096 := by
  simp [bspStepperGetPos, exact]

/-- The two moduli agree on the first 4096 of every 4096 revolutions of the counter. -/
theorem emod_eq_iff (n : ℤ) : n % 4097 = n % 4096 ↔ n % (4096 * 4097) < 4096 := by
  omega

/-- The reported position after every run, with any rates. -/
theorem position_reported_iff (b : Board) (actions : List (Action F)) (s : StepperBsp)
    (h : run ops b actions = some s) :
    Reports ops b actions s ↔ net ops actions % (4096 * 4097) < 4096 := by
  have hcounter := counter_of_run ops h
  have hpos := getPos_eq s
  rw [hcounter] at hpos
  rw [← emod_eq_iff]
  constructor
  · intro hreports
    have hclaimed := hreports.position
    rw [hpos, position] at hclaimed
    have hcast : ((net ops actions % 4097 : ℤ) : ℚ) = (net ops actions % 4096 : ℤ) := by linarith
    exact_mod_cast hcast
  · intro heq
    have hlow : 0 ≤ net ops actions % 4096 := by omega
    have hhigh : net ops actions % 4096 < 4096 := by omega
    refine ⟨by rw [hpos, heq, position], ?_, ?_⟩
    · rw [hpos, heq]
      have hlow : (0 : ℚ) ≤ (net ops actions % 4096 : ℤ) := by exact_mod_cast hlow
      have hhigh : ((net ops actions % 4096 : ℤ) : ℚ) < 4096 := by exact_mod_cast hhigh
      constructor <;> linarith
    · intro actions' s' h' hsame
      rw [getPos_eq, counter_of_run ops h', hsame, hpos]

/-- One half-step forward. -/
theorem first_step_reported : ∃ s, run exact .stm32f411discovery [.start 0, .halfStep] = some s ∧
    (Reports exact .stm32f411discovery [.start 0, .halfStep] s ↔
      net exact [.start 0, .halfStep] % (4096 * 4097) < 4096) :=
  ⟨_, rfl, position_reported_iff exact .stm32f411discovery _ _ rfl⟩

/-- One half-step backward from the start is reported as 360 degrees. -/
theorem backward_step_misreported :
    ∃ s, run exact .stm32f411discovery [.start 0, .setRate 0 (-50), .halfStep] = some s ∧
      s.bspStepperGetPos exact 0 = 360 ∧
      ¬ Reports exact .stm32f411discovery [.start 0, .setRate 0 (-50), .halfStep] s := by
  have hrun : (run exact .stm32f411discovery [.start 0, .setRate 0 (-50), .halfStep]).map
      (fun s => s.position.counter) = some 4096 := by decide +kernel
  obtain ⟨s, hs, hcounter⟩ := Option.map_eq_some_iff.mp hrun
  have hpos : s.bspStepperGetPos exact 0 = 360 := by
    rw [getPos_eq, hcounter]
    norm_num
  exact ⟨s, hs, hpos, fun h => (hpos ▸ h.inCircle.2).false⟩

end Ratfist.StepperPosition
