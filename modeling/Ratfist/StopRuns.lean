import Ratfist.StopPosition

/-!
Runs of the stepper motor with its stop position. A half-step that leads to the stop position
raises the flag of the compare channel, and while the interrupt of the channel is enabled its
handler stops the motor. Nothing says how soon the handler runs, so half-steps and calls may
come in between. One task makes the calls. `bsp_stepper_set_rate` looks first whether the motor
moves and starts it again at its end, and half-steps and the handler may come within it; the
other calls are one access, or shut the interrupts out.
-/
namespace Ratfist.StopRuns

open Constants Stepper StepperBsp StepperPosition StopPosition

variable {F : Type}

/-- Where a call of `bsp_stepper_set_rate` is: it has read `was_running`, or it has come to its
last `if`, with this condition. -/
inductive SettingRate
  | read (wasRunning : Bool)
  | written (restart : Bool)
deriving DecidableEq, Repr

/-- The motor, the compare channel of its position timer, and the call that sets the rate. -/
structure Stoppable where
  motor : StepperBsp
  compare : Compare
  settingRate : Option SettingRate

/-- The counter at which the channel matches; a value above the period matches when the
counter starts again. -/
def matchCounter (value period : ℕ) (up : Bool) : ℕ :=
  if value ≤ period then value else if up then 0 else period

def clocked (c : Compare) (t : Timer) : Compare :=
  if t.counter = matchCounter c.value t.period t.up then { c with flag := true } else c

/-- Each half-step clocks it, and nothing else does. -/
def afterAction (c : Compare) (t : Timer) : Action F → Compare
  | .halfStep => clocked c t
  | _ => c

def bspStepperRemoveStopPos (c : Compare) (stepperId : UInt8) : Compare :=
  if stepperId ≠ 0 then c else { c with irqEnabled := false }

/-- The interrupt handler: `tim1_cc_isr` on the one board and `tim3_isr` on the other. -/
def ccIsr (s : Stoppable) : Stoppable where
  compare := { s.compare with flag := false }
  motor := s.motor.bspStepperStop 0
  settingRate := s.settingRate

def bspSpinnerInit (b : Board) : Stoppable where
  motor := StepperBsp.bspSpinnerInit b
  compare := ⟨0xffff, false, false⟩
  settingRate := none

def requested (c : Compare) : Bool := c.flag && c.irqEnabled

/-- The calls and half-steps, and the interrupt handler. Of `bsp_stepper_set_rate` the action of
the motor is the part from `timer_disable_counter` up to the last `if`; `readMoving` is what comes
before it and `restart` the `if`. -/
inductive Call (F : Type)
  | motor (action : Action F)
  | readMoving
  | restart
  | setStopPos (stepperId : UInt8) (stopPosDeg : F)
  | removeStopPos (stepperId : UInt8)
  | isr
deriving DecidableEq

section Runs

variable (ops : FloatOps F) (b : Board)

/-- `bsp_stepper_set_rate` from `timer_disable_counter` up to its last `if`. -/
def rateWrites (ratePct : F) : List (StepperBsp → StepperBsp) :=
  let (presc, ctrVal) := timebaseSettings ops b ratePct
  [fun s => { s with timebase := { s.timebase with enabled := false } },
    fun s => s.setDirection b (newDirIsFwd ops ratePct),
    fun s => { s with timebase := { s.timebase with prescaler := presc, period := ctrVal } },
    fun s => { s with position := { s.position with enabled := false } },
    fun s => { s with updateDma := false },
    fun s => { s with timebase := { s.timebase with counter := 0 } }.update b,
    fun s => { s with updateDma := true },
    fun s => { s with position := { s.position with enabled := true } }]

def writeRate (s : StepperBsp) (ratePct : F) : StepperBsp :=
  (rateWrites ops b ratePct).foldl (fun s write => write s) s

def turning (ratePct : F) : Bool :=
  let (presc, ctrVal) := timebaseSettings ops b ratePct
  !(presc == 0xffff && ctrVal == 0xffff)

/-- Half-steps and the handler may come at any time, a call not before the last one is done. -/
def call : Call F → Stoppable → Option Stoppable
  | .motor .halfStep, s =>
    (step ops b .halfStep s.motor).map fun m =>
      { s with motor := m, compare := clocked s.compare m.position }
  | .motor (.setRate id ratePct), s =>
    match s.settingRate with
    | none => if id ≠ 0 then some s else none
    | some (.read wasRunning) =>
      if id ≠ 0 then none
      else some { s with
        motor := writeRate ops b s.motor ratePct
        settingRate := some (.written (turning ops b ratePct && wasRunning)) }
    | some (.written _) => none
  | .motor (.start id), s =>
    if s.settingRate.isSome then none else some { s with motor := s.motor.bspStepperStart id }
  | .motor (.stop id), s =>
    if s.settingRate.isSome then none else some { s with motor := s.motor.bspStepperStop id }
  | .readMoving, s =>
    if s.settingRate.isSome then none
    else some { s with settingRate := some (.read (s.motor.bspStepperIsMoving 0)) }
  | .restart, s =>
    match s.settingRate with
    | some (.written restart) =>
      some { s with
        motor := if restart then s.motor.bspStepperStart 0 else s.motor
        settingRate := none }
    | _ => none
  | .setStopPos id deg, s =>
    if s.settingRate.isSome then none
    else some { s with compare := s.compare.bspStepperSetStopPos ops id deg }
  | .removeStopPos id, s =>
    if s.settingRate.isSome then none
    else some { s with compare := bspStepperRemoveStopPos s.compare id }
  | .isr, s => if requested s.compare then some (ccIsr s) else none

def run (calls : List (Call F)) : Option Stoppable :=
  Runs.runs (call ops b) calls (bspSpinnerInit b)

def asAction : Call F → Option (Action F)
  | .motor action => some action
  | .isr => some (.stop 0)
  | _ => none

def travelled (calls : List (Call F)) : ℤ := net ops (calls.filterMap asAction)

def direction (calls : List (Call F)) : Bool := commanded ops (calls.filterMap asAction)

end Runs

/-- The stop position has been set, and since then neither set anew nor removed. -/
def InForce (stopPosDeg : F) : List (Call F) → Prop :=
  Runs.Since (fun _ c => c = .setStopPos 0 stopPosDeg)
    (fun c => (∀ deg, c ≠ .setStopPos 0 deg) ∧ c ≠ .removeStopPos 0)

/-- A half-step has led to the stop position `value`, and since then none has been set and the
handler has not run. -/
def Reached (ops : FloatOps F) (value : ℕ) : List (Call F) → Prop :=
  Runs.Since
    (fun before c => c = .motor .halfStep ∧
      travelled ops (before ++ [c]) % 4097 = matchCounter value 4096 (direction ops before))
    (fun c => (∀ deg, c ≠ .setStopPos 0 deg) ∧ c ≠ .isr)

section Steps

variable {ops : FloatOps F} {b : Board} {s t : Stoppable} {calls : List (Call F)}

theorem writeRate_eq (m : StepperBsp) (ratePct : F) : writeRate ops b m ratePct =
    (m.bspStepperStop 0).bspStepperSetRate ops b 0 ratePct := by
  simp [writeRate, rateWrites, bspStepperSetRate, bspStepperStop, bspStepperIsMoving]

theorem setRate_cases {id : UInt8} {ratePct : F}
    (h : call ops b (.motor (.setRate id ratePct)) s = some t) :
    id ≠ 0 ∧ t = s ∨ id = 0 ∧ ∃ wasRunning, s.settingRate = some (.read wasRunning) ∧
      t = { s with
        motor := writeRate ops b s.motor ratePct
        settingRate := some (.written (turning ops b ratePct && wasRunning)) } := by
  rw [call] at h
  cases hset : s.settingRate with
  | none =>
    rw [hset] at h
    obtain ⟨hid, ht⟩ := Option.ite_none_right_eq_some.mp h
    exact Or.inl ⟨hid, (Option.some.inj ht).symm⟩
  | some setting =>
    rw [hset] at h
    cases setting with
    | read wasRunning =>
      obtain ⟨hid, ht⟩ := Option.ite_none_left_eq_some.mp h
      exact Or.inr ⟨not_not.mp hid, wasRunning, rfl, (Option.some.inj ht).symm⟩
    | written again => cases h

theorem restart_cases (h : call ops b .restart s = some t) :
    ∃ again, s.settingRate = some (.written again) ∧
      t = { s with
        motor := if again then s.motor.bspStepperStart 0 else s.motor
        settingRate := none } := by
  rw [call] at h
  cases hset : s.settingRate with
  | none =>
    rw [hset] at h
    cases h
  | some setting =>
    rw [hset] at h
    cases setting with
    | read wasRunning => cases h
    | written again => exact ⟨again, rfl, (Option.some.inj h).symm⟩

theorem setDirection_stop (m : StepperBsp) (fwd : Bool) :
    (m.bspStepperStop 0).setDirection b fwd = (m.setDirection b fwd).bspStepperStop 0 := by
  rw [setDirection, setDirection]
  by_cases hturn : fwd ≠ m.stepperDirIsFwd
  · rw [if_pos hturn]
    exact if_pos hturn
  · rw [if_neg hturn]
    exact if_neg hturn

theorem update_stop (m : StepperBsp) :
    (m.bspStepperStop 0).update b = (m.update b).bspStepperStop 0 := by
  have htransfer : (m.bspStepperStop 0).transfer b = (m.transfer b).bspStepperStop 0 := by
    rw [transfer, transfer]
    by_cases hdma : (m.updateDma && m.dma.enabled) = true
    · rw [if_pos hdma]
      exact if_pos hdma
    · rw [if_neg hdma]
      exact if_neg hdma
  rw [StepperBsp.update, StepperBsp.update, htransfer]
  by_cases hposition : (m.transfer b).position.enabled = true
  · rw [if_pos hposition]
    exact if_pos hposition
  · rw [if_neg hposition]
    exact if_neg hposition

theorem rateWrites_stop (ratePct : F) : ∀ write ∈ rateWrites ops b ratePct, ∀ m : StepperBsp,
    write (m.bspStepperStop 0) = (write m).bspStepperStop 0 := by
  intro write hwrite m
  simp only [rateWrites, List.mem_cons, List.not_mem_nil, or_false] at hwrite
  rcases hwrite with rfl | rfl | rfl | rfl | rfl | rfl | rfl | rfl
  · rfl
  · exact setDirection_stop m _
  · rfl
  · rfl
  · rfl
  · exact update_stop { m with timebase := { m.timebase with counter := 0 } }
  · rfl
  · rfl

/-- Wherever the handler comes among the writes, they come to the same. -/
theorem handler_among_writes (m : StepperBsp) (ratePct : F)
    (pre post : List (StepperBsp → StepperBsp)) (hsplit : rateWrites ops b ratePct = pre ++ post) :
    post.foldl (fun s write => write s)
        ((pre.foldl (fun s write => write s) m).bspStepperStop 0) =
      writeRate ops b m ratePct := by
  have hbefore : ∀ write ∈ pre, ∀ m : StepperBsp,
      write (m.bspStepperStop 0) = (write m).bspStepperStop 0 := fun write hwrite =>
    rateWrites_stop ratePct write (hsplit ▸ List.mem_append_left post hwrite)
  have hearlier : (pre.foldl (fun s write => write s) m).bspStepperStop 0 =
      pre.foldl (fun s write => write s) (m.bspStepperStop 0) := by
    clear hsplit
    induction pre generalizing m with
    | nil => rfl
    | cons write pre ih =>
      rw [List.foldl_cons, List.foldl_cons, hbefore write List.mem_cons_self]
      exact ih (write m) fun write' hwrite' => hbefore write' (List.mem_cons_of_mem write hwrite')
  rw [hearlier, ← List.foldl_append, ← hsplit]
  rfl

/-- With nothing in between, the three parts are the call. -/
theorem setRate_parts (ratePct : F) (hfree : s.settingRate = none) :
    Runs.runs (call ops b) [.readMoving, .motor (.setRate 0 ratePct), .restart] s =
      some { s with motor := s.motor.bspStepperSetRate ops b 0 ratePct } := by
  simp only [Runs.runs, call, hfree, Option.isSome_none, Bool.false_eq_true, if_false,
    Option.bind_some, ne_eq, not_true_eq_false, Option.some.injEq]
  cases hturn : turning ops b ratePct <;> cases hmoves : s.motor.timebase.enabled <;>
    simp_all [turning, writeRate, rateWrites, bspStepperSetRate, bspStepperIsMoving,
      bspStepperStart]

structure Agrees (ops : FloatOps F) (actions : List (Action F)) (calls : List (Call F)) :
    Prop where
  net : net ops actions = travelled ops calls
  commanded : commanded ops actions = direction ops calls

theorem Agrees.quiet {actions : List (Action F)} (h : Agrees ops actions calls) {c : Call F}
    (hc : asAction c = none) : Agrees ops actions (calls ++ [c]) := by
  refine ⟨?_, ?_⟩
  · rw [travelled, List.filterMap_append]
    simpa [hc, travelled] using h.net
  · rw [direction, List.filterMap_append]
    simpa [hc, direction] using h.commanded

theorem Agrees.action {actions : List (Action F)} (h : Agrees ops actions calls) {c : Call F}
    {a : Action F} (hc : asAction c = some a) :
    Agrees ops (actions ++ [a]) (calls ++ [c]) := by
  have hsplit : (calls ++ [c]).filterMap asAction = calls.filterMap asAction ++ [a] := by
    rw [List.filterMap_append]
    simp [hc]
  have hnet : StepperPosition.net ops actions =
      StepperPosition.net ops (calls.filterMap asAction) := h.net
  have hcommanded : Stepper.commanded ops actions =
      Stepper.commanded ops (calls.filterMap asAction) := h.commanded
  refine ⟨?_, ?_⟩
  · rw [travelled, hsplit]
    by_cases hhalf : a = .halfStep
    · rw [hhalf, net_halfStep, net_halfStep, hnet, hcommanded]
    · rw [net_other _ hhalf, net_other _ hhalf, hnet]
  · rw [direction, hsplit, commanded_snoc, commanded_snoc, hcommanded]

/-- A start or a stop that no call stands for. -/
theorem Agrees.extra {actions : List (Action F)} (h : Agrees ops actions calls) {a : Action F}
    (ha : a = .start 0 ∨ a = .stop 0) : Agrees ops (actions ++ [a]) calls := by
  rcases ha with rfl | rfl
  · exact ⟨(net_other _ (by simp)).trans h.net, (commanded_snoc _ _).trans h.commanded⟩
  · exact ⟨(net_other _ (by simp)).trans h.net, (commanded_snoc _ _).trans h.commanded⟩

theorem run_snoc {actions : List (Action F)} {m m' : StepperBsp} {a : Action F}
    (h : Stepper.run ops b actions = some m) (hstep : step ops b a m = some m') :
    Stepper.run ops b (actions ++ [a]) = some m' := by
  rw [Stepper.run] at h
  rw [Stepper.run, Runs.runs_append, h, Option.bind_some, Runs.runs, hstep]
  rfl

/-- The motor takes part in runs of its own. -/
theorem actions_of_run (h : run ops b calls = some s) :
    ∃ actions, Stepper.run ops b actions = some s.motor ∧ Agrees ops actions calls := by
  refine Runs.runs_history (fun earlier m => ∃ actions, Stepper.run ops b actions = some m.motor ∧
    Agrees ops actions earlier) ⟨[], rfl, rfl, rfl⟩ ?_ h
  rintro earlier c m t - ⟨actions, hrun, hagrees⟩ hstep
  cases c with
  | motor action =>
    cases action with
    | halfStep =>
      obtain ⟨m', hm', rfl⟩ := Option.map_eq_some_iff.mp hstep
      exact ⟨_, run_snoc hrun hm', hagrees.action rfl⟩
    | setRate id ratePct =>
      rcases setRate_cases hstep with ⟨hid, rfl⟩ | ⟨rfl, wasRunning, -, rfl⟩
      · have hsame : step ops b (.setRate id ratePct) t.motor = some t.motor := by
          rw [step, bspStepperSetRate, if_pos hid]
        exact ⟨_, run_snoc hrun hsame, hagrees.action rfl⟩
      · refine ⟨_, ?_, (hagrees.extra (Or.inr rfl)).action rfl⟩
        exact run_snoc (run_snoc hrun rfl) (congrArg some (writeRate_eq m.motor ratePct).symm)
    | start id =>
      obtain ⟨-, ht⟩ := Option.ite_none_left_eq_some.mp hstep
      cases ht
      exact ⟨_, run_snoc hrun rfl, hagrees.action rfl⟩
    | stop id =>
      obtain ⟨-, ht⟩ := Option.ite_none_left_eq_some.mp hstep
      cases ht
      exact ⟨_, run_snoc hrun rfl, hagrees.action rfl⟩
  | readMoving =>
    obtain ⟨-, ht⟩ := Option.ite_none_left_eq_some.mp hstep
    cases ht
    exact ⟨actions, hrun, hagrees.quiet rfl⟩
  | restart =>
    obtain ⟨again, -, rfl⟩ := restart_cases hstep
    cases again with
    | true => exact ⟨_, run_snoc hrun rfl, (hagrees.extra (Or.inl rfl)).quiet rfl⟩
    | false => exact ⟨actions, hrun, hagrees.quiet rfl⟩
  | setStopPos id deg =>
    obtain ⟨-, ht⟩ := Option.ite_none_left_eq_some.mp hstep
    cases ht
    exact ⟨actions, hrun, hagrees.quiet rfl⟩
  | removeStopPos id =>
    obtain ⟨-, ht⟩ := Option.ite_none_left_eq_some.mp hstep
    cases ht
    exact ⟨actions, hrun, hagrees.quiet rfl⟩
  | isr =>
    obtain ⟨-, ht⟩ := Option.ite_none_right_eq_some.mp hstep
    cases ht
    exact ⟨_, run_snoc hrun rfl, hagrees.action rfl⟩

theorem counter_of_calls (h : run ops b calls = some s) :
    (s.motor.position.counter : ℤ) = travelled ops calls % 4097 := by
  obtain ⟨actions, hrun, hagrees⟩ := actions_of_run h
  rw [← hagrees.net]
  exact counter_of_run ops hrun

theorem steered_of_calls (h : run ops b calls = some s) :
    Steered b (direction ops calls) s.motor := by
  obtain ⟨actions, hrun, hagrees⟩ := actions_of_run h
  rw [← hagrees.commanded]
  exact steered_of_run hrun

def compareAfter (ops : FloatOps F) (c : Compare) (t : Timer) : Call F → Compare
  | .motor action => afterAction c t action
  | .readMoving => c
  | .restart => c
  | .setStopPos id deg => c.bspStepperSetStopPos ops id deg
  | .removeStopPos id => bspStepperRemoveStopPos c id
  | .isr => { c with flag := false }

theorem call_compare {c : Call F} (h : call ops b c s = some t) :
    t.compare = compareAfter ops s.compare t.motor.position c := by
  cases c with
  | motor action =>
    cases action with
    | halfStep =>
      obtain ⟨m, hm, rfl⟩ := Option.map_eq_some_iff.mp h
      rfl
    | setRate id ratePct =>
      rcases setRate_cases h with ⟨-, rfl⟩ | ⟨-, wasRunning, -, rfl⟩ <;> rfl
    | _ =>
      obtain ⟨-, ht⟩ := Option.ite_none_left_eq_some.mp h
      cases ht
      rfl
  | restart =>
    obtain ⟨again, -, rfl⟩ := restart_cases h
    rfl
  | isr =>
    obtain ⟨-, ht⟩ := Option.ite_none_right_eq_some.mp h
    cases ht
    rfl
  | _ =>
    obtain ⟨-, ht⟩ := Option.ite_none_left_eq_some.mp h
    cases ht
    rfl

/-- What the calls so far say about the compare channel. -/
structure Tracked (ops : FloatOps F) (calls : List (Call F)) (c : Compare) : Prop where
  irqEnabled : c.irqEnabled = true ↔ ∃ deg, InForce deg calls
  value : ∀ deg, InForce deg calls → c.value = stopPos ops deg
  flag : c.flag = true ↔ Reached ops c.value calls

/-- A call that concerns neither the stop position nor the handler. -/
theorem Tracked.other {c : Compare} (h : Tracked ops calls c) {x : Call F}
    (hset : ∀ deg, x ≠ .setStopPos 0 deg) (hremove : x ≠ .removeStopPos 0) (hisr : x ≠ .isr)
    {flag : Bool} (hflag : flag = true ↔ c.flag = true ∨ x = .motor .halfStep ∧
      travelled ops (calls ++ [x]) % 4097 = matchCounter c.value 4096 (direction ops calls)) :
    Tracked ops (calls ++ [x]) { c with flag := flag } := by
  have hforce (deg : F) : InForce deg (calls ++ [x]) ↔ InForce deg calls := by
    rw [InForce, Runs.since_snoc]
    simp [hset, hremove]
  refine ⟨?_, fun deg hdeg => h.value deg ((hforce deg).mp hdeg), ?_⟩
  · simp only [hforce]
    exact h.irqEnabled
  · rw [hflag, h.flag, Reached, Runs.since_snoc, or_comm]
    simp [hset, hisr]

theorem Tracked.setStopPos {c : Compare} (deg : F) :
    Tracked ops (calls ++ [.setStopPos 0 deg]) (c.bspStepperSetStopPos ops 0 deg) := by
  have hforce (deg' : F) : InForce deg' (calls ++ [.setStopPos 0 deg]) ↔ deg' = deg := by
    rw [InForce, Runs.since_snoc]
    simp [eq_comm]
  rw [Compare.bspStepperSetStopPos, if_neg (by simp)]
  refine ⟨by simp [hforce], ?_, ?_⟩
  · intro deg' hdeg'
    rw [(hforce deg').mp hdeg']
  · rw [Reached, Runs.since_snoc]
    simp

theorem Tracked.removeStopPos {c : Compare} (h : Tracked ops calls c) :
    Tracked ops (calls ++ [.removeStopPos 0]) (bspStepperRemoveStopPos c 0) := by
  have hforce (deg : F) : ¬ InForce deg (calls ++ [.removeStopPos 0]) := by
    rw [InForce, Runs.since_snoc]
    simp
  rw [bspStepperRemoveStopPos, if_neg (by simp)]
  refine ⟨by simp [hforce], fun deg hdeg => absurd hdeg (hforce deg), ?_⟩
  have hreached := h.flag
  rw [Reached] at hreached ⊢
  rw [Runs.since_snoc]
  simpa using hreached

theorem Tracked.isr {c : Compare} (h : Tracked ops calls c) :
    Tracked ops (calls ++ [.isr]) { c with flag := false } := by
  have hforce (deg : F) : InForce deg (calls ++ [.isr]) ↔ InForce deg calls := by
    rw [InForce, Runs.since_snoc]
    simp
  refine ⟨?_, fun deg hdeg => h.value deg ((hforce deg).mp hdeg), ?_⟩
  · simp only [hforce]
    exact h.irqEnabled
  · rw [Reached, Runs.since_snoc]
    simp

/-- The call that sets the rate has found the motor moving, and may start it again. -/
def Restarts (s : Stoppable) : Prop :=
  s.settingRate = some (.read true) ∨ s.settingRate = some (.written true)

/-- The motor stands still, and no call is going to start it again. -/
structure AtRest (s : Stoppable) : Prop where
  still : s.motor.timebase.enabled = false
  settled : ¬ Restarts s

theorem writeRate_still (ops : FloatOps F) (b : Board) (m : StepperBsp) (ratePct : F) :
    (writeRate ops b m ratePct).timebase.enabled = false ∧
      (writeRate ops b m ratePct).position.counter = m.position.counter := by
  simp only [writeRate, rateWrites, List.foldl_cons, List.foldl_nil]
  rw [update_quiet rfl rfl]
  unfold setDirection
  split_ifs <;> exact ⟨rfl, rfl⟩

theorem AtRest.step {c : Call F} (hrest : AtRest s) (hstart : c ≠ .motor (.start 0))
    (h : call ops b c s = some t) :
    AtRest t ∧ t.motor.position.counter = s.motor.position.counter := by
  obtain ⟨hstill, hsettled⟩ := hrest
  cases c with
  | motor action =>
    cases action with
    | halfStep => simp [call, Stepper.step, hstill] at h
    | setRate id ratePct =>
      rcases setRate_cases h with ⟨-, rfl⟩ | ⟨-, wasRunning, hread, rfl⟩
      · exact ⟨⟨hstill, hsettled⟩, rfl⟩
      · have hstands : wasRunning = false := by
          cases wasRunning with
          | false => rfl
          | true => exact absurd (Or.inl hread) hsettled
        obtain ⟨hwritten, hcounter⟩ := writeRate_still ops b s.motor ratePct
        exact ⟨⟨hwritten, by simp [Restarts, hstands]⟩, hcounter⟩
    | start id =>
      obtain ⟨-, ht⟩ := Option.ite_none_left_eq_some.mp h
      cases ht
      have hid : id ≠ 0 := fun hid => hstart (hid ▸ rfl)
      rw [bspStepperStart, if_pos hid]
      exact ⟨⟨hstill, hsettled⟩, rfl⟩
    | stop id =>
      obtain ⟨-, ht⟩ := Option.ite_none_left_eq_some.mp h
      cases ht
      refine ⟨⟨?_, hsettled⟩, ?_⟩ <;> by_cases hid : id = 0 <;> simp [bspStepperStop, hid, hstill]
  | readMoving =>
    obtain ⟨-, ht⟩ := Option.ite_none_left_eq_some.mp h
    cases ht
    exact ⟨⟨hstill, by simp [Restarts, bspStepperIsMoving, hstill]⟩, rfl⟩
  | restart =>
    obtain ⟨again, hwritten, rfl⟩ := restart_cases h
    cases again with
    | false => exact ⟨⟨hstill, by simp [Restarts]⟩, rfl⟩
    | true => exact absurd (Or.inr hwritten) hsettled
  | isr =>
    obtain ⟨-, ht⟩ := Option.ite_none_right_eq_some.mp h
    cases ht
    exact ⟨⟨rfl, hsettled⟩, rfl⟩
  | _ =>
    obtain ⟨-, ht⟩ := Option.ite_none_left_eq_some.mp h
    cases ht
    exact ⟨⟨hstill, hsettled⟩, rfl⟩

end Steps

/-- What comes of a stop by the handler in the state `s` that it leaves. -/
structure Stopped (ops : FloatOps F) (b : Board) (s : Stoppable) : Prop where
  still : s.motor.timebase.enabled = false
  stays : ¬ Restarts s → ∀ more t, (∀ c ∈ more, c ≠ .motor (.start 0)) →
    Runs.runs (call ops b) more s = some t →
    t.motor.timebase.enabled = false ∧ t.motor.position.counter = s.motor.position.counter
  overtaken : s.settingRate = some (.read true) → ∀ ratePct, ∃ t,
    Runs.runs (call ops b) [.motor (.setRate 0 ratePct), .restart] s = some t ∧
      t.motor.timebase.enabled = turning ops b ratePct
  undone : s.settingRate = some (.written true) →
    ∃ t, call ops b .restart s = some t ∧ t.motor.timebase.enabled = true

/-- The calls leave the direction and the stop position as they are. -/
def Continues (ops : FloatOps F) (fwd : Bool) (more : List (Call F)) : Prop :=
  ∀ c ∈ more, (∀ deg, c ≠ .setStopPos 0 deg) ∧ c ≠ .removeStopPos 0 ∧
    ∀ ratePct, c = .motor (.setRate 0 ratePct) → newDirIsFwd ops ratePct = fwd

def isHalfStep : Call F → Bool
  | .motor .halfStep => true
  | _ => false

def halfStepsIn (calls : List (Call F)) : ℕ := calls.countP isHalfStep

/-- The half-steps, at least one, that lead from one counter to another. -/
def stepsTo (fwd : Bool) (counter value : ℕ) : ℕ :=
  (if fwd then value + 4096 - counter else counter + 4096 - value) % 4097 + 1

section Ways

variable (ops : FloatOps F) (calls : List (Call F)) (deg : F)

def stopCounter : ℕ := matchCounter (stopPos ops deg) 4096 (direction ops calls)

def toStop (s : Stoppable) : ℕ :=
  stepsTo (direction ops calls) s.motor.position.counter (stopCounter ops calls deg)

end Ways

section Arrival

variable {ops : FloatOps F} {b : Board} {fwd : Bool} {s t : Stoppable} {calls : List (Call F)}

theorem direction_snoc {c : Call F} (hdirection : direction ops calls = fwd)
    (hrate : ∀ ratePct, c = .motor (.setRate 0 ratePct) → newDirIsFwd ops ratePct = fwd) :
    direction ops (calls ++ [c]) = fwd := by
  rw [direction, List.filterMap_append]
  cases c with
  | motor action =>
    refine (commanded_snoc _ action).trans ?_
    cases action with
    | setRate id ratePct =>
      by_cases hid : id = 0
      · simp [hid, hrate ratePct (hid ▸ rfl)]
      · simp only [if_neg hid]
        exact hdirection
    | _ => exact hdirection
  | isr => exact (commanded_snoc _ _).trans hdirection
  | _ => exact (congrArg _ (List.append_nil _)).trans hdirection

theorem travelled_snoc (c : Call F) (hdirection : direction ops calls = fwd) :
    travelled ops (calls ++ [c]) = travelled ops calls +
      if isHalfStep c then (if fwd then 1 else -1) else 0 := by
  rw [travelled, List.filterMap_append]
  cases c with
  | motor action =>
    cases action with
    | halfStep => exact hdirection ▸ net_halfStep _
    | _ => exact (net_other _ (by simp)).trans (add_zero _).symm
  | isr => exact (net_other _ (by simp)).trans (add_zero _).symm
  | _ => exact (congrArg _ (List.append_nil _)).trans (add_zero _).symm

theorem halfStepsIn_snoc (more : List (Call F)) (c : Call F) :
    halfStepsIn (more ++ [c]) = halfStepsIn more + if isHalfStep c then 1 else 0 := by
  rw [halfStepsIn, List.countP_append, List.countP_singleton, ← halfStepsIn]

theorem travelled_continues {more : List (Call F)} (hmore : Continues ops fwd more)
    (hdirection : direction ops calls = fwd) :
    direction ops (calls ++ more) = fwd ∧ travelled ops (calls ++ more) =
      travelled ops calls + if fwd then (halfStepsIn more : ℤ) else -halfStepsIn more := by
  induction more using List.reverseRecOn with
  | nil => simp [halfStepsIn, hdirection]
  | append_singleton more c ih =>
    obtain ⟨hsame, htravelled⟩ := ih fun c' hc' => hmore c' (List.mem_append_left _ hc')
    have hc := hmore c (by simp)
    rw [← List.append_assoc]
    refine ⟨direction_snoc hsame hc.2.2, ?_⟩
    rw [travelled_snoc c hsame, htravelled, halfStepsIn_snoc]
    cases fwd <;> by_cases hhalf : isHalfStep c <;> simp [hhalf] <;> omega

theorem matchCounter_le {value : ℕ} : matchCounter value 4096 fwd ≤ 4096 := by
  unfold matchCounter
  split_ifs <;> omega

/-- The position timer comes to the stop position with the last of these half-steps. -/
theorem counter_at_stop {counter h value : ℕ} (hcounter : counter ≤ 4096) (hvalue : value ≤ 4096)
    (hbefore : h < stepsTo fwd counter value) :
    ((counter : ℤ) + if fwd then ((h + 1 : ℕ) : ℤ) else -((h + 1 : ℕ) : ℤ)) % 4097 = value ↔
      stepsTo fwd counter value = h + 1 := by
  unfold stepsTo at hbefore ⊢
  cases fwd
  · simp only [Bool.false_eq_true, if_false] at hbefore ⊢
    omega
  · simp only [if_true] at hbefore ⊢
    omega

theorem runs_of_run {more : List (Call F)} (h : run ops b calls = some s)
    (hmore : Runs.runs (call ops b) more s = some t) : run ops b (calls ++ more) = some t := by
  rw [run] at h
  rw [run, Runs.runs_append, h]
  exact hmore

theorem counter_eq_iff {counter counter' h value : ℕ} (hcounter : counter ≤ 4096)
    (hvalue : value ≤ 4096)
    (hafter : (counter' : ℤ) = (counter + if fwd then (h : ℤ) else -h) % 4097) :
    counter' = value ↔ h % 4097 = stepsTo fwd counter value % 4097 := by
  unfold stepsTo
  cases fwd
  · simp only [Bool.false_eq_true, if_false] at hafter ⊢
    omega
  · simp only [if_true] at hafter ⊢
    omega

/-- What the calls after the stop position was set have done to the compare channel; `d` is the
number of half-steps to the stop position. -/
structure Approach (v d : ℕ) (more : List (Call F)) (t : Stoppable) : Prop where
  value : t.compare.value = v
  irqEnabled : t.compare.irqEnabled = true
  arrived : (.isr ∈ more ∨ t.compare.flag = true) ↔ d ≤ halfStepsIn more

theorem Approach.step {v d : ℕ} {more : List (Call F)} {c : Call F} (h : Approach v d more s)
    (hc : (∀ deg, c ≠ .setStopPos 0 deg) ∧ c ≠ .removeStopPos 0)
    (hmatch : c = .motor .halfStep → halfStepsIn more < d →
      (t.motor.position.counter = matchCounter v t.motor.position.period t.motor.position.up ↔
        d = halfStepsIn more + 1))
    (hstep : call ops b c s = some t) : Approach v d (more ++ [c]) t := by
  have hquiet (hsame : t.compare = s.compare) (hhalf : isHalfStep c = false) (hisr : .isr ≠ c) :
      Approach v d (more ++ [c]) t := by
    refine ⟨hsame ▸ h.value, hsame ▸ h.irqEnabled, ?_⟩
    rw [halfStepsIn_snoc, hhalf, List.mem_append, List.mem_singleton, hsame]
    simpa [hisr] using h.arrived
  have hcompare := call_compare hstep
  cases c with
  | motor action =>
    cases action with
    | halfStep =>
      rw [compareAfter, afterAction, clocked, h.value] at hcompare
      have harrived := h.arrived
      have hhit := hmatch rfl
      refine ⟨?_, ?_, ?_⟩
      · rw [hcompare]
        split_ifs
        · rfl
        · exact h.value
      · rw [hcompare]
        split_ifs <;> exact h.irqEnabled
      · rw [hcompare, halfStepsIn_snoc]
        simp only [List.mem_append, List.mem_singleton, reduceCtorEq, or_false, isHalfStep, if_true]
        by_cases hbefore : halfStepsIn more < d
        · have hnot : ¬ (.isr ∈ more ∨ s.compare.flag = true) := by
            rw [harrived]
            omega
          split_ifs with hthere
          · have := (hhit hbefore).mp hthere
            simp
            omega
          · have := mt (hhit hbefore).mpr hthere
            simp only [hnot, false_iff]
            omega
        · have hyes := harrived.mpr (by omega)
          refine iff_of_true ?_ (by omega)
          rcases hyes with hisr | hflag
          · exact Or.inl hisr
          · split_ifs
            · exact Or.inr rfl
            · exact Or.inr hflag
    | _ => exact hquiet hcompare rfl (by simp)
  | readMoving => exact hquiet hcompare rfl (by simp)
  | restart => exact hquiet hcompare rfl (by simp)
  | setStopPos id deg =>
    have hid : id ≠ 0 := fun hid => hc.1 deg (hid ▸ rfl)
    rw [compareAfter, Compare.bspStepperSetStopPos, if_pos hid] at hcompare
    exact hquiet hcompare rfl (by simp)
  | removeStopPos id =>
    have hid : id ≠ 0 := fun hid => hc.2 (hid ▸ rfl)
    rw [compareAfter, bspStepperRemoveStopPos, if_pos hid] at hcompare
    exact hquiet hcompare rfl (by simp)
  | isr =>
    have hrequested := (Option.ite_none_right_eq_some.mp hstep).1
    have hflag : s.compare.flag = true := by
      rw [requested, Bool.and_eq_true] at hrequested
      exact hrequested.1
    have hthere := h.arrived.mp (Or.inr hflag)
    rw [compareAfter] at hcompare
    refine ⟨hcompare ▸ h.value, hcompare ▸ h.irqEnabled, ?_⟩
    rw [halfStepsIn_snoc]
    exact iff_of_true (Or.inl (by simp)) (by omega)

/-- On the way to a stop position that has just been set. -/
theorem approach_of_run {deg : F} (h : run ops b calls = some s)
    (hfwd : direction ops calls = fwd) (hset : s.compare = ⟨stopPos ops deg, false, true⟩)
    {more : List (Call F)} (hmore : Continues ops fwd more)
    (hrun : Runs.runs (call ops b) more s = some t) :
    Approach (stopPos ops deg) (stepsTo fwd s.motor.position.counter
      (matchCounter (stopPos ops deg) 4096 fwd)) more t := by
  have hcounter := counter_of_calls h
  have hlow : s.motor.position.counter ≤ 4096 := by omega
  refine Runs.runs_history
    (fun more m => Continues ops fwd more → Approach (stopPos ops deg) (stepsTo fwd
      s.motor.position.counter (matchCounter (stopPos ops deg) 4096 fwd)) more m)
    ?_ ?_ hrun hmore
  · intro _
    refine ⟨by rw [hset], by rw [hset], ?_⟩
    simp [hset, halfStepsIn, stepsTo]
  · intro more c m t hm ih hstep hmore
    have happroach := ih fun c' hc' => hmore c' (List.mem_append_left _ hc')
    have hc := hmore c (by simp)
    refine happroach.step ⟨hc.1, hc.2.1⟩ ?_ hstep
    rintro rfl hbefore
    have hlater := runs_of_run (runs_of_run h hm)
      (show Runs.runs (call ops b) [.motor .halfStep] m = some t by rw [Runs.runs, hstep]; rfl)
    obtain ⟨hdirection, htravelled⟩ := travelled_continues hmore hfwd
    rw [List.append_assoc] at hlater
    have hthere := counter_at_stop hlow matchCounter_le hbefore
    have hsteered := steered_of_calls hlater
    have htcounter := counter_of_calls hlater
    rw [htravelled, halfStepsIn_snoc] at htcounter
    rw [hsteered.period, hsteered.up, hdirection, ← hthere]
    simp only [isHalfStep, if_true] at htcounter
    omega

/-- A motor that moves goes on to move. -/
theorem halfSteps_run (n : ℕ) (h : s.motor.timebase.enabled = true) :
    ∃ t, Runs.runs (call ops b) (List.replicate n (.motor .halfStep)) s = some t := by
  induction n generalizing s with
  | zero => exact ⟨s, rfl⟩
  | succ n ih =>
    have hmoves : (s.motor.update b).timebase.enabled = true := by
      unfold StepperBsp.update transfer
      dsimp only
      split_ifs <;> exact h
    obtain ⟨t, ht⟩ := ih
      (s := ⟨s.motor.update b, clocked s.compare (s.motor.update b).position, s.settingRate⟩) hmoves
    refine ⟨t, ?_⟩
    rw [List.replicate_succ, Runs.runs, call, step, if_pos h]
    exact ht

end Arrival

/-- From a stop position that is set in any state to the stop, with the handler as late as it
may be, and in time. -/
theorem stop_position_reached (ops : FloatOps F) (b : Board) (calls : List (Call F)) (deg : F)
    (s : Stoppable) (h : run ops b (calls ++ [.setStopPos 0 deg]) = some s) :
    (∀ more t, Continues ops (direction ops calls) more →
      Runs.runs (call ops b) more s = some t →
      ((.isr ∈ more ∨ requested t.compare = true) ↔
        toStop ops calls deg s ≤ halfStepsIn more) ∧
      (t.motor.position.counter = stopCounter ops calls deg ↔
        halfStepsIn more % 4097 = toStop ops calls deg s % 4097)) ∧
    (s.motor.timebase.enabled = true →
      ∃ t, Runs.runs (call ops b)
          (List.replicate (toStop ops calls deg s) (.motor .halfStep) ++ [.isr]) s = some t ∧
        t.motor.position.counter = stopCounter ops calls deg ∧
        t.motor.timebase.enabled = false) := by
  have hfwd : direction ops (calls ++ [.setStopPos 0 deg]) = direction ops calls :=
    direction_snoc rfl (by simp)
  have hset : s.compare = ⟨stopPos ops deg, false, true⟩ := by
    obtain ⟨m, -, hstep⟩ := Runs.runs_snoc h
    rw [call_compare hstep, compareAfter, Compare.bspStepperSetStopPos, if_neg (by simp)]
  have hway (more : List (Call F)) (t : Stoppable)
      (hmore : Continues ops (direction ops calls) more)
      (hrun : Runs.runs (call ops b) more s = some t) :
      ((.isr ∈ more ∨ requested t.compare = true) ↔
        toStop ops calls deg s ≤ halfStepsIn more) ∧
      (t.motor.position.counter = stopCounter ops calls deg ↔
        halfStepsIn more % 4097 = toStop ops calls deg s % 4097) := by
    have happroach := approach_of_run h hfwd hset hmore hrun
    have hcounter := counter_of_calls (runs_of_run h hrun)
    rw [(travelled_continues hmore hfwd).2] at hcounter
    have hstart := counter_of_calls h
    refine ⟨?_, ?_⟩
    · rw [requested, happroach.irqEnabled, Bool.and_true]
      exact happroach.arrived
    · exact counter_eq_iff (by omega) matchCounter_le (by omega)
  refine ⟨hway, ?_⟩
  intro hmoves
  obtain ⟨t, ht⟩ := halfSteps_run (toStop ops calls deg s) hmoves
  have hcontinues : Continues ops (direction ops calls)
      (List.replicate (toStop ops calls deg s) (.motor .halfStep)) := by
    intro c hc
    rw [List.eq_of_mem_replicate hc]
    simp
  have hcount : halfStepsIn (List.replicate (toStop ops calls deg s)
      (.motor .halfStep : Call F)) = toStop ops calls deg s := by
    simp [halfStepsIn, List.countP_replicate, isHalfStep]
  obtain ⟨hisr, hcounter⟩ := hway _ t hcontinues ht
  have hrequested := (hisr.mpr hcount.ge).resolve_left (by simp [List.mem_replicate])
  refine ⟨ccIsr t, ?_, hcounter.mpr (by rw [hcount]), rfl⟩
  rw [Runs.runs_append, ht, Option.bind_some, Runs.runs, call, if_pos hrequested]
  rfl

/-- A quarter of a revolution forward, and the handler at once. -/
theorem quarter_revolution : ∃ t,
    run exact .stm32f411discovery ([.motor (.start 0)] ++ [.setStopPos 0 90] ++
      (List.replicate 1024 (.motor .halfStep) ++ [.isr])) = some t ∧
    t.motor.position.counter = 1024 ∧ t.motor.timebase.enabled = false := by
  have hstop : stopPos exact 90 = 1024 := by decide +kernel
  have hvalue : stopCounter exact [.motor (.start 0)] 90 = 1024 := by
    rw [stopCounter, hstop]
    decide +kernel
  obtain ⟨s, hs, hmoves, hcounter⟩ :
      ∃ s, run exact .stm32f411discovery ([.motor (.start 0)] ++ [.setStopPos 0 90]) = some s ∧
        s.motor.timebase.enabled = true ∧ s.motor.position.counter = 0 := ⟨_, rfl, rfl, rfl⟩
  have hway : toStop exact [.motor (.start 0)] 90 s = 1024 := by
    rw [toStop, hvalue, hcounter]
    decide +kernel
  obtain ⟨t, ht, hthere, hstopped⟩ :=
    (stop_position_reached exact .stm32f411discovery [.motor (.start 0)] 90 s hs).2 hmoves
  rw [hway] at ht
  exact ⟨t, runs_of_run hs ht, hthere.trans hvalue, hstopped⟩

end Ratfist.StopRuns
