import Ratfist.Constants
import Ratfist.Runs
import Mathlib.Data.Fin.Basic
import Mathlib.Data.Rat.Floor

/-!
The stepper motor of the spinner (`spinner/<board>/bsp.c`). Each update of the timebase
makes the DMA controller copy one entry of the pole table to the port's BSRR and moves the
position timer by one. The two boards use other timers, a DMA stream or a channel, and
other pins; what differs in the computations are the words of the tables and the clock.
-/
namespace Ratfist.Stepper

open Constants

/-- The operations on `float` that the code uses; `exceeds` compares with a `double`. -/
structure FloatOps (F : Type) where
  literal : ℚ → F
  ofCounter : ℕ → F
  fabsf : F → F
  add : F → F → F
  mul : F → F → F
  div : F → F → F
  lt : F → F → Bool
  le : F → F → Bool
  exceeds : F → ℚ → Bool
  fmodf : F → F → F
  toUInt16 : F → ℕ
  toUInt32 : F → ℕ

def exact : FloatOps ℚ where
  literal := id
  ofCounter n := n
  fabsf x := |x|
  add x y := x + y
  mul x y := x * y
  div x y := x / y
  lt x y := decide (x < y)
  le x y := decide (x ≤ y)
  exceeds x y := decide (y < x)
  fmodf x y := x - y * (if x / y < 0 then ⌈x / y⌉ else ⌊x / y⌋ : ℤ)
  toUInt16 x := ⌊x⌋.toNat % 2 ^ 16
  toUInt32 x := ⌊x⌋.toNat % 2 ^ 32

/-- The first of the four pins of the coils. -/
def firstPin : Board → UInt32
  | .stm32f072discovery => 6
  | .stm32f411discovery => 0

def poleState (b : Board) (reset set : UInt32) : UInt32 := (reset <<< 16 ||| set) <<< firstPin b

def stepperPoleStatesFwd (b : Board) : Vector UInt32 8 := #v[
  poleState b 0b1000 0b0001,
  poleState b 0b0000 0b0011,
  poleState b 0b0001 0b0010,
  poleState b 0b0000 0b0110,
  poleState b 0b0010 0b0100,
  poleState b 0b0000 0b1100,
  poleState b 0b0100 0b1000,
  poleState b 0b0000 0b1001]

def stepperPoleStatesRev (b : Board) : Vector UInt32 8 := #v[
  poleState b 0b0010 0b0001,
  poleState b 0b0000 0b1001,
  poleState b 0b0001 0b1000,
  poleState b 0b0000 0b1100,
  poleState b 0b1000 0b0100,
  poleState b 0b0000 0b0110,
  poleState b 0b0100 0b0010,
  poleState b 0b0000 0b0011]

def stepperPoleStates (b : Board) (fwd : Bool) : Vector UInt32 8 :=
  if fwd then stepperPoleStatesFwd b else stepperPoleStatesRev b

/-- The bits of a half of a BSRR word that belong to the four pins. -/
def pins (b : Board) (half : UInt32) : BitVec 4 := BitVec.ofNat 4 (half >>> firstPin b).toNat

/-- A write to BSRR resets the pins of the upper half and sets those of the lower half. -/
def bsrr (b : Board) (coils : BitVec 4) (word : UInt32) : BitVec 4 :=
  (coils &&& ~~~pins b (word >>> 16)) ||| pins b word

structure Timer where
  enabled : Bool
  up : Bool
  counter : ℕ
  prescaler : ℕ
  period : ℕ
deriving DecidableEq, Repr

/-- One clock of the counter, which takes the values from 0 to the period. -/
def Timer.count (t : Timer) : Timer :=
  if t.up then { t with counter := if t.counter = t.period then 0 else t.counter + 1 }
  else { t with counter := if t.counter = 0 then t.period else t.counter - 1 }

scoped instance entries_neZero : NeZero 8 := ⟨by decide⟩

/-- The controller copies the entries of `memory` in a circle; `next` is the next one. -/
structure Dma where
  enabled : Bool
  memory : Vector UInt32 8
  next : Fin 8

/-- Enabled again, it starts at the first entry. -/
def Dma.enable (d : Dma) : Dma := { d with enabled := true, next := 0 }

/-- The peripherals; `updateDma` is the bit UDE of the timebase. -/
structure StepperBsp where
  coils : BitVec 4
  dma : Dma
  timebase : Timer
  updateDma : Bool
  position : Timer
  stepperDirIsFwd : Bool

namespace StepperBsp

variable {F : Type} (s : StepperBsp)

def transfer (b : Board) : StepperBsp :=
  if s.updateDma && s.dma.enabled then
    { s with
      coils := bsrr b s.coils s.dma.memory[s.dma.next]
      dma := { s.dma with next := s.dma.next + 1 } }
  else s

/-- An update event of the timebase also clocks the position timer. -/
def update (b : Board) : StepperBsp :=
  let s := s.transfer b
  if s.position.enabled then { s with position := s.position.count } else s

/-- Timer and DMA controller after a reset of the board and this call. The update event that
it generates comes before the DMA request and the position timer are enabled. -/
def bspSpinnerInit (b : Board) : StepperBsp where
  coils := 0
  dma := ⟨true, stepperPoleStatesFwd b, 0⟩
  timebase := ⟨false, true, 0, 0xffff, 0xffff⟩
  updateDma := true
  position := ⟨true, true, 0, 0, 4096⟩
  stepperDirIsFwd := true

def bspStepperIsMoving (stepperId : UInt8) : Bool :=
  if stepperId ≠ 0 then false else s.timebase.enabled

def bspStepperStart (stepperId : UInt8) : StepperBsp :=
  if stepperId ≠ 0 then s else { s with timebase := { s.timebase with enabled := true } }

def bspStepperStop (stepperId : UInt8) : StepperBsp :=
  if stepperId ≠ 0 then s else { s with timebase := { s.timebase with enabled := false } }

def bspStepperGetPos (ops : FloatOps F) (stepperId : UInt8) : F :=
  if stepperId ≠ 0 then ops.literal 0
  else ops.div (ops.mul (ops.ofCounter s.position.counter) (ops.literal 360)) (ops.literal 4096)

def stopPos (ops : FloatOps F) (stopPosDeg : F) : ℕ :=
  let adj := ops.fmodf stopPosDeg (ops.literal 360)
  let adj := if ops.lt adj (ops.literal 0) then ops.add adj (ops.literal 360) else adj
  ops.toUInt32 (ops.add (ops.div (ops.mul (ops.literal 4096) adj) (ops.literal 360))
    (ops.literal 0.5))

end StepperBsp

/-- The clocks of the timebase between two half-steps at the rate of one percent. -/
def ticksTotal : Board → ℚ
  | .stm32f072discovery => 4800000
  | .stm32f411discovery => 9600000

section Rate

variable {F : Type} (ops : FloatOps F)

def adjRatePct (ratePct : F) : F :=
  if ops.lt (ops.literal 100) ratePct then ops.literal 100
  else if ops.lt ratePct (ops.literal (-100)) then ops.literal (-100)
  else ratePct

def newDirIsFwd (ratePct : F) : Bool := ops.le (ops.literal 0) (adjRatePct ops ratePct)

def timebaseSettings (b : Board) (ratePct : F) : ℕ × ℕ :=
  let absRatePct := ops.fabsf (adjRatePct ops ratePct)
  if ops.exceeds absRatePct 0.1 then
    let timTicksTotal := ops.div (ops.literal (ticksTotal b)) absRatePct
    let presc := ops.toUInt16 (ops.div timTicksTotal (ops.literal 65536))
    (presc, ops.toUInt16 (ops.div timTicksTotal (ops.add (ops.ofCounter presc) (ops.literal 1))))
  else (0xffff, 0xffff)

end Rate

namespace StepperBsp

variable {F : Type}

/-- The other table, from its first entry on, and the other direction of counting. -/
def setDirection (s : StepperBsp) (b : Board) (newDirIsFwd : Bool) : StepperBsp :=
  if newDirIsFwd ≠ s.stepperDirIsFwd then
    let dma := { s.dma with enabled := false }
    let dma := { dma with memory := stepperPoleStates b newDirIsFwd }
    { s with
      dma := dma.enable
      position := { s.position with up := newDirIsFwd }
      stepperDirIsFwd := newDirIsFwd }
  else s

def bspStepperSetRate (ops : FloatOps F) (b : Board) (s : StepperBsp) (stepperId : UInt8)
    (ratePct : F) : StepperBsp :=
  if stepperId ≠ 0 then s
  else
    let wasRunning := s.bspStepperIsMoving stepperId
    let (presc, ctrVal) := timebaseSettings ops b ratePct
    let s := { s with timebase := { s.timebase with enabled := false } }
    let s := s.setDirection b (newDirIsFwd ops ratePct)
    let s := { s with timebase := { s.timebase with prescaler := presc, period := ctrVal } }
    let s := { s with position := { s.position with enabled := false }, updateDma := false }
    -- `timer_generate_event` loads the prescaler and clears the counter
    let s := { s with timebase := { s.timebase with counter := 0 } }.update b
    let s := { s with updateDma := true, position := { s.position with enabled := true } }
    if !(presc == 0xffff && ctrVal == 0xffff) && wasRunning then
      { s with timebase := { s.timebase with enabled := true } }
    else s

end StepperBsp

/-- The calls, and one update event of the running timebase: a half-step. -/
inductive Action (F : Type)
  | start (stepperId : UInt8)
  | stop (stepperId : UInt8)
  | setRate (stepperId : UInt8) (ratePct : F)
  | halfStep
deriving DecidableEq, Repr

section Runs

variable {F : Type} (ops : FloatOps F) (b : Board)

def step : Action F → StepperBsp → Option StepperBsp
  | .start id, s => some (s.bspStepperStart id)
  | .stop id, s => some (s.bspStepperStop id)
  | .setRate id ratePct, s => some (s.bspStepperSetRate ops b id ratePct)
  | .halfStep, s => if s.timebase.enabled then some (s.update b) else none

def run (actions : List (Action F)) : Option StepperBsp :=
  Runs.runs (step ops b) actions (StepperBsp.bspSpinnerInit b)

def commanded (actions : List (Action F)) : Bool :=
  actions.foldl (fun fwd action =>
    match action with
    | .setRate id ratePct => if id = 0 then newDirIsFwd ops ratePct else fwd
    | _ => fwd) true

end Runs

/-- The peripherals between two calls, when the direction is `fwd`. -/
structure Steered (b : Board) (fwd : Bool) (s : StepperBsp) : Prop where
  updateDma : s.updateDma = true
  dmaEnabled : s.dma.enabled = true
  positionEnabled : s.position.enabled = true
  period : s.position.period = 4096
  direction : s.stepperDirIsFwd = fwd
  memory : s.dma.memory = stepperPoleStates b fwd
  up : s.position.up = fwd

inductive Acts {F : Type} (ops : FloatOps F) (b : Board) (fwd : Bool) (s : StepperBsp) :
    Action F → StepperBsp → Prop
  | other (action : Action F) (timebase : Timer) (hstep : action ≠ .halfStep)
      (hfwd : ∀ earlier, commanded ops (earlier ++ [action]) = commanded ops earlier) :
      Acts ops b fwd s action { s with timebase := timebase }
  | setRate (ratePct : F) (timebase : Timer) (fwd' : Bool)
      (hfwd' : newDirIsFwd ops ratePct = fwd') :
      Acts ops b fwd s (.setRate 0 ratePct)
        { s with
          timebase := timebase
          dma := if fwd' = fwd then s.dma else ⟨true, stepperPoleStates b fwd', 0⟩
          position := { s.position with up := fwd' }
          stepperDirIsFwd := fwd' }
  | halfStep (henabled : s.timebase.enabled) :
      Acts ops b fwd s .halfStep
        { s with
          coils := bsrr b s.coils (stepperPoleStates b fwd)[s.dma.next]
          dma := { s.dma with next := s.dma.next + 1 }
          position := s.position.count }

section Steps

variable {F : Type} {ops : FloatOps F} {b : Board} {fwd : Bool} {s s' : StepperBsp}

theorem StepperBsp.update_quiet (hdma : s.updateDma = false)
    (hposition : s.position.enabled = false) : s.update b = s := by
  simp [StepperBsp.update, StepperBsp.transfer, hdma, hposition]

theorem Steered.update (h : Steered b fwd s) : s.update b =
    { s with
      coils := bsrr b s.coils (stepperPoleStates b fwd)[s.dma.next]
      dma := { s.dma with next := s.dma.next + 1 }
      position := s.position.count } := by
  simp [StepperBsp.update, StepperBsp.transfer, h.updateDma, h.dmaEnabled, h.positionEnabled,
    h.memory]

theorem Steered.setDirection (h : Steered b fwd s) (fwd' : Bool) : s.setDirection b fwd' =
    { s with
      dma := if fwd' = fwd then s.dma else ⟨true, stepperPoleStates b fwd', 0⟩
      position := { s.position with up := fwd' }
      stepperDirIsFwd := fwd' } := by
  unfold StepperBsp.setDirection
  rw [h.direction]
  by_cases hsame : fwd' = fwd
  · have hup : s.position = { s.position with up := fwd' } := by rw [hsame, ← h.up]
    have hdir : s.stepperDirIsFwd = fwd' := h.direction.trans hsame.symm
    rw [if_neg (by simpa using hsame), if_pos hsame, ← hup, ← hdir]
  · rw [if_pos hsame, if_neg hsame]
    rfl

/-- The update event of a change of the rate moves neither the coils nor the position. -/
theorem Steered.setRate (h : Steered b fwd s) (ops : FloatOps F) (ratePct : F) :
    ∃ timebase, s.bspStepperSetRate ops b 0 ratePct =
      { s.setDirection b (newDirIsFwd ops ratePct) with timebase := timebase } := by
  have hstopped : Steered b fwd { s with timebase := { s.timebase with enabled := false } } :=
    ⟨h.updateDma, h.dmaEnabled, h.positionEnabled, h.period, h.direction, h.memory, h.up⟩
  rw [StepperBsp.bspStepperSetRate, if_neg (by simp)]
  simp only [hstopped.setDirection, h.setDirection, StepperBsp.update_quiet]
  rw [h.updateDma, h.positionEnabled]
  split_ifs <;> exact ⟨_, rfl⟩

theorem commanded_snoc (actions : List (Action F)) (action : Action F) :
    commanded ops (actions ++ [action]) =
      match action with
      | .setRate id ratePct => if id = 0 then newDirIsFwd ops ratePct else commanded ops actions
      | _ => commanded ops actions := by
  rw [commanded, List.foldl_append]
  rfl

theorem Steered.step (h : Steered b fwd s) {action : Action F}
    (hs : step ops b action s = some s') : Acts ops b fwd s action s' := by
  cases action with
  | start id =>
    cases hs
    have hfwd (earlier : List (Action F)) :
        commanded ops (earlier ++ [.start id]) = commanded ops earlier := commanded_snoc earlier _
    rw [StepperBsp.bspStepperStart]
    split_ifs
    · exact .other _ s.timebase (by simp) hfwd
    · exact .other _ _ (by simp) hfwd
  | stop id =>
    cases hs
    have hfwd (earlier : List (Action F)) :
        commanded ops (earlier ++ [.stop id]) = commanded ops earlier := commanded_snoc earlier _
    rw [StepperBsp.bspStepperStop]
    split_ifs
    · exact .other _ s.timebase (by simp) hfwd
    · exact .other _ _ (by simp) hfwd
  | setRate id ratePct =>
    cases hs
    by_cases hid : id = 0
    · subst hid
      obtain ⟨timebase, hrate⟩ := h.setRate ops ratePct
      rw [hrate, h.setDirection]
      exact .setRate ratePct timebase _ rfl
    · have hfwd (earlier : List (Action F)) :
          commanded ops (earlier ++ [.setRate id ratePct]) = commanded ops earlier :=
        (commanded_snoc earlier _).trans (if_neg hid)
      rw [StepperBsp.bspStepperSetRate, if_pos hid]
      exact .other _ s.timebase (by simp) hfwd
  | halfStep =>
    rw [Stepper.step] at hs
    split_ifs at hs with henabled
    cases hs
    rw [h.update]
    exact .halfStep henabled

theorem Acts.steered {action : Action F} (h : Steered b fwd s) (hacts : Acts ops b fwd s action s')
    (earlier : List (Action F)) (hfwd : commanded ops earlier = fwd) :
    Steered b (commanded ops (earlier ++ [action])) s' := by
  cases hacts with
  | other action timebase hstep hsame =>
    rw [hsame, hfwd]
    exact ⟨h.updateDma, h.dmaEnabled, h.positionEnabled, h.period, h.direction, h.memory, h.up⟩
  | setRate ratePct timebase fwd' hfwd' =>
    have hturned : commanded ops (earlier ++ [.setRate 0 ratePct]) = fwd' := by
      rw [commanded_snoc, ← hfwd']
      exact if_pos rfl
    rw [hturned]
    by_cases hturn : fwd' = fwd
    · simp only [if_pos hturn]
      exact ⟨h.updateDma, h.dmaEnabled, h.positionEnabled, h.period, rfl, hturn ▸ h.memory, rfl⟩
    · simp only [if_neg hturn]
      exact ⟨h.updateDma, rfl, h.positionEnabled, h.period, rfl, rfl, rfl⟩
  | halfStep henabled =>
    have hsame : commanded ops (earlier ++ [.halfStep]) = fwd := by rw [commanded_snoc, ← hfwd]
    rw [hsame]
    have hcount : s.position.count.enabled = s.position.enabled ∧
        s.position.count.period = s.position.period ∧ s.position.count.up = s.position.up := by
      unfold Timer.count
      split_ifs <;> exact ⟨rfl, rfl, rfl⟩
    exact ⟨h.updateDma, h.dmaEnabled, hcount.1.trans h.positionEnabled, hcount.2.1.trans h.period,
      h.direction, h.memory, hcount.2.2.trans h.up⟩

theorem steered_of_run {actions : List (Action F)} (h : run ops b actions = some s) :
    Steered b (commanded ops actions) s := by
  refine Runs.runs_history (fun earlier m => Steered b (commanded ops earlier) m) ?_ ?_ h
  · exact ⟨rfl, rfl, rfl, rfl, rfl, rfl, rfl⟩
  · intro earlier action m t _ hm hstep
    exact (hm.step hstep).steered hm earlier rfl

end Steps

end Ratfist.Stepper
