import Ratfist.CheckedArray
import Mathlib.Data.Int.Notation
import Mathlib.Logic.Function.Basic

/-!
The I2C driver of the weather stations (`bsp/i2c`): the register accesses of one
peripheral, the event handler and the buffers it fills, the error handler and the two
critical sections of `run_transaction`. What an interrupt finds in SR1 and DR is given
from outside. A transaction refers to its steps, which its caller owns, by a `ρ`;
`none` is an index outside the steps or a buffer, or a subtraction below zero.
-/
namespace Ratfist.I2cHandler

open CheckedArray

inductive Register
  | cr1 | cr2 | oar1 | oar2 | dr | sr1 | sr2 | ccr | trise | fltr
deriving DecidableEq, Repr

/-- An access to a register; `modify` reads it and writes it back with the bits of
`clear` cleared and those of `set` set. `save` reads registers one after the other and
`restore` writes to each the value saved last. -/
inductive RegOp
  | read (reg : Register) (value : UInt32)
  | write (reg : Register) (value : UInt32)
  | modify (reg : Register) (clear set : UInt32)
  | save (regs : List Register)
  | restore (regs : List Register)
deriving DecidableEq, Repr

def cr1Swrst := (1 : UInt32) <<< 15
def cr1Pos := (1 : UInt32) <<< 11
def cr1Ack := (1 : UInt32) <<< 10
def cr1Stop := (1 : UInt32) <<< 9
def cr1Start := (1 : UInt32) <<< 8
def cr1Pe : UInt32 := 1
def cr2Itbufen := (1 : UInt32) <<< 10
def cr2Itevten := (1 : UInt32) <<< 9
def cr2Iterren := (1 : UInt32) <<< 8
def cr2FreqMask : UInt32 := 0x3f
def sr1Af := (1 : UInt32) <<< 10
def sr1Arlo := (1 : UInt32) <<< 9
def sr1Berr := (1 : UInt32) <<< 8
def sr1Txe := (1 : UInt32) <<< 7
def sr1Rxne := (1 : UInt32) <<< 6
def sr1Btf := (1 : UInt32) <<< 2
def sr1Addr := (1 : UInt32) <<< 1
def sr1Sb : UInt32 := 1
def ccrCcrMask : UInt32 := 0x0fff
def triseTriseMask : UInt32 := 0x3f
def fltrAnoff := (1 : UInt32) <<< 4
def fltrDnfMask : UInt32 := 0x0f

/-! The methods of `I2C`. -/

def clearErrorFlags : RegOp := .modify .sr1 (sr1Berr ||| sr1Arlo ||| sr1Af) 0

def clearTransactionCtrlBits : RegOp :=
  .modify .cr1 (cr1Pos ||| cr1Ack ||| cr1Stop ||| cr1Start) 0

def reset : List RegOp :=
  [clearTransactionCtrlBits, .save [.cr1, .cr2, .oar1, .oar2, .ccr, .trise, .fltr],
    .modify .cr1 0 cr1Swrst, .modify .cr1 cr1Swrst 0,
    .restore [.cr2, .oar1, .oar2, .ccr, .trise, .fltr, .cr1]]

def enablePeriph : RegOp := .modify .cr1 0 cr1Pe

def set100mhzStandardMode (periphFreqHz : UInt32) : List RegOp :=
  [.modify .cr2 0 (periphFreqHz / 1000000 &&& cr2FreqMask),
    .write .ccr (periphFreqHz / 200000 &&& ccrCcrMask),
    .write .trise (periphFreqHz / 1000000 + 1 &&& triseTriseMask)]

def setAnalogFilterState (newState : Bool) : RegOp :=
  if newState then .modify .fltr fltrAnoff 0 else .modify .fltr 0 fltrAnoff

def setDigitalFilterLen (newLen : UInt32) : RegOp := .modify .fltr 0 (newLen &&& fltrDnfMask)

def enableAck : RegOp := .modify .cr1 0 cr1Ack

def disableAck : RegOp := .modify .cr1 cr1Ack 0

def disableAckAfterNextByte : RegOp := .modify .cr1 cr1Ack cr1Pos

def sendStart : RegOp := .modify .cr1 0 cr1Start

def sendStop : RegOp := .modify .cr1 0 cr1Stop

def enableEventInterrupts : RegOp := .modify .cr2 0 cr2Itevten

def enableErrorInterrupts : RegOp := .modify .cr2 0 cr2Iterren

def enableBufferInterrupts : RegOp := .modify .cr2 0 cr2Itbufen

def disableBufferInterrupts : RegOp := .modify .cr2 cr2Itbufen 0

inductive CommDir
  | read
  | write
deriving DecidableEq, Repr

def sendData (dataByte : UInt8) : RegOp := .write .dr dataByte.toUInt32

def CommDir.bit : CommDir → UInt8
  | .read => 1
  | .write => 0

def sendAddr (addr : UInt8) (dir : CommDir) : RegOp := sendData ((addr <<< 1) ||| dir.bit)

/-- What one interrupt finds when it reads the peripheral: SR1 at the test of each flag
and when ADDR is cleared, SR2, and DR at its first and at its second reading. -/
structure Status where
  sb : UInt32
  addr : UInt32
  btf : UInt32
  txe : UInt32
  rxne : UInt32
  clear : UInt32
  sr2 : UInt32
  dr : UInt32
  drNext : UInt32
deriving DecidableEq, Repr

namespace Status

variable (io : Status)

def isSbSet : Bool := io.sb &&& sr1Sb != 0
def isAddrSet : Bool := io.addr &&& sr1Addr != 0
def isBtfSet : Bool := io.btf &&& sr1Btf != 0
def isTxeSet : Bool := io.txe &&& sr1Txe != 0
def isRxneSet : Bool := io.rxne &&& sr1Rxne != 0

def clearAddrFlag : List RegOp := [.read .sr1 io.clear, .read .sr2 io.sr2]

end Status

/-- `peripheral_init` and `deblock_bus` without the pins, the clocks and the interrupt
controller, which they set up as well. -/
def peripheralInit : List RegOp :=
  reset ++ set100mhzStandardMode 48000000 ++
    [enableEventInterrupts, enableErrorInterrupts, setAnalogFilterState true,
      setDigitalFilterLen 0x0f, enablePeriph]

def deblockBus : List RegOp := reset ++ peripheralInit

inductive PeripheralState
  | startBitSet
  | addressSent
  | transmitting (nextBytePos : ℕ)
  | receiving (nextBytePos : ℕ)
  | done (retVal : ℤ)
deriving DecidableEq, Repr

inductive Step
  | read (data : List UInt8)
  | write (data : List UInt8)
deriving DecidableEq, Repr

namespace Step

def asRef : Step → List UInt8
  | .read data | .write data => data

def len (step : Step) : ℕ := step.asRef.length

/-- `as_mut()[i] = byte`. -/
def setByte (i : ℕ) (byte : UInt8) : Step → Option Step
  | .read data => if i < data.length then some (.read (data.set i byte)) else none
  | .write data => if i < data.length then some (.write (data.set i byte)) else none

end Step

/-- What an event makes of the state, the position in the steps and the buffers. -/
structure Progress where
  state : PeripheralState
  currStep : ℕ
  steps : List Step
  ops : List RegOp
deriving DecidableEq, Repr

section Handler

variable (io : Status) (deviceAddr : UInt8) (currStep : ℕ) (steps : List Step)

def onLastStep : Bool := decide (steps.length ≤ currStep + 1)

/-- `steps[curr_step].as_mut()[i] = byte`. -/
def storeByte (i : ℕ) (byte : UInt8) : Option (List Step) := do
  let step ← steps[currStep]?
  let step ← step.setByte i byte
  some (steps.set currStep step)

def onStartBitSet : Option Progress :=
  if !io.isSbSet then some ⟨.startBitSet, currStep, steps, []⟩
  else do
    match ← steps[currStep]? with
    | .read _ => some ⟨.addressSent, currStep, steps, [sendAddr deviceAddr .read]⟩
    | .write _ => some ⟨.addressSent, currStep, steps, [sendAddr deviceAddr .write]⟩

def onAddressSent : Option Progress :=
  if !io.isAddrSet then some ⟨.addressSent, currStep, steps, []⟩
  else do
    match ← steps[currStep]? with
    | .read data =>
      let ack :=
        if data.length = 1 then [disableAck, enableBufferInterrupts]
        else if data.length = 2 then [disableAckAfterNextByte]
        else [enableAck, enableBufferInterrupts]
      some ⟨.receiving 0, currStep, steps, ack ++ io.clearAddrFlag⟩
    | .write data =>
      let first ← data[0]?
      let buffered := if 2 ≤ data.length then [enableBufferInterrupts] else []
      some ⟨.transmitting 1, currStep, steps, io.clearAddrFlag ++ [sendData first] ++ buffered⟩

def onTransmitting (nextBytePos : ℕ) : Option Progress := do
  let step ← steps[currStep]?
  if (decide (step.len ≤ nextBytePos) && !io.isBtfSet) || !io.isTxeSet then
    some ⟨.transmitting nextBytePos, currStep, steps, []⟩
  else if step.len ≤ nextBytePos then
    if onLastStep currStep steps then
      some ⟨.done 0, currStep, steps, [sendStop, disableBufferInterrupts]⟩
    else some ⟨.startBitSet, currStep + 1, steps, [sendStart, disableBufferInterrupts]⟩
  else do
    let byte ← step.asRef[nextBytePos]?
    some ⟨.transmitting (nextBytePos + 1), currStep, steps, [sendData byte]⟩

def onReceiving (nextBytePos : ℕ) : Option Progress := do
  let step ← steps[currStep]?
  let last ← sub step.len 1
  if nextBytePos = last then
    if !io.isRxneSet then some ⟨.receiving nextBytePos, currStep, steps, []⟩
    else do
      let steps ← storeByte currStep steps nextBytePos io.dr.toUInt8
      if onLastStep currStep steps then
        some ⟨.done 0, currStep, steps,
          [.read .dr io.dr, disableBufferInterrupts, sendStop]⟩
      else some ⟨.startBitSet, currStep + 1, steps, [.read .dr io.dr, sendStart]⟩
  else do
    let lastButOne ← sub step.len 2
    if nextBytePos = lastButOne then
      let ack := if io.isRxneSet then [disableAck] else []
      if !io.isBtfSet then some ⟨.receiving nextBytePos, currStep, steps, ack⟩
      else do
        let stop := if onLastStep currStep steps then [sendStop] else []
        let steps ← storeByte currStep steps nextBytePos io.dr.toUInt8
        let steps ← storeByte currStep steps (nextBytePos + 1) io.drNext.toUInt8
        let ops := ack ++ stop ++ [.read .dr io.dr, .read .dr io.drNext]
        if onLastStep currStep steps then some ⟨.done 0, currStep, steps, ops⟩
        else some ⟨.startBitSet, currStep + 1, steps, ops ++ [sendStart]⟩
    else if !io.isRxneSet then some ⟨.receiving nextBytePos, currStep, steps, []⟩
    else do
      let steps ← storeByte currStep steps nextBytePos io.dr.toUInt8
      some ⟨.receiving (nextBytePos + 1), currStep, steps, [.read .dr io.dr]⟩

/-- `match ctx.state` of the event handler. -/
def onEvent : PeripheralState → Option Progress
  | .startBitSet => onStartBitSet io deviceAddr currStep steps
  | .addressSent => onAddressSent io currStep steps
  | .transmitting nextBytePos => onTransmitting io currStep steps nextBytePos
  | .receiving nextBytePos => onReceiving io currStep steps nextBytePos
  | .done retVal => some ⟨.done retVal, currStep, steps, []⟩

end Handler

inductive Peripheral
  | i2c1
  | i2c2
  | i2c3
deriving DecidableEq, Repr

variable {ρ : Type}

structure Transaction (ρ : Type) where
  steps : ρ
  currStep : ℕ
  deviceAddr : UInt8
deriving DecidableEq, Repr

structure InterruptContext (ρ : Type) where
  currentTransaction : Option (Transaction ρ)
  periphId : Peripheral
  state : PeripheralState
deriving DecidableEq, Repr

/-- The entries of `I2C_PERIPHS`. -/
def i2cPeriphs (periph : Peripheral) : InterruptContext ρ := ⟨none, periph, .done 0⟩

/-- A peripheral with the steps its callers own, and the register accesses so far. -/
structure Bus (ρ : Type) where
  ctx : InterruptContext ρ
  steps : ρ → List Step
  trace : List RegOp

/-- `rust_i2c_interrupt_handler`. -/
def interruptHandler [DecidableEq ρ] (io : Status) (bus : Bus ρ) : Option (Bus ρ) :=
  match bus.ctx.currentTransaction with
  | none => some bus
  | some t => do
    let p ← onEvent io t.deviceAddr t.currStep (bus.steps t.steps) bus.ctx.state
    let ctx : InterruptContext ρ :=
      { bus.ctx with
        currentTransaction := some { t with currStep := p.currStep }
        state := p.state }
    some ⟨ctx, Function.update bus.steps t.steps p.steps, bus.trace ++ p.ops⟩

/-- `rust_i2c_interrupt_error_handler`. -/
def interruptErrorHandler (bus : Bus ρ) : Bus ρ :=
  { bus with
    ctx := { bus.ctx with state := .done (-1) }
    trace := bus.trace ++ [clearErrorFlags, clearTransactionCtrlBits] }

def PeripheralState.isDone : PeripheralState → Bool
  | .done _ => true
  | _ => false

/-- The first critical section of `run_transaction`; the outcome is `none` where it goes
on to the second. -/
def startTransaction (steps : ρ) (deviceAddr : UInt8) (bus : Bus ρ) :
    Bus ρ × Option (Except Unit Unit) :=
  if bus.ctx.currentTransaction.isSome then (bus, some (.error ()))
  else if !bus.ctx.state.isDone then (bus, some (.error ()))
  else
    let ctx : InterruptContext ρ :=
      { bus.ctx with
        currentTransaction := some ⟨steps, 0, deviceAddr⟩
        state := .startBitSet }
    ({ bus with ctx := ctx, trace := bus.trace ++ reset ++ [sendStart] }, none)

/-- The second critical section, one pass of the loop; the outcome is `none` where the
loop goes on. -/
def pollTransaction (bus : Bus ρ) : Bus ρ × Option (Except Unit Unit) :=
  match bus.ctx.state with
  | .done retVal =>
    let bus := { bus with ctx := { bus.ctx with currentTransaction := none } }
    if retVal = 0 then (bus, some (.ok ()))
    else ({ bus with trace := bus.trace ++ deblockBus }, some (.error ()))
  | _ => (bus, none)

/-! What an event and the two sections can do. -/

theorem interruptHandler_inv [DecidableEq ρ] {io : Status} {bus next : Bus ρ}
    (h : interruptHandler io bus = some next) :
    (bus.ctx.currentTransaction = none ∧ next = bus) ∨
      ∃ t p, bus.ctx.currentTransaction = some t ∧
        onEvent io t.deviceAddr t.currStep (bus.steps t.steps) bus.ctx.state = some p ∧
        next = ⟨⟨some { t with currStep := p.currStep }, bus.ctx.periphId, p.state⟩,
          Function.update bus.steps t.steps p.steps, bus.trace ++ p.ops⟩ := by
  unfold interruptHandler at h
  cases ht : bus.ctx.currentTransaction with
  | none =>
    simp only [ht, Option.some.injEq] at h
    exact Or.inl ⟨rfl, h.symm⟩
  | some t =>
    simp only [ht] at h
    obtain ⟨p, hp, hnext⟩ := Option.bind_eq_some_iff.mp h
    cases hnext
    exact Or.inr ⟨t, p, rfl, hp, rfl⟩

theorem startTransaction_cases (steps : ρ) (deviceAddr : UInt8) (bus : Bus ρ) :
    ((bus.ctx.currentTransaction.isSome ∨ bus.ctx.state.isDone = false) ∧
        startTransaction steps deviceAddr bus = (bus, some (.error ()))) ∨
      (bus.ctx.currentTransaction = none ∧ bus.ctx.state.isDone = true ∧
        ∃ bus', startTransaction steps deviceAddr bus = (bus', none) ∧
          bus'.ctx.currentTransaction = some ⟨steps, 0, deviceAddr⟩ ∧
          bus'.ctx.state = .startBitSet ∧ bus'.steps = bus.steps) := by
  unfold startTransaction
  cases ht : bus.ctx.currentTransaction with
  | some t => simp
  | none => cases hd : bus.ctx.state.isDone <;> simp

/-- The second section takes the transaction away when it returns. -/
theorem pollTransaction_cases (bus : Bus ρ) :
    (bus.ctx.state.isDone = false ∧ pollTransaction bus = (bus, none)) ∨
      ∃ bus' outcome, pollTransaction bus = (bus', some outcome) ∧
        bus'.ctx.currentTransaction = none ∧ bus'.ctx.state = bus.ctx.state ∧
        bus.ctx.state.isDone = true ∧ (outcome = .ok () → bus.ctx.state = .done 0) := by
  unfold pollTransaction
  cases hs : bus.ctx.state with
  | done retVal =>
    refine Or.inr ?_
    simp only
    split_ifs with hzero
    · exact ⟨_, _, rfl, rfl, hs, rfl, fun _ => by rw [hzero]⟩
    · exact ⟨_, _, rfl, rfl, hs, rfl, fun h => by cases h⟩
  | _ => exact Or.inl ⟨rfl, rfl⟩

end Ratfist.I2cHandler
