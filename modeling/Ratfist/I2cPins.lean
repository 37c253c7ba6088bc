import Ratfist.Gpio
import Ratfist.I2cHandler
import Ratfist.Stm32f411

/-!
The rest of `peripheral_init` and `deblock_bus`: the pins, the clocks and the interrupts of an
I2C peripheral. A bus on which a device holds the data line is freed by nine clock pulses; for
them the driver takes the pins from the peripheral and gives them back.
-/
namespace Ratfist.I2cPins

open I2cHandler Gpio Stm32f411

inductive Port
  | gpioA
  | gpioB
  | gpioC
deriving DecidableEq, Repr

abbrev Pin := Port × Fin 16

/-- What the two functions act on. `accesses` are those to the registers of the peripheral, and
`waits` what the ports are at each `wait_us`. -/
structure Hardware where
  ports : Port → PortRegs
  rcc : Rcc.Registers
  nvic : Nvic.Registers
  accesses : List RegOp
  waits : List (Port → PortRegs)

namespace Hardware

variable (hw : Hardware)

def onPin (pin : Pin) (op : Gpio.Op) : Hardware :=
  { hw with ports := Function.update hw.ports pin.1 (op.apply pin.2 (hw.ports pin.1)) }

def enablePeriph (periph : Rcc.Peripheral) : Hardware :=
  { hw with rcc := Rcc.enablePeriph hw.rcc periph }

def access (ops : List RegOp) : Hardware := { hw with accesses := hw.accesses ++ ops }

def waitUs : Hardware := { hw with waits := hw.waits ++ [hw.ports] }

end Hardware

def pins : I2cHandler.Peripheral → Pin × Pin
  | .i2c1 => ((.gpioB, 9), (.gpioB, 6))
  | .i2c2 => ((.gpioB, 3), (.gpioB, 10))
  | .i2c3 => ((.gpioC, 9), (.gpioA, 8))

def portClocks : I2cHandler.Peripheral → List Rcc.Peripheral
  | .i2c1 | .i2c2 => [.gpioB]
  | .i2c3 => [.gpioA, .gpioC]

def clock : I2cHandler.Peripheral → Rcc.Peripheral
  | .i2c1 => .i2c1
  | .i2c2 => .i2c2
  | .i2c3 => .i2c3

def interrupts : I2cHandler.Peripheral → Nvic.Interrupt × Nvic.Interrupt
  | .i2c1 => (.i2c1Ev, .i2c1Er)
  | .i2c2 => (.i2c2Ev, .i2c2Er)
  | .i2c3 => (.i2c3Ev, .i2c3Er)

def interruptCalls (periph : I2cHandler.Peripheral) : List Nvic.Call :=
  let (ev, er) := interrupts periph
  [.interrupt ev .enable, .interrupt ev (.setPriority 1), .interrupt ev (.setSubpriority 1),
    .interrupt er .enable, .interrupt er (.setPriority 1), .interrupt er (.setSubpriority 0)]

def giveToPeripheral (hw : Hardware) (pin : Pin) : Hardware :=
  (hw.onPin pin (.setPullupPulldownMode .pullUp)).onPin pin
    (.setMode (.alternateFunction 4 .openDrain .high))

/-- `shift` is the distance of the field `ipr` from its place. -/
def peripheralInit (shift : ℕ) (periph : I2cHandler.Peripheral) (hw : Hardware) :
    Option Hardware := do
  let hw := (portClocks periph).foldl Hardware.enablePeriph hw
  let (sda, scl) := pins periph
  let hw := giveToPeripheral (giveToPeripheral hw sda) scl
  let hw := hw.enablePeriph (clock periph)
  let nvic ← Runs.runs (Nvic.call shift) (interruptCalls periph) hw.nvic
  let hw := { hw with nvic }
  some (hw.access I2cHandler.peripheralInit)

def takeFromPeripheral (hw : Hardware) (pin : Pin) : Hardware :=
  (hw.onPin pin (.setPullupPulldownMode .pullUp)).onPin pin (.setMode (.output .openDrain .high))

def clockPulse (scl : Pin) (hw : Hardware) : Hardware :=
  ((hw.onPin scl .set).waitUs.onPin scl .reset).waitUs

def deblockBus (shift : ℕ) (periph : I2cHandler.Peripheral) (hw : Hardware) : Option Hardware :=
  let hw := hw.access reset
  let (sda, scl) := pins periph
  let hw := takeFromPeripheral (takeFromPeripheral hw sda) scl
  let hw := hw.onPin sda .set
  let hw := (List.range 9).foldl (fun hw _ => clockPulse scl hw) hw
  let hw := hw.onPin scl .set
  peripheralInit shift periph hw

/-- A pin as it is set, and what it has been at the waits. -/
def pinOf (ports : Port → PortRegs) (pin : Pin) : PinState := pinState (ports pin.1) pin.2

def seen (hw : Hardware) (pin : Pin) : List PinState :=
  hw.waits.map fun ports => pinOf ports pin

section Steps

variable (hw : Hardware) (p q : Pin)

theorem pinOf_onPin (op : Gpio.Op) :
    pinOf (hw.onPin p op).ports q = if q = p then op.onPin (pinOf hw.ports q)
      else pinOf hw.ports q := by
  obtain ⟨port, k⟩ := p
  obtain ⟨port', l⟩ := q
  by_cases hport : port' = port
  · subst hport
    simp only [pinOf, Hardware.onPin, Function.update_self, pinState_apply, Prod.mk.injEq,
      true_and]
  · simp only [pinOf, Hardware.onPin, Function.update_of_ne hport, Prod.mk.injEq, hport,
      false_and, if_false]

theorem pinOf_giveToPeripheral : pinOf (giveToPeripheral hw p).ports q =
    if q = p then
      { pinOf hw.ports q with
        mode := 2, outputType := 1, outputSpeed := 3, pull := 1, altFunc := 4 }
    else pinOf hw.ports q := by
  rw [giveToPeripheral, pinOf_onPin, pinOf_onPin]
  split_ifs <;> rfl

theorem pinOf_takeFromPeripheral : pinOf (takeFromPeripheral hw p).ports q =
    if q = p then
      { pinOf hw.ports q with mode := 1, outputType := 1, outputSpeed := 3, pull := 1 }
    else pinOf hw.ports q := by
  rw [takeFromPeripheral, pinOf_onPin, pinOf_onPin]
  split_ifs <;> rfl

def halves (scl pin : Pin) (state : PinState) : List PinState :=
  if pin = scl then [{ state with output := 1 }, { state with output := 0 }] else [state, state]

theorem seen_clockPulse : seen (clockPulse p hw) q = seen hw q ++ halves p q (pinOf hw.ports q) ∧
    pinOf (clockPulse p hw).ports q =
      if q = p then { pinOf hw.ports q with output := 0 } else pinOf hw.ports q := by
  have hfirst := pinOf_onPin hw p q .set
  have hsecond := pinOf_onPin (hw.onPin p .set).waitUs p q .reset
  have hsame : pinOf (hw.onPin p .set).waitUs.ports q = pinOf (hw.onPin p .set).ports q := rfl
  rw [hsame, hfirst] at hsecond
  constructor
  · have hseen : seen (clockPulse p hw) q = seen hw q ++
        [pinOf (hw.onPin p .set).ports q,
          pinOf ((hw.onPin p .set).waitUs.onPin p .reset).ports q] := by
      simp [seen, clockPulse, Hardware.waitUs, Hardware.onPin]
    rw [hseen, hfirst, hsecond, halves]
    split_ifs <;> rfl
  · refine hsecond.trans ?_
    split_ifs <;> rfl

end Steps

def clockPulses (n : ℕ) (scl : Pin) (hw : Hardware) : Hardware :=
  (List.range n).foldl (fun hw _ => clockPulse scl hw) hw

theorem clockPulses_succ (n : ℕ) (scl : Pin) (hw : Hardware) :
    clockPulses (n + 1) scl hw = clockPulse scl (clockPulses n scl hw) := by
  rw [clockPulses, List.range_succ, List.foldl_append]
  rfl

/-- What the loop leaves as it is, and what a pin is meanwhile. -/
structure Pulsed (n : ℕ) (scl : Pin) (hw hw' : Hardware) : Prop where
  seen : ∀ pin, seen hw' pin =
    seen hw pin ++ (List.replicate n (halves scl pin (pinOf hw.ports pin))).flatten
  others : ∀ pin, pin ≠ scl → pinOf hw'.ports pin = pinOf hw.ports pin
  scl : ∀ bit, { pinOf hw'.ports scl with output := bit } =
    { pinOf hw.ports scl with output := bit }
  rcc : hw'.rcc = hw.rcc
  nvic : hw'.nvic = hw.nvic
  accesses : hw'.accesses = hw.accesses

theorem clockPulses_pulsed (n : ℕ) (scl : Pin) (hw : Hardware) :
    Pulsed n scl hw (clockPulses n scl hw) := by
  induction n with
  | zero => exact ⟨fun pin => (List.append_nil _).symm, fun _ _ => rfl, fun _ => rfl, rfl, rfl, rfl⟩
  | succ n ih =>
    rw [clockPulses_succ]
    refine ⟨fun pin => ?_, fun pin hpin => ?_, fun bit => ?_, ih.rcc, ih.nvic, ih.accesses⟩
    · have hhalves : halves scl pin (pinOf (clockPulses n scl hw).ports pin) =
          halves scl pin (pinOf hw.ports pin) := by
        unfold halves
        split_ifs with hscl
        · rw [hscl, ih.scl 1, ih.scl 0]
        · rw [ih.others pin hscl]
      rw [(seen_clockPulse _ scl pin).1, ih.seen, hhalves, List.append_assoc,
        List.replicate_succ', List.flatten_append]
      simp
    · rw [(seen_clockPulse _ scl pin).2, if_neg hpin, ih.others pin hpin]
    · rw [(seen_clockPulse _ scl scl).2, if_pos rfl]
      exact ih.scl bit

def driven (state : PinState) (bit : BitVec 1) : PinState :=
  { state with mode := 1, outputType := 1, outputSpeed := 3, pull := 1, output := bit }

/-- Both interrupts are enabled. Their priorities are set at the numbers `ev` and `er`. -/
def setUp {b : ℕ} (periph : I2cHandler.Peripheral) (ev er n : ℕ) (irq : Nvic.IrqState b) :
    Nvic.IrqState b where
  enabled :=
    if n = (interrupts periph).1.num ∨ n = (interrupts periph).2.num then 1#1 else irq.enabled
  priority := if n = ev ∨ n = er then (1#8).setWidth _ else irq.priority
  subpriority :=
    if n = ev then (1#8).setWidth _ else if n = er then (0#8).setWidth _ else irq.subpriority

structure Initialized (shift : ℕ) (periph : I2cHandler.Peripheral) (hw hw' : Hardware) :
    Prop where
  seen : ∀ pin, seen hw' pin = seen hw pin
  pins : ∀ pin, pinOf hw'.ports pin =
    if pin = (pins periph).1 ∨ pin = (pins periph).2 then
      { pinOf hw.ports pin with
        mode := 2, outputType := 1, outputSpeed := 3, pull := 1, altFunc := 4 }
    else pinOf hw.ports pin
  clocks : ∀ q, Rcc.periphState hw'.rcc q =
    if q ∈ clock periph :: portClocks periph then { Rcc.periphState hw.rcc q with clock := 1#1 }
    else Rcc.periphState hw.rcc q
  irqs : ∀ n : Fin 96, Nvic.irqState (Nvic.binpoint hw.nvic) hw'.nvic n =
    setUp periph ((interrupts periph).1.num + shift) ((interrupts periph).2.num + shift) n
      (Nvic.irqState (Nvic.binpoint hw.nvic) hw.nvic n)
  accesses : hw'.accesses = hw.accesses ++ I2cHandler.peripheralInit

theorem interruptCalls_run (shift : ℕ) (periph : I2cHandler.Peripheral)
    (nvic : Nvic.Registers) :
    ∃ nvic', Runs.runs (Nvic.call shift) (interruptCalls periph) nvic = some nvic' ∧
      ∀ n : Fin 96, Nvic.irqState (Nvic.binpoint nvic) nvic' n =
        setUp periph ((interrupts periph).1.num + shift) ((interrupts periph).2.num + shift) n
          (Nvic.irqState (Nvic.binpoint nvic) nvic n) := by
  obtain ⟨nvic', hrun⟩ : ∃ nvic', Runs.runs (Nvic.call shift) (interruptCalls periph) nvic =
      some nvic' := by
    cases periph <;> exact ⟨_, rfl⟩
  refine ⟨nvic', hrun, fun n => ?_⟩
  have hnone : Nvic.groupings (interruptCalls periph) = [] := by cases periph <;> rfl
  rw [Nvic.irqs_of_run hnone hrun n]
  have hdistinct : (interrupts periph).2.num ≠ (interrupts periph).1.num := by
    cases periph <;> decide
  generalize Nvic.irqState (Nvic.binpoint nvic) nvic n = irq
  simp only [interruptCalls, Nvic.foldl_onIrq_setUp, setUp]
  refine (Nvic.IrqState.mk.injEq ..).mpr ⟨?_, ?_, ?_⟩
  · split_ifs <;> first | rfl | omega
  · split_ifs <;> first | rfl | omega
  · split_ifs <;> first | rfl | omega

theorem periphState_enable (rcc : Rcc.Registers) (p q : Rcc.Peripheral) :
    Rcc.periphState (Rcc.enablePeriph rcc p) q =
      if q = p then { Rcc.periphState rcc q with clock := 1#1 } else Rcc.periphState rcc q :=
  Rcc.periphState_apply .enable rcc p q

theorem periphState_enableAll (ports : List Rcc.Peripheral) (rcc : Rcc.Registers)
    (q : Rcc.Peripheral) :
    Rcc.periphState (ports.foldl Rcc.enablePeriph rcc) q =
      if q ∈ ports then { Rcc.periphState rcc q with clock := 1#1 }
      else Rcc.periphState rcc q := by
  induction ports generalizing rcc with
  | nil => rfl
  | cons p ports ih =>
    rw [List.foldl_cons, ih, periphState_enable]
    by_cases hsame : q = p
    · by_cases hlater : p ∈ ports <;> simp [hsame, hlater]
    · simp [hsame]

theorem peripheralInit_initialized (shift : ℕ) (periph : I2cHandler.Peripheral)
    (hw : Hardware) :
    ∃ hw', peripheralInit shift periph hw = some hw' ∧ Initialized shift periph hw hw' := by
  obtain ⟨nvic', hrun, hirqs⟩ := interruptCalls_run shift periph hw.nvic
  have hdistinct : (pins periph).1 ≠ (pins periph).2 := by cases periph <;> decide
  let ports := (giveToPeripheral (giveToPeripheral hw (pins periph).1) (pins periph).2).ports
  let rcc := Rcc.enablePeriph
    ((portClocks periph).foldl Rcc.enablePeriph hw.rcc) (clock periph)
  have hinit : peripheralInit shift periph hw =
      (Runs.runs (Nvic.call shift) (interruptCalls periph) hw.nvic).bind fun nvic =>
        some ⟨ports, rcc, nvic, hw.accesses ++ I2cHandler.peripheralInit, hw.waits⟩ := by
    cases periph <;> rfl
  refine ⟨⟨ports, rcc, nvic', hw.accesses ++ I2cHandler.peripheralInit, hw.waits⟩,
    by rw [hinit, hrun, Option.bind_some], fun pin => rfl, fun pin => ?_, fun q => ?_, hirqs, rfl⟩
  · simp only [ports, pinOf_giveToPeripheral]
    by_cases hscl : pin = (pins periph).2
    · simp [hscl, hdistinct.symm]
    · simp [hscl]
  · simp only [rcc, periphState_enable, periphState_enableAll, List.mem_cons]
    by_cases hclock : q = clock periph
    · by_cases hport : clock periph ∈ portClocks periph <;> simp [hclock, hport]
    · simp [hclock]

/-- What `deblock_bus` does, with the levels of the pins at its eighteen waits. -/
structure Deblocked (shift : ℕ) (periph : I2cHandler.Peripheral) (hw hw' : Hardware) :
    Prop where
  sda : seen hw' (pins periph).1 = seen hw (pins periph).1 ++
    List.replicate 18 (driven (pinOf hw.ports (pins periph).1) 1)
  scl : seen hw' (pins periph).2 = seen hw (pins periph).2 ++
    (List.replicate 9 [driven (pinOf hw.ports (pins periph).2) 1,
      driven (pinOf hw.ports (pins periph).2) 0]).flatten
  released : ∀ pin, pin = (pins periph).1 ∨ pin = (pins periph).2 →
    pinOf hw'.ports pin = ⟨2, 1, 3, 1, 4, 1⟩
  others : ∀ pin, pin ≠ (pins periph).1 → pin ≠ (pins periph).2 →
    seen hw' pin = seen hw pin ++ List.replicate 18 (pinOf hw.ports pin) ∧
      pinOf hw'.ports pin = pinOf hw.ports pin
  clocks : ∀ q, Rcc.periphState hw'.rcc q =
    if q ∈ clock periph :: portClocks periph then { Rcc.periphState hw.rcc q with clock := 1#1 }
    else Rcc.periphState hw.rcc q
  irqs : ∀ n : Fin 96, Nvic.irqState (Nvic.binpoint hw.nvic) hw'.nvic n =
    setUp periph ((interrupts periph).1.num + shift) ((interrupts periph).2.num + shift) n
      (Nvic.irqState (Nvic.binpoint hw.nvic) hw.nvic n)
  accesses : hw'.accesses = hw.accesses ++ I2cHandler.deblockBus

def taken (sda scl : Pin) (hw : Hardware) : Hardware :=
  (takeFromPeripheral (takeFromPeripheral hw sda) scl).onPin sda .set

theorem pinOf_taken {sda scl : Pin} (hdistinct : sda ≠ scl) (hw : Hardware) (pin : Pin) :
    pinOf (taken sda scl hw).ports pin =
      if pin = sda then driven (pinOf hw.ports sda) 1
      else if pin = scl then driven (pinOf hw.ports scl) (pinOf hw.ports scl).output
      else pinOf hw.ports pin := by
  rw [taken, pinOf_onPin, pinOf_takeFromPeripheral, pinOf_takeFromPeripheral]
  by_cases hsda : pin = sda
  · subst hsda
    rw [if_pos rfl, if_pos rfl, if_neg hdistinct, if_pos rfl]
    rfl
  · rw [if_neg hsda, if_neg hsda, if_neg hsda]
    by_cases hscl : pin = scl
    · subst hscl
      rw [if_pos rfl, if_pos rfl]
      rfl
    · rw [if_neg hscl, if_neg hscl]

theorem deblockBus_eq (shift : ℕ) (periph : I2cHandler.Peripheral) (hw : Hardware) :
    deblockBus shift periph hw = peripheralInit shift periph
      ((clockPulses 9 (pins periph).2
        (taken (pins periph).1 (pins periph).2 (hw.access reset))).onPin
          (pins periph).2 .set) := rfl

/-- From any state of the board: nine pulses on SCL while SDA is high, then both pins are the
peripheral's, and nothing else has changed; the priorities are those of its two interrupts when
the field `ipr` is in its place. -/
theorem deblockBus_deblocks (shift : ℕ) (periph : I2cHandler.Peripheral) (hw : Hardware) :
    ∃ hw', deblockBus shift periph hw = some hw' ∧ Deblocked shift periph hw hw' := by
  have hdistinct : (pins periph).1 ≠ (pins periph).2 := by cases periph <;> decide
  rw [deblockBus_eq]
  have hstart := pinOf_taken hdistinct (hw.access reset)
  have hpulsed := clockPulses_pulsed 9 (pins periph).2
    (taken (pins periph).1 (pins periph).2 (hw.access reset))
  generalize clockPulses 9 (pins periph).2 _ = pulsed at hpulsed ⊢
  obtain ⟨hw', hinit, hinitialized⟩ :=
    peripheralInit_initialized shift periph (pulsed.onPin (pins periph).2 .set)
  have hseen : ∀ pin, seen hw' pin = seen hw pin ++
      (List.replicate 9 (halves (pins periph).2 pin
        (pinOf (taken (pins periph).1 (pins periph).2 (hw.access reset)).ports pin))).flatten :=
    fun pin => (hinitialized.seen pin).trans (hpulsed.seen pin)
  have hbefore : ∀ pin, pinOf (pulsed.onPin (pins periph).2 .set).ports pin =
      if pin = (pins periph).2 then driven (pinOf hw.ports (pins periph).2) 1
      else if pin = (pins periph).1 then driven (pinOf hw.ports (pins periph).1) 1
      else pinOf hw.ports pin := by
    intro pin
    rw [pinOf_onPin]
    by_cases hscl : pin = (pins periph).2
    · rw [if_pos hscl, if_pos hscl, hscl]
      have hset := hpulsed.scl 1
      rw [hstart, if_neg hdistinct.symm, if_pos rfl] at hset
      exact hset
    · rw [if_neg hscl, if_neg hscl, hpulsed.others pin hscl, hstart, if_neg hscl]
      rfl
  have hrcc : (pulsed.onPin (pins periph).2 .set).rcc = hw.rcc := hpulsed.rcc
  have hnvic : (pulsed.onPin (pins periph).2 .set).nvic = hw.nvic := hpulsed.nvic
  have haccesses : (pulsed.onPin (pins periph).2 .set).accesses = hw.accesses ++ I2cHandler.reset :=
    hpulsed.accesses
  generalize pulsed.onPin (pins periph).2 .set = before at *
  refine ⟨hw', hinit, ?_, ?_, ?_, ?_, ?_, ?_, ?_⟩
  · rw [hseen, hstart, if_pos rfl, halves, if_neg hdistinct]
    rfl
  · rw [hseen, hstart, if_neg hdistinct.symm, if_pos rfl, halves, if_pos rfl]
    rfl
  · intro pin hpin
    rw [hinitialized.pins, if_pos hpin, hbefore]
    rcases hpin with rfl | rfl
    · rw [if_neg hdistinct, if_pos rfl]
      rfl
    · rw [if_pos rfl]
      rfl
  · intro pin hsda hscl
    refine ⟨?_, ?_⟩
    · rw [hseen, hstart, if_neg hsda, if_neg hscl, halves, if_neg hscl]
      rfl
    · rw [hinitialized.pins, if_neg (not_or.mpr ⟨hsda, hscl⟩), hbefore, if_neg hscl,
        if_neg hsda]
  · rw [← hrcc]
    exact hinitialized.clocks
  · rw [← hnvic]
    exact hinitialized.irqs
  · rw [hinitialized.accesses, haccesses, List.append_assoc]
    rfl

end Ratfist.I2cPins
