import Ratfist.BitFields
import Ratfist.Runs
import Mathlib.Tactic.IntervalCases

/-!
The clocks and the interrupts of the F411 (`rust/src/bsp/stm32f411discovery.rs`): the modules
`rcc`, `nvic` and `scb`. Each peripheral has a bit in the registers of its bus, each interrupt
a bit and a byte of its own; how a byte splits into priority and subpriority is set once for
all of them.
-/
namespace Ratfist.Stm32f411

open BitFields

namespace Rcc

inductive Bus
  | ahb1
  | ahb2
  | apb1
  | apb2
deriving DecidableEq, Repr

inductive Peripheral
  | gpioA
  | gpioB
  | gpioC
  | gpioD
  | gpioE
  | gpioH
  | crc
  | dma1
  | dma2
  | otgFs
  | tim2
  | tim3
  | tim4
  | tim5
  | wwdg
  | spi2
  | spi3
  | usart2
  | i2c1
  | i2c2
  | i2c3
  | pwr
  | tim1
  | usart1
  | usart6
  | adc1
  | sdio
  | spi1
  | spi4
  | sysCfg
  | tim9
  | tim10
  | tim11
  | spi5
deriving DecidableEq, Repr

namespace Peripheral

def getBus : Peripheral → Bus
  | gpioA | gpioB | gpioC | gpioD | gpioE | gpioH | crc | dma1 | dma2 => .ahb1
  | otgFs => .ahb2
  | tim2 | tim3 | tim4 | tim5 | wwdg | spi2 | spi3 | usart2 | i2c1 | i2c2 | i2c3 | pwr => .apb1
  | tim1 | usart1 | usart6 | adc1 | sdio | spi1 | spi4 | sysCfg | tim9 | tim10 | tim11
  | spi5 => .apb2

/-- The shifts in the constants of the registers; `1` is `1 << 0`. -/
def bit : Peripheral → ℕ
  | gpioA => 0
  | gpioB => 1
  | gpioC => 2
  | gpioD => 3
  | gpioE => 4
  | gpioH => 7
  | crc => 12
  | dma1 => 21
  | dma2 => 22
  | otgFs => 7
  | tim2 => 0
  | tim3 => 1
  | tim4 => 2
  | tim5 => 3
  | wwdg => 11
  | spi2 => 14
  | spi3 => 15
  | usart2 => 17
  | i2c1 => 21
  | i2c2 => 22
  | i2c3 => 23
  | pwr => 28
  | tim1 => 0
  | usart1 => 4
  | usart6 => 5
  | adc1 => 8
  | sdio => 11
  | spi1 => 12
  | spi4 => 13
  | sysCfg => 14
  | tim9 => 16
  | tim10 => 17
  | tim11 => 18
  | spi5 => 20

def getMask (periph : Peripheral) : BitVec 32 := 1#32 <<< periph.bit

end Peripheral

/-- `struct Rcc`: for each bus the register that enables clocks and the one that resets. -/
structure Registers where
  enr : Bus → BitVec 32
  rstr : Bus → BitVec 32

def enablePeriph (rcc : Registers) (periph : Peripheral) : Registers :=
  let reg := rcc.enr periph.getBus
  { rcc with enr := Function.update rcc.enr periph.getBus (reg ||| periph.getMask) }

def disablePeriph (rcc : Registers) (periph : Peripheral) : Registers :=
  let reg := rcc.enr periph.getBus
  { rcc with enr := Function.update rcc.enr periph.getBus (reg &&& ~~~periph.getMask) }

def assertReset (rcc : Registers) (periph : Peripheral) : Registers :=
  let reg := rcc.rstr periph.getBus
  { rcc with rstr := Function.update rcc.rstr periph.getBus (reg ||| periph.getMask) }

def releaseReset (rcc : Registers) (periph : Peripheral) : Registers :=
  let reg := rcc.rstr periph.getBus
  { rcc with rstr := Function.update rcc.rstr periph.getBus (reg &&& ~~~periph.getMask) }

def resetPeriph (rcc : Registers) (periph : Peripheral) : Registers :=
  releaseReset (assertReset rcc periph) periph

structure PeriphState where
  clock : BitVec 1
  reset : BitVec 1
deriving DecidableEq, Repr

def periphState (rcc : Registers) (periph : Peripheral) : PeriphState where
  clock := field (rcc.enr periph.getBus) periph.bit 1
  reset := field (rcc.rstr periph.getBus) periph.bit 1

inductive Op
  | enable
  | disable
  | reset
deriving DecidableEq, Repr

def Op.apply (op : Op) (periph : Peripheral) (rcc : Registers) : Registers :=
  match op with
  | enable => enablePeriph rcc periph
  | disable => disablePeriph rcc periph
  | reset => resetPeriph rcc periph

def Op.onPeriph (op : Op) (state : PeriphState) : PeriphState :=
  match op with
  | enable => { state with clock := 1#1 }
  | disable => { state with clock := 0#1 }
  | reset => { state with reset := 0#1 }

def Bus.peripheral : Bus → ℕ → Option Peripheral
  | .ahb1, 0 => some .gpioA
  | .ahb1, 1 => some .gpioB
  | .ahb1, 2 => some .gpioC
  | .ahb1, 3 => some .gpioD
  | .ahb1, 4 => some .gpioE
  | .ahb1, 7 => some .gpioH
  | .ahb1, 12 => some .crc
  | .ahb1, 21 => some .dma1
  | .ahb1, 22 => some .dma2
  | .ahb2, 7 => some .otgFs
  | .apb1, 0 => some .tim2
  | .apb1, 1 => some .tim3
  | .apb1, 2 => some .tim4
  | .apb1, 3 => some .tim5
  | .apb1, 11 => some .wwdg
  | .apb1, 14 => some .spi2
  | .apb1, 15 => some .spi3
  | .apb1, 17 => some .usart2
  | .apb1, 21 => some .i2c1
  | .apb1, 22 => some .i2c2
  | .apb1, 23 => some .i2c3
  | .apb1, 28 => some .pwr
  | .apb2, 0 => some .tim1
  | .apb2, 4 => some .usart1
  | .apb2, 5 => some .usart6
  | .apb2, 8 => some .adc1
  | .apb2, 11 => some .sdio
  | .apb2, 12 => some .spi1
  | .apb2, 13 => some .spi4
  | .apb2, 14 => some .sysCfg
  | .apb2, 16 => some .tim9
  | .apb2, 17 => some .tim10
  | .apb2, 18 => some .tim11
  | .apb2, 20 => some .spi5
  | _, _ => none

theorem peripheral_bit (periph : Peripheral) :
    periph.getBus.peripheral periph.bit = some periph := by
  cases periph <;> rfl

/-- No two peripherals share a bit. -/
theorem bit_injective {p q : Peripheral} (hbus : p.getBus = q.getBus) (hbit : p.bit = q.bit) :
    p = q := by
  have hp := peripheral_bit p
  rw [hbus, hbit, peripheral_bit q] at hp
  exact (Option.some.inj hp).symm

theorem bit_lt (periph : Peripheral) : periph.bit < 32 := by
  cases periph <;> decide

/-- A bit of the register of a bus is replaced, and read for another peripheral. -/
theorem field_update (regs : Bus → BitVec 32) (p q : Peripheral) (bit : BitVec 1) :
    field (Function.update regs p.getBus (replace (regs p.getBus) p.bit bit) q.getBus) q.bit 1 =
      if q = p then bit else field (regs q.getBus) q.bit 1 := by
  by_cases hsame : q = p
  · rw [hsame, Function.update_self, if_pos rfl, field_replace_self _ _ (bit_lt p)]
  · rw [if_neg hsame]
    by_cases hbus : q.getBus = p.getBus
    · have hbit : q.bit ≠ p.bit := fun hbit => hsame (bit_injective hbus hbit)
      rw [hbus, Function.update_self, field_replace_beside _ _ (bit_lt p) (by omega)]
    · rw [Function.update_of_ne hbus]

theorem periphState_assertReset (rcc : Registers) (p q : Peripheral) :
    periphState (assertReset rcc p) q =
      if q = p then { periphState rcc q with reset := 1#1 } else periphState rcc q := by
  have hfield := field_update rcc.rstr p q 1#1
  rw [← or_bit] at hfield
  simp only [periphState, assertReset, Peripheral.getMask, hfield]
  split_ifs <;> rfl

theorem periphState_releaseReset (rcc : Registers) (p q : Peripheral) :
    periphState (releaseReset rcc p) q =
      if q = p then { periphState rcc q with reset := 0#1 } else periphState rcc q := by
  have hfield := field_update rcc.rstr p q 0#1
  rw [← and_not_bit] at hfield
  simp only [periphState, releaseReset, Peripheral.getMask, hfield]
  split_ifs <;> rfl

theorem periphState_apply (op : Op) (rcc : Registers) (p q : Peripheral) :
    periphState (op.apply p rcc) q =
      if q = p then op.onPeriph (periphState rcc q) else periphState rcc q := by
  cases op with
  | enable =>
    have hfield := field_update rcc.enr p q 1#1
    rw [← or_bit] at hfield
    simp only [periphState, Op.apply, enablePeriph, Peripheral.getMask, hfield]
    split_ifs <;> rfl
  | disable =>
    have hfield := field_update rcc.enr p q 0#1
    rw [← and_not_bit] at hfield
    simp only [periphState, Op.apply, disablePeriph, Peripheral.getMask, hfield]
    split_ifs <;> rfl
  | reset =>
    rw [Op.apply, resetPeriph, periphState_releaseReset, periphState_assertReset]
    split_ifs <;> rfl

def run (ops : List (Peripheral × Op)) (rcc : Registers) : Registers :=
  ops.foldl (fun rcc op => op.2.apply op.1 rcc) rcc

def onPeriph (ops : List (Peripheral × Op)) (periph : Peripheral) : List Op :=
  (ops.filter fun op => op.1 = periph).map Prod.snd

/-- From any settings, each peripheral gets what the operations on it are for. -/
theorem peripherals_refined (ops : List (Peripheral × Op)) (rcc : Registers) (periph : Peripheral) :
    periphState (run ops rcc) periph =
      (onPeriph ops periph).foldl (fun state op => op.onPeriph state) (periphState rcc periph) :=
  Runs.foldl_part (fun op p rcc q => periphState_apply op rcc p q) ops rcc periph

end Rcc

namespace Scb

/-- The bits of `SCB_AIRCR_PRIGROUP` that the constants have. -/
inductive ItPriorityGrouping
  | sixteenNone
  | eightTwo
  | fourFour
  | twoFour
  | noneSixteen
deriving DecidableEq, Repr

def ItPriorityGrouping.bits : ItPriorityGrouping → BitVec 3
  | sixteenNone => 0b000
  | eightTwo => 0b100
  | fourFour => 0b101
  | twoFour => 0b110
  | noneSixteen => 0b111

/-- A write to AIRCR counts only with the key; the key reads as something else. -/
def writeAircr (aircr word : BitVec 32) : BitVec 32 :=
  if word &&& 0xffff0000#32 = 0x05fa0000 then 0xfa050000 ||| (word &&& 0xffff) else aircr

def setPriorityGrouping (aircr : BitVec 32) (grouping : ItPriorityGrouping) : BitVec 32 :=
  writeAircr aircr
    ((aircr &&& ~~~0xffff0000#32) ||| 0x05fa0000 ||| (grouping.bits.setWidth 32 <<< 8))

/-- The `transmute`, of a value with the bit 2 set. -/
def ItPriorityGrouping.ofBits (val : BitVec 32) : ItPriorityGrouping :=
  if val = 0b100 then eightTwo
  else if val = 0b101 then fourFour
  else if val = 0b110 then twoFour
  else noneSixteen

def getPriorityGrouping (aircr : BitVec 32) : ItPriorityGrouping :=
  let val := (aircr &&& 0x00000700) >>> 8
  if val &&& 0b100 = 0 then .sixteenNone else .ofBits val

end Scb

namespace Nvic

open Scb

inductive Interrupt
  | wwdg
  | exti16Pvd
  | exti21TampStamp
  | exti22RtcWkup
  | flash
  | rcc
  | exti0
  | exti1
  | exti2
  | exti3
  | exti4
  | dma1Stream0
  | dma1Stream1
  | dma1Stream2
  | dma1Stream3
  | dma1Stream4
  | dma1Stream5
  | dma1Stream6
  | adc
  | exti9_5
  | tim1BrkTim9
  | tim1UpTim10
  | tim1TrgComTim11
  | tim1Cc
  | tim2
  | tim3
  | tim4
  | i2c1Ev
  | i2c1Er
  | i2c2Ev
  | i2c2Er
  | spi1
  | spi2
  | usart1
  | usart2
  | exti15_10
  | exti17RtcAlarm
  | exti18OtgFsWkup
  | dma1Stream7
  | sdio
  | tim5
  | spi3
  | dma2Stream0
  | dma2Stream1
  | dma2Stream2
  | dma2Stream3
  | dma2Stream4
  | otgFs
  | dma2Stream5
  | dma2Stream6
  | dma2Stream7
  | usart6
  | i2c3Ev
  | i2c3Er
  | fpu
  | spi4
  | spi5
deriving DecidableEq, Repr

def Interrupt.num : Interrupt → ℕ
  | wwdg => 0
  | exti16Pvd => 1
  | exti21TampStamp => 2
  | exti22RtcWkup => 3
  | flash => 4
  | rcc => 5
  | exti0 => 6
  | exti1 => 7
  | exti2 => 8
  | exti3 => 9
  | exti4 => 10
  | dma1Stream0 => 11
  | dma1Stream1 => 12
  | dma1Stream2 => 13
  | dma1Stream3 => 14
  | dma1Stream4 => 15
  | dma1Stream5 => 16
  | dma1Stream6 => 17
  | adc => 18
  | exti9_5 => 23
  | tim1BrkTim9 => 24
  | tim1UpTim10 => 25
  | tim1TrgComTim11 => 26
  | tim1Cc => 27
  | tim2 => 28
  | tim3 => 29
  | tim4 => 30
  | i2c1Ev => 31
  | i2c1Er => 32
  | i2c2Ev => 33
  | i2c2Er => 34
  | spi1 => 35
  | spi2 => 36
  | usart1 => 37
  | usart2 => 38
  | exti15_10 => 40
  | exti17RtcAlarm => 41
  | exti18OtgFsWkup => 42
  | dma1Stream7 => 47
  | sdio => 49
  | tim5 => 50
  | spi3 => 51
  | dma2Stream0 => 56
  | dma2Stream1 => 57
  | dma2Stream2 => 58
  | dma2Stream3 => 59
  | dma2Stream4 => 60
  | otgFs => 67
  | dma2Stream5 => 68
  | dma2Stream6 => 69
  | dma2Stream7 => 70
  | usart6 => 71
  | i2c3Ev => 72
  | i2c3Er => 73
  | fpu => 81
  | spi4 => 84
  | spi5 => 85

/-- The registers of the controller, and AIRCR. ISER and ICER are one set of bits, which a one in
a write sets or clears; the priority register of an interrupt is the byte `ipr` of its number. -/
structure Registers where
  enabled : Fin 3 → BitVec 32
  ipr : ℕ → BitVec 8
  aircr : BitVec 32

theorem Interrupt.num_lt (int : Interrupt) : int.num / 32 < 3 := by
  cases int <;> decide

def enableInterrupt (nvic : Registers) (int : Interrupt) : Registers :=
  let regNo : Fin 3 := ⟨int.num / 32, int.num_lt⟩
  let offset := int.num % 32
  { nvic with
    enabled := Function.update nvic.enabled regNo (nvic.enabled regNo ||| (1#32 <<< offset)) }

def disableInterrupt (nvic : Registers) (int : Interrupt) : Registers :=
  let regNo : Fin 3 := ⟨int.num / 32, int.num_lt⟩
  let offset := int.num % 32
  { nvic with
    enabled := Function.update nvic.enabled regNo (nvic.enabled regNo &&& ~~~(1#32 <<< offset)) }

def getPrioGroupingBinpointOffset : ItPriorityGrouping → ℕ
  | .sixteenNone => 0
  | .eightTwo => 1
  | .fourFour => 2
  | .twoFour => 3
  | .noneSixteen => 4

/-- `modify` of an entry of the field `ipr`; `none` is the panic when there is no such entry.
`struct Nvic` is not `repr(C)`, so the place of the field is the compiler's choice: it lies
`shift` bytes behind the one that the order of declaration gives it, four when `_stir` comes
before it. The fields ahead of it are taken to be at theirs. -/
def modifyIpr (shift : ℕ) (nvic : Registers) (int : Interrupt) (f : BitVec 8 → BitVec 8) :
    Option Registers :=
  if int.num < 81 then
    let reg := int.num + shift
    some { nvic with ipr := Function.update nvic.ipr reg (f (nvic.ipr reg)) }
  else none

def setPriority (shift : ℕ) (nvic : Registers) (int : Interrupt) (prio : BitVec 8) :
    Option Registers :=
  let bpOffset := getPrioGroupingBinpointOffset (getPriorityGrouping nvic.aircr)
  let prioMask := 0xff#8 <<< bpOffset <<< 4
  modifyIpr shift nvic int fun curr => (curr &&& ~~~prioMask) ||| (prio <<< bpOffset <<< 4)

def setSubpriority (shift : ℕ) (nvic : Registers) (int : Interrupt) (subprio : BitVec 8) :
    Option Registers :=
  let bpOffset := getPrioGroupingBinpointOffset (getPriorityGrouping nvic.aircr)
  let prioMask := 0xff#8 <<< bpOffset <<< 4
  let subprioShiftedMasked := (subprio <<< 4) &&& ~~~prioMask
  modifyIpr shift nvic int fun curr => (curr &&& prioMask) ||| subprioShiftedMasked

inductive Op
  | enable
  | disable
  | setPriority (prio : BitVec 8)
  | setSubpriority (subprio : BitVec 8)
deriving DecidableEq, Repr

inductive Call
  | setPriorityGrouping (grouping : ItPriorityGrouping)
  | interrupt (int : Interrupt) (op : Op)
deriving DecidableEq, Repr

def Op.apply (shift : ℕ) (op : Op) (int : Interrupt) (nvic : Registers) : Option Registers :=
  match op with
  | enable => some (enableInterrupt nvic int)
  | disable => some (disableInterrupt nvic int)
  | setPriority prio => Nvic.setPriority shift nvic int prio
  | setSubpriority subprio => Nvic.setSubpriority shift nvic int subprio

def call (shift : ℕ) : Call → Registers → Option Registers
  | .setPriorityGrouping grouping, nvic =>
    some { nvic with aircr := setPriorityGrouping nvic.aircr grouping }
  | .interrupt int op, nvic => op.apply shift int nvic

/-- One interrupt, when the binary point has the offset `b`. -/
structure IrqState (b : ℕ) where
  enabled : BitVec 1
  priority : BitVec (4 - b)
  subpriority : BitVec b
deriving DecidableEq, Repr

def irqState (b : ℕ) (nvic : Registers) (n : Fin 96) : IrqState b where
  enabled := field (nvic.enabled ⟨n / 32, by omega⟩) (n % 32) 1
  priority := field (nvic.ipr n) (4 + b) (4 - b)
  subpriority := field (nvic.ipr n) 4 b

def Op.onIrq {b : ℕ} (op : Op) (irq : IrqState b) : IrqState b :=
  match op with
  | enable => { irq with enabled := 1#1 }
  | disable => { irq with enabled := 0#1 }
  | setPriority prio => { irq with priority := prio.setWidth (4 - b) }
  | setSubpriority subprio => { irq with subpriority := subprio.setWidth b }

def Op.target (shift : ℕ) (int : Interrupt) : Op → ℕ
  | enable | disable => int.num
  | setPriority _ | setSubpriority _ => int.num + shift

def binpoint (nvic : Registers) : ℕ :=
  getPrioGroupingBinpointOffset (getPriorityGrouping nvic.aircr)

theorem binpoint_le (nvic : Registers) : binpoint nvic ≤ 4 := by
  unfold binpoint
  cases getPriorityGrouping nvic.aircr <;> decide

section Bytes

variable {b : ℕ} (hb : b ≤ 4) (curr v : BitVec 8)

include hb

theorem prioMask_eq : 0xff#8 <<< b <<< 4 = ones 8 (4 + b) (4 - b) := by
  interval_cases b <;> decide

theorem prioMask_priority {i : ℕ} (hi : i < 4 - b) :
    (0xff#8 <<< b <<< 4).getLsbD (4 + b + i) = true := by
  rw [prioMask_eq hb, getLsbD_ones, decide_eq_true_eq]
  omega

theorem prioMask_subpriority {i : ℕ} (hi : i < b) :
    (0xff#8 <<< b <<< 4).getLsbD (4 + i) = false := by
  rw [prioMask_eq hb, getLsbD_ones, decide_eq_false_iff_not]
  omega

theorem priority_setPriority :
    field ((curr &&& ~~~(0xff#8 <<< b <<< 4)) ||| (v <<< b <<< 4)) (4 + b) (4 - b) =
      v.setWidth (4 - b) := by
  refine BitVec.eq_of_getLsbD_eq fun i hi => ?_
  have hshift : (v <<< b <<< 4).getLsbD (4 + b + i) = v.getLsbD i := by
    have hin : 4 + b + i < 8 := by omega
    have hup : ¬ 4 + b + i < b + 4 := by omega
    have hback : 4 + b + i - (b + 4) = i := by omega
    rw [← BitVec.shiftLeft_add, BitVec.getLsbD_shiftLeft, hback, decide_eq_true hin,
      decide_eq_false hup]
    rfl
  rw [field, BitVec.getLsbD_extractLsb', BitVec.getLsbD_or, BitVec.getLsbD_and,
    BitVec.getLsbD_not, prioMask_priority hb hi, hshift, BitVec.getLsbD_setWidth]
  simp [hi]

theorem subpriority_setPriority :
    field ((curr &&& ~~~(0xff#8 <<< b <<< 4)) ||| (v <<< b <<< 4)) 4 b = field curr 4 b := by
  refine BitVec.eq_of_getLsbD_eq fun i hi => ?_
  have hin : 4 + i < 8 := by omega
  have hshift : (v <<< b <<< 4).getLsbD (4 + i) = false := by
    have hlow : 4 + i < b + 4 := by omega
    rw [← BitVec.shiftLeft_add, BitVec.getLsbD_shiftLeft, decide_eq_true hlow, Bool.not_true,
      Bool.and_false, Bool.false_and]
  rw [field, field, BitVec.getLsbD_extractLsb', BitVec.getLsbD_extractLsb', BitVec.getLsbD_or,
    BitVec.getLsbD_and, BitVec.getLsbD_not, prioMask_subpriority hb hi, hshift]
  simp [hi, hin]

theorem priority_setSubpriority :
    field ((curr &&& (0xff#8 <<< b <<< 4)) ||| ((v <<< 4) &&& ~~~(0xff#8 <<< b <<< 4)))
      (4 + b) (4 - b) = field curr (4 + b) (4 - b) := by
  refine BitVec.eq_of_getLsbD_eq fun i hi => ?_
  rw [field, field, BitVec.getLsbD_extractLsb', BitVec.getLsbD_extractLsb', BitVec.getLsbD_or,
    BitVec.getLsbD_and, BitVec.getLsbD_and, BitVec.getLsbD_not, prioMask_priority hb hi]
  simp [hi]

theorem subpriority_setSubpriority :
    field ((curr &&& (0xff#8 <<< b <<< 4)) ||| ((v <<< 4) &&& ~~~(0xff#8 <<< b <<< 4))) 4 b =
      v.setWidth b := by
  refine BitVec.eq_of_getLsbD_eq fun i hi => ?_
  have hin : 4 + i < 8 := by omega
  rw [field, BitVec.getLsbD_extractLsb', BitVec.getLsbD_or, BitVec.getLsbD_and,
    BitVec.getLsbD_and, BitVec.getLsbD_not, prioMask_subpriority hb hi, BitVec.getLsbD_shiftLeft,
    BitVec.getLsbD_setWidth]
  simp [hi, hin]

end Bytes

section Irqs

variable {shift : ℕ} {nvic nvic' : Registers} {int : Interrupt} {n : Fin 96}

theorem field_enabled (regs : Fin 3 → BitVec 32) (bit : BitVec 1) (k l : ℕ) (hk : k / 32 < 3)
    (hl : l / 32 < 3) :
    field (Function.update regs ⟨k / 32, hk⟩ (replace (regs ⟨k / 32, hk⟩) (k % 32) bit)
      ⟨l / 32, hl⟩) (l % 32) 1 = if l = k then bit else field (regs ⟨l / 32, hl⟩) (l % 32) 1 := by
  by_cases hsame : l = k
  · subst hsame
    rw [Function.update_self, if_pos rfl, field_replace_self _ _ (by omega)]
  · rw [if_neg hsame]
    by_cases hreg : l / 32 = k / 32
    · have hfin : (⟨l / 32, hl⟩ : Fin 3) = ⟨k / 32, hk⟩ := Fin.ext hreg
      rw [hfin, Function.update_self, field_replace_beside _ _ (by omega) (by omega)]
    · rw [Function.update_of_ne (fun h => hreg (Fin.val_inj.mpr h))]

/-- What a change of a byte does to the interrupts. -/
theorem irqState_modifyIpr {b : ℕ} {f : BitVec 8 → BitVec 8}
    (h : modifyIpr shift nvic int f = some nvic') :
    irqState b nvic' n =
      if n.val = int.num + shift then
        { irqState b nvic n with
          priority := field (f (nvic.ipr n)) (4 + b) (4 - b)
          subpriority := field (f (nvic.ipr n)) 4 b }
      else irqState b nvic n := by
  obtain ⟨-, hnvic⟩ := Option.ite_none_right_eq_some.mp h
  cases hnvic
  by_cases hsame : n.val = int.num + shift
  · rw [if_pos hsame, ← hsame]
    simp only [irqState, Function.update_self]
  · rw [if_neg hsame]
    simp only [irqState, Function.update_of_ne hsame]

/-- An operation does to its interrupt what it is for, under the grouping in force. -/
theorem irqState_apply {b : ℕ} (hb : binpoint nvic = b) {op : Op}
    (h : op.apply shift int nvic = some nvic') :
    irqState b nvic' n =
      if n.val = op.target shift int then op.onIrq (irqState b nvic n)
      else irqState b nvic n := by
  have hle : b ≤ 4 := hb ▸ binpoint_le nvic
  cases op with
  | enable =>
    cases h
    have hfield := field_enabled nvic.enabled 1#1 int.num n int.num_lt (by omega)
    rw [← or_bit] at hfield
    rw [Op.target]
    simp only [irqState, enableInterrupt, hfield]
    split_ifs <;> rfl
  | disable =>
    cases h
    have hfield := field_enabled nvic.enabled 0#1 int.num n int.num_lt (by omega)
    rw [← and_not_bit] at hfield
    rw [Op.target]
    simp only [irqState, disableInterrupt, hfield]
    split_ifs <;> rfl
  | setPriority prio =>
    simp only [Op.apply, setPriority] at h
    rw [binpoint] at hb
    rw [irqState_modifyIpr h, Op.target]
    simp only [hb, priority_setPriority hle, subpriority_setPriority hle]
    split_ifs <;> rfl
  | setSubpriority subprio =>
    simp only [Op.apply, setSubpriority] at h
    rw [binpoint] at hb
    rw [irqState_modifyIpr h, Op.target]
    simp only [hb, priority_setSubpriority hle, subpriority_setSubpriority hle]
    split_ifs <;> rfl

/-- Nothing but `set_priority_grouping` touches AIRCR. -/
theorem aircr_apply {op : Op} (h : op.apply shift int nvic = some nvic') :
    nvic'.aircr = nvic.aircr := by
  have hmodify {f : BitVec 8 → BitVec 8} (h : modifyIpr shift nvic int f = some nvic') :
      nvic'.aircr = nvic.aircr := by
    obtain ⟨-, hnvic⟩ := Option.ite_none_right_eq_some.mp h
    cases hnvic
    rfl
  cases op with
  | enable =>
    cases h
    rfl
  | disable =>
    cases h
    rfl
  | setPriority prio =>
    simp only [Op.apply, setPriority] at h
    exact hmodify h
  | setSubpriority subprio =>
    simp only [Op.apply, setSubpriority] at h
    exact hmodify h

/-- The grouping's bits are added to those that are there. -/
theorem prigroup_setPriorityGrouping (aircr : BitVec 32) (grouping : ItPriorityGrouping) :
    field (setPriorityGrouping aircr grouping) 8 3 = field aircr 8 3 ||| grouping.bits := by
  have hkey : ((aircr &&& ~~~0xffff0000#32) ||| 0x05fa0000 |||
      (grouping.bits.setWidth 32 <<< 8)) &&& 0xffff0000#32 = 0x05fa0000 := by
    have hbits : (grouping.bits.setWidth 32 <<< 8) &&& 0xffff0000#32 = 0 := by
      cases grouping <;> decide
    have hold : (aircr &&& ~~~0xffff0000#32) &&& 0xffff0000#32 = 0 := by
      rw [BitVec.and_assoc]
      simp
    rw [BitVec.and_or_distrib_right, BitVec.and_or_distrib_right, hold, hbits]
    decide
  rw [setPriorityGrouping, writeAircr, if_pos hkey]
  refine BitVec.eq_of_getLsbD_eq fun i hi => ?_
  interval_cases i <;> cases grouping <;>
    simp [field, ItPriorityGrouping.bits]

/-- What is read back from the bits of the grouping: none of those without the highest one. -/
theorem getPriorityGrouping_bits (aircr : BitVec 32) :
    (getPriorityGrouping aircr).bits =
      if field aircr 8 3 < 4 then 0 else field aircr 8 3 := by
  have hval : (aircr &&& 0x00000700) >>> 8 = (field aircr 8 3).setWidth 32 := by
    refine BitVec.eq_of_getLsbD_eq fun i hi => ?_
    interval_cases i <;> simp [field]
  rw [getPriorityGrouping]
  simp only [hval]
  generalize field aircr 8 3 = bits
  revert bits
  decide

end Irqs

def groupings (calls : List Call) : List ItPriorityGrouping :=
  calls.filterMap fun
    | .setPriorityGrouping grouping => some grouping
    | .interrupt _ _ => none

def onIrq (shift : ℕ) (calls : List Call) (n : ℕ) : List Op :=
  calls.filterMap fun
    | .setPriorityGrouping _ => none
    | .interrupt int op => if n = op.target shift int then some op else none

theorem foldl_onIrq_cons (shift : ℕ) (int : Interrupt) (op : Op) (calls : List Call) (n : ℕ)
    {b : ℕ} (irq : IrqState b) :
    (onIrq shift (.interrupt int op :: calls) n).foldl (fun irq op => op.onIrq irq) irq =
      (onIrq shift calls n).foldl (fun irq op => op.onIrq irq)
        (if n = op.target shift int then op.onIrq irq else irq) := by
  by_cases hsame : n = op.target shift int <;> simp [onIrq, hsame]

/-- An interrupt is set up. -/
theorem foldl_onIrq_setUp (shift : ℕ) (int : Interrupt) (prio subprio : BitVec 8)
    (calls : List Call) (n : ℕ) {b : ℕ} (irq : IrqState b) :
    (onIrq shift (.interrupt int .enable :: .interrupt int (.setPriority prio) ::
      .interrupt int (.setSubpriority subprio) :: calls) n).foldl
        (fun irq op => op.onIrq irq) irq =
      (onIrq shift calls n).foldl (fun irq op => op.onIrq irq)
        { enabled := if n = int.num then 1#1 else irq.enabled
          priority := if n = int.num + shift then prio.setWidth _ else irq.priority
          subpriority := if n = int.num + shift then subprio.setWidth _ else irq.subpriority } := by
  have henable : Op.enable.target shift int = int.num := rfl
  have hprio : (Op.setPriority prio).target shift int = int.num + shift := rfl
  have hsubprio : (Op.setSubpriority subprio).target shift int = int.num + shift := rfl
  rw [foldl_onIrq_cons, foldl_onIrq_cons, foldl_onIrq_cons, henable, hprio, hsubprio]
  congr 1
  by_cases hnum : n = int.num <;> by_cases hreg : n = int.num + shift
  · simp only [if_pos hnum, if_pos hreg]
    rfl
  · simp only [if_pos hnum, if_neg hreg]
    rfl
  · simp only [if_neg hnum, if_pos hreg]
    rfl
  · simp only [if_neg hnum, if_neg hreg]

def calledFor (calls : List Call) (n : ℕ) : List Op :=
  calls.filterMap fun
    | .setPriorityGrouping _ => none
    | .interrupt int op => if n = int.num then some op else none

theorem onIrq_declared (calls : List Call) (n : ℕ) : onIrq 0 calls n = calledFor calls n := by
  refine congrArg (fun f => calls.filterMap f) (funext fun c => ?_)
  cases c with
  | setPriorityGrouping grouping => rfl
  | interrupt int op => cases op <;> rfl

/-- While no grouping is set, each interrupt gets what the operations are for. -/
theorem irqs_of_run {shift : ℕ} {calls : List Call} {nvic nvic' : Registers}
    (hnone : groupings calls = []) (h : Runs.runs (call shift) calls nvic = some nvic')
    (n : Fin 96) :
    irqState (binpoint nvic) nvic' n =
      (onIrq shift calls n).foldl (fun irq op => op.onIrq irq)
        (irqState (binpoint nvic) nvic n) := by
  induction calls generalizing nvic with
  | nil =>
    cases h
    rfl
  | cons c calls ih =>
    obtain ⟨m, hm, hrest⟩ := Runs.runs_cons h
    cases c with
    | setPriorityGrouping grouping => simp [groupings] at hnone
    | interrupt int op =>
      have hbinpoint : binpoint m = binpoint nvic := by rw [binpoint, aircr_apply hm, binpoint]
      have hlater := ih hnone hrest
      rw [hbinpoint] at hlater
      rw [hlater, irqState_apply rfl hm, foldl_onIrq_cons]

/-- The bits of all groupings add up. -/
theorem prigroup_of_run {shift : ℕ} {calls : List Call} {nvic nvic' : Registers}
    (h : Runs.runs (call shift) calls nvic = some nvic') :
    field nvic'.aircr 8 3 =
      (groupings calls).foldl (fun bits grouping => bits ||| grouping.bits)
        (field nvic.aircr 8 3) := by
  induction calls generalizing nvic with
  | nil =>
    cases h
    rfl
  | cons c calls ih =>
    obtain ⟨m, hm, hrest⟩ := Runs.runs_cons h
    rw [ih hrest]
    cases c with
    | setPriorityGrouping grouping =>
      cases hm
      rw [prigroup_setPriorityGrouping]
      rfl
    | interrupt int op =>
      rw [aircr_apply hm]
      rfl

/-- From any settings and wherever the field is: what the calls make of the grouping, and of each
interrupt; with the field in its place, each interrupt gets the calls for it and no others. -/
theorem interrupts_refined (shift : ℕ) (calls : List Call) (nvic nvic' : Registers)
    (h : Runs.runs (call shift) calls nvic = some nvic') :
    field nvic'.aircr 8 3 =
      (groupings calls).foldl (fun bits grouping => bits ||| grouping.bits)
        (field nvic.aircr 8 3) ∧
    ((getPriorityGrouping nvic'.aircr).bits =
      if field nvic'.aircr 8 3 < 4 then 0 else field nvic'.aircr 8 3) ∧
    (groupings calls = [] → ∀ n : Fin 96, irqState (binpoint nvic) nvic' n =
      (onIrq shift calls n).foldl (fun irq op => op.onIrq irq)
        (irqState (binpoint nvic) nvic n)) ∧
    (shift = 0 → ∀ n, onIrq shift calls n = calledFor calls n) :=
  ⟨prigroup_of_run h, getPriorityGrouping_bits _, fun hnone n => irqs_of_run hnone h n,
    fun hshift n => hshift ▸ onIrq_declared calls n⟩

/-- After `board_specific_init` the priorities of an interrupt have three bits and one; it is
then set up as `peripheral_init` of the I2C driver does it. With `_stir` before the field the
priorities of the event interrupt go to `spi1`. -/
theorem i2c_interrupt_priorities : ∃ nvic' nvic'',
    Runs.runs (call 0)
      [.interrupt .i2c1Ev .enable, .interrupt .i2c1Ev (.setPriority 1),
        .interrupt .i2c1Ev (.setSubpriority 1)]
      ⟨fun _ => 0, fun _ => 0, setPriorityGrouping 0xfa050000 .eightTwo⟩ = some nvic' ∧
    irqState 1 nvic' 31 = ⟨1, 1, 1⟩ ∧
    Runs.runs (call 4)
      [.interrupt .i2c1Ev .enable, .interrupt .i2c1Ev (.setPriority 1),
        .interrupt .i2c1Ev (.setSubpriority 1)]
      ⟨fun _ => 0, fun _ => 0, setPriorityGrouping 0xfa050000 .eightTwo⟩ = some nvic'' ∧
    irqState 1 nvic'' 31 = ⟨1, 0, 0⟩ ∧ irqState 1 nvic'' 35 = ⟨0, 1, 1⟩ := by
  obtain ⟨nvic', h⟩ : ∃ nvic', Runs.runs (call 0)
      [.interrupt .i2c1Ev .enable, .interrupt .i2c1Ev (.setPriority 1),
        .interrupt .i2c1Ev (.setSubpriority 1)]
      ⟨fun _ => 0, fun _ => 0, setPriorityGrouping 0xfa050000 .eightTwo⟩ = some nvic' := ⟨_, rfl⟩
  obtain ⟨nvic'', h'⟩ : ∃ nvic'', Runs.runs (call 4)
      [.interrupt .i2c1Ev .enable, .interrupt .i2c1Ev (.setPriority 1),
        .interrupt .i2c1Ev (.setSubpriority 1)]
      ⟨fun _ => 0, fun _ => 0, setPriorityGrouping 0xfa050000 .eightTwo⟩ = some nvic'' := ⟨_, rfl⟩
  exact ⟨nvic', nvic'', h, (interrupts_refined 0 _ _ nvic' h).2.2.1 rfl 31, h',
    (interrupts_refined 4 _ _ nvic'' h').2.2.1 rfl 31,
    (interrupts_refined 4 _ _ nvic'' h').2.2.1 rfl 35⟩

end Nvic

end Ratfist.Stm32f411
