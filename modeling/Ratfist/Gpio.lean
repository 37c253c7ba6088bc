import Ratfist.BitFields
import Ratfist.Runs

/-!
The pins of a port (`rust/src/bsp/gpio.rs`). A port keeps the settings of its sixteen pins in
shared registers, and each operation on a pin replaces the fields of that pin. Seen pin by pin
it changes only what it is for.
-/
namespace Ratfist.Gpio

open BitFields

/-- `struct PortRegs`; `bsrr` is written only, and acts on `odr`. -/
structure PortRegs where
  moder : BitVec 32
  otyper : BitVec 32
  ospeedr : BitVec 32
  pupdr : BitVec 32
  idr : BitVec 32
  odr : BitVec 32
  afrl : BitVec 32
  afrh : BitVec 32
deriving DecidableEq, Repr

inductive OutputType
  | pushPull
  | openDrain
deriving DecidableEq, Repr

def OutputType.bits : OutputType → BitVec 1
  | pushPull => 0
  | openDrain => 1

inductive OutputSpeed
  | low
  | medium
  | fast
  | high
deriving DecidableEq, Repr

def OutputSpeed.bits : OutputSpeed → BitVec 2
  | low => 0
  | medium => 1
  | fast => 2
  | high => 3

inductive PullUpDown
  | none
  | pullUp
  | pullDown
deriving DecidableEq, Repr

def PullUpDown.bits : PullUpDown → BitVec 2
  | none => 0
  | pullUp => 1
  | pullDown => 2

/-- `AltFuncNum` has the constants from 0 to 15. -/
inductive Mode
  | input
  | output (outputType : OutputType) (outputSpeed : OutputSpeed)
  | alternateFunction (altFunc : BitVec 4) (outputType : OutputType) (outputSpeed : OutputSpeed)
  | analog
deriving DecidableEq, Repr

def Mode.bits : Mode → BitVec 2
  | input => 0
  | output _ _ => 1
  | alternateFunction _ _ _ => 2
  | analog => 3

/-- A write to BSRR: the lower half sets bits of `odr`, the upper half resets them. -/
def writeBsrr (odr word : BitVec 32) : BitVec 32 :=
  (odr &&& ~~~(word >>> 16)) ||| (word &&& 0xffff)

section Pin

variable (port : PortRegs) (pinNum : Fin 16)

def setOutputType (otype : OutputType) : PortRegs :=
  let mask := 1#32 <<< pinNum.val
  let newType := otype.bits.setWidth 32 <<< pinNum.val
  { port with otyper := (port.otyper &&& ~~~mask) ||| newType }

def setOutputSpeed (ospeed : OutputSpeed) : PortRegs :=
  let mask := 0x3#32 <<< (2 * pinNum.val)
  let newSpeed := ospeed.bits.setWidth 32 <<< (2 * pinNum.val)
  { port with ospeedr := (port.ospeedr &&& ~~~mask) ||| newSpeed }

def setAlternateFunction (af : BitVec 4) : PortRegs :=
  let modify (curr : BitVec 32) : BitVec 32 :=
    let offset := pinNum.val % 8 * 4
    let mask := 0xf#32 <<< offset
    let newAfNum := af.setWidth 32 <<< offset
    (curr &&& ~~~mask) ||| newAfNum
  if pinNum.val < 8 then { port with afrl := modify port.afrl }
  else { port with afrh := modify port.afrh }

def setMode (mode : Mode) : PortRegs :=
  let mask := 0x3#32 <<< (2 * pinNum.val)
  let newMode := mode.bits.setWidth 32 <<< (2 * pinNum.val)
  let port := { port with moder := (port.moder &&& ~~~mask) ||| newMode }
  match mode with
  | .output otype ospeed => setOutputSpeed (setOutputType port pinNum otype) pinNum ospeed
  | .alternateFunction afNum otype ospeed =>
    setOutputSpeed (setOutputType (setAlternateFunction port pinNum afNum) pinNum otype) pinNum
      ospeed
  | _ => port

def setPullupPulldownMode (mode : PullUpDown) : PortRegs :=
  let mask := 0x3#32 <<< (2 * pinNum.val)
  let newType := mode.bits.setWidth 32 <<< (2 * pinNum.val)
  { port with pupdr := (port.pupdr &&& ~~~mask) ||| newType }

def read : Bool := port.idr &&& (1#32 <<< pinNum.val) ≠ 0

def set : PortRegs := { port with odr := writeBsrr port.odr (1#32 <<< pinNum.val) }

def reset : PortRegs := { port with odr := writeBsrr port.odr (0x00010000#32 <<< pinNum.val) }

def toggle : PortRegs :=
  if port.odr &&& (1#32 <<< pinNum.val) ≠ 0 then reset port pinNum else set port pinNum

end Pin

structure PinState where
  mode : BitVec 2
  outputType : BitVec 1
  outputSpeed : BitVec 2
  pull : BitVec 2
  altFunc : BitVec 4
  output : BitVec 1
deriving DecidableEq, Repr

def pinState (port : PortRegs) (pinNum : Fin 16) : PinState where
  mode := field port.moder (2 * pinNum) 2
  outputType := field port.otyper (1 * pinNum) 1
  outputSpeed := field port.ospeedr (2 * pinNum) 2
  pull := field port.pupdr (2 * pinNum) 2
  altFunc := field (if pinNum.val < 8 then port.afrl else port.afrh) (4 * (pinNum % 8)) 4
  output := field port.odr (1 * pinNum) 1

inductive Op
  | setMode (mode : Mode)
  | setPullupPulldownMode (mode : PullUpDown)
  | set
  | reset
  | toggle
deriving DecidableEq, Repr

def Op.apply (op : Op) (pinNum : Fin 16) (port : PortRegs) : PortRegs :=
  match op with
  | setMode mode => Gpio.setMode port pinNum mode
  | setPullupPulldownMode mode => Gpio.setPullupPulldownMode port pinNum mode
  | set => Gpio.set port pinNum
  | reset => Gpio.reset port pinNum
  | toggle => Gpio.toggle port pinNum

def Op.onPin (op : Op) (pin : PinState) : PinState :=
  match op with
  | setMode .input => { pin with mode := Mode.input.bits }
  | setMode (.output otype ospeed) =>
    { pin with
      mode := (Mode.output otype ospeed).bits
      outputType := otype.bits
      outputSpeed := ospeed.bits }
  | setMode (.alternateFunction af otype ospeed) =>
    { pin with
      mode := (Mode.alternateFunction af otype ospeed).bits
      altFunc := af
      outputType := otype.bits
      outputSpeed := ospeed.bits }
  | setMode .analog => { pin with mode := Mode.analog.bits }
  | setPullupPulldownMode mode => { pin with pull := mode.bits }
  | set => { pin with output := 1 }
  | reset => { pin with output := 0 }
  | toggle => { pin with output := ~~~pin.output }

/-! The updates of the source replace fields. -/

theorem update_one (r : BitVec 32) (k : ℕ) (v : BitVec 1) :
    (r &&& ~~~(1#32 <<< k)) ||| v.setWidth 32 <<< k = replace r (1 * k) v := by
  rw [Nat.one_mul]
  rfl

theorem update_two (r : BitVec 32) (k : ℕ) (v : BitVec 2) :
    (r &&& ~~~(0x3#32 <<< (2 * k))) ||| v.setWidth 32 <<< (2 * k) = replace r (2 * k) v := rfl

theorem update_four (r : BitVec 32) (k : ℕ) (v : BitVec 4) :
    (r &&& ~~~(0xf#32 <<< (k * 4))) ||| v.setWidth 32 <<< (k * 4) = replace r (4 * k) v := by
  rw [Nat.mul_comm]
  rfl

/-- BSRR sets one bit or resets it. -/
theorem writeBsrr_set (r : BitVec 32) (k : Fin 16) :
    writeBsrr r (1#32 <<< k.val) = replace r (1 * k) (1 : BitVec 1) := by
  have hupper : (1#32 <<< k.val) >>> 16 = 0#32 := by
    revert k
    decide
  have hlower : (1#32 <<< k.val) &&& 0xffff = 1#32 <<< k.val := by
    revert k
    decide
  rw [writeBsrr, hupper, hlower, BitVec.not_zero, BitVec.and_allOnes, or_bit r,
    Nat.one_mul]
  rfl

theorem writeBsrr_reset (r : BitVec 32) (k : Fin 16) :
    writeBsrr r (0x00010000#32 <<< k.val) = replace r (1 * k) (0 : BitVec 1) := by
  have hupper : (0x00010000#32 <<< k.val) >>> 16 = 1#32 <<< k.val := by
    revert k
    decide
  have hlower : (0x00010000#32 <<< k.val) &&& 0xffff = 0#32 := by
    revert k
    decide
  rw [writeBsrr, hupper, hlower, BitVec.or_zero, and_not_bit r, Nat.one_mul]
  rfl

section Slots

variable (r : BitVec 32) (k l : Fin 16)

theorem field_one (v : BitVec 1) :
    field (replace r (1 * k) v) (1 * l) 1 = if l = k then v else field r (1 * l) 1 := by
  simpa only [Fin.val_inj] using field_replace_slot (k := k.val) (l := l.val) r v (by omega)

theorem field_two (v : BitVec 2) :
    field (replace r (2 * k) v) (2 * l) 2 = if l = k then v else field r (2 * l) 2 := by
  simpa only [Fin.val_inj] using field_replace_slot (k := k.val) (l := l.val) r v (by omega)

end Slots

section Pins

variable (port : PortRegs) (k l : Fin 16)

theorem pinState_setOutputType (otype : OutputType) :
    pinState (setOutputType port k otype) l =
      if l = k then { pinState port l with outputType := otype.bits } else pinState port l := by
  have hfield := field_one port.otyper k l otype.bits
  simp only [pinState, setOutputType, update_one, hfield]
  split_ifs <;> rfl

theorem pinState_setOutputSpeed (ospeed : OutputSpeed) :
    pinState (setOutputSpeed port k ospeed) l =
      if l = k then { pinState port l with outputSpeed := ospeed.bits } else pinState port l := by
  have hfield := field_two port.ospeedr k l ospeed.bits
  simp only [pinState, setOutputSpeed, update_two, hfield]
  split_ifs <;> rfl

theorem pinState_setPullupPulldownMode (mode : PullUpDown) :
    pinState (setPullupPulldownMode port k mode) l =
      if l = k then { pinState port l with pull := mode.bits } else pinState port l := by
  have hfield := field_two port.pupdr k l mode.bits
  simp only [pinState, setPullupPulldownMode, update_two, hfield]
  split_ifs <;> rfl

/-- The two registers of the alternate functions have eight pins each. -/
theorem pinState_setAlternateFunction (af : BitVec 4) :
    pinState (setAlternateFunction port k af) l =
      if l = k then { pinState port l with altFunc := af } else pinState port l := by
  have hslot (r : BitVec 32) : field (replace r (4 * (k.val % 8)) af) (4 * (l.val % 8)) 4 =
      if l.val % 8 = k.val % 8 then af else field r (4 * (l.val % 8)) 4 :=
    field_replace_slot r af (by omega)
  unfold setAlternateFunction
  simp only [update_four]
  by_cases hk : k.val < 8
  · by_cases hl : l.val < 8
    · have hsame : l.val % 8 = k.val % 8 ↔ l = k := by
        rw [← Fin.val_inj]
        omega
      simp only [pinState, if_pos hk, if_pos hl, hslot, hsame]
      split_ifs <;> rfl
    · have hne : l ≠ k := fun h => hl (h ▸ hk)
      simp only [pinState, if_pos hk, if_neg hl, if_neg hne]
  · by_cases hl : l.val < 8
    · have hne : l ≠ k := fun h => hk (h ▸ hl)
      simp only [pinState, if_neg hk, if_pos hl, if_neg hne]
    · have hsame : l.val % 8 = k.val % 8 ↔ l = k := by
        rw [← Fin.val_inj]
        omega
      simp only [pinState, if_neg hk, if_neg hl, hslot, hsame]
      split_ifs <;> rfl

theorem pinState_output (bit : BitVec 1) :
    pinState { port with odr := replace port.odr (1 * k) bit } l =
      if l = k then { pinState port l with output := bit } else pinState port l := by
  have hfield := field_one port.odr k l bit
  simp only [pinState, hfield]
  split_ifs <;> rfl

theorem pinState_toggle : pinState (toggle port k) l =
    if l = k then { pinState port l with output := ~~~(pinState port l).output }
    else pinState port l := by
  have hbit := and_bit_ne_zero_iff port.odr (k := k.val) (by omega)
  have houtput : (pinState port k).output = field port.odr k 1 := by rw [pinState, Nat.one_mul]
  rw [← houtput] at hbit
  unfold toggle
  by_cases hset : port.odr &&& (1#32 <<< k.val) ≠ 0
  · rw [if_pos hset, reset, writeBsrr_reset, pinState_output]
    split_ifs with hsame
    · rw [hsame, hbit.mp hset]
      rfl
    · rfl
  · rw [if_neg hset, set, writeBsrr_set, pinState_output]
    split_ifs with hsame
    · have hzero : (pinState port k).output = 0 := by
        have hnot := mt hbit.mpr hset
        revert hnot
        generalize (pinState port k).output = bit
        revert bit
        decide
      rw [hsame, hzero]
      rfl
    · rfl

/-- An operation on a pin does to it what it is for, and nothing to the others. -/
theorem pinState_apply (op : Op) :
    pinState (op.apply k port) l =
      if l = k then op.onPin (pinState port l) else pinState port l := by
  cases op with
  | setMode mode =>
    have hmoder := field_two port.moder k l mode.bits
    have hmode : pinState { port with moder := replace port.moder (2 * k) mode.bits } l =
        if l = k then { pinState port l with mode := mode.bits } else pinState port l := by
      simp only [pinState, hmoder]
      split_ifs <;> rfl
    cases mode with
    | input => exact hmode
    | analog => exact hmode
    | output otype ospeed =>
      rw [Op.apply, Gpio.setMode, pinState_setOutputSpeed, pinState_setOutputType]
      simp only [update_two, hmode]
      split_ifs <;> rfl
    | alternateFunction af otype ospeed =>
      rw [Op.apply, Gpio.setMode, pinState_setOutputSpeed, pinState_setOutputType,
        pinState_setAlternateFunction]
      simp only [update_two, hmode]
      split_ifs <;> rfl
  | setPullupPulldownMode mode => exact pinState_setPullupPulldownMode port k l mode
  | set =>
    rw [Op.apply, set, writeBsrr_set]
    exact pinState_output port k l 1
  | reset =>
    rw [Op.apply, reset, writeBsrr_reset]
    exact pinState_output port k l 0
  | toggle => exact pinState_toggle port k l

end Pins

def run (ops : List (Fin 16 × Op)) (port : PortRegs) : PortRegs :=
  ops.foldl (fun port op => op.2.apply op.1 port) port

def onPin (ops : List (Fin 16 × Op)) (pinNum : Fin 16) : List Op :=
  (ops.filter fun op => op.1 = pinNum).map Prod.snd

/-- From any settings, any operations on all pins make of each pin what those on it make. -/
theorem pins_refined (ops : List (Fin 16 × Op)) (port : PortRegs) (pinNum : Fin 16) :
    pinState (run ops port) pinNum =
      (onPin ops pinNum).foldl (fun pin op => op.onPin pin) (pinState port pinNum) :=
  Runs.foldl_part (fun op k port l => pinState_apply port k l op) ops port pinNum

end Ratfist.Gpio
