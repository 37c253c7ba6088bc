import Ratfist.I2cHandler
import Ratfist.Runs
import Mathlib.Data.List.Forall2

/-!
What a transaction puts on the bus. Each step of it is a START, the address with the
direction and the bytes of the step's buffer; one STOP ends the whole. The handler
follows this plan through every order of interrupts and whatever they find in SR1 and
DR, and it stays inside the steps and their buffers.
-/
namespace Ratfist.I2cTransaction

open I2cHandler CheckedArray

inductive BusEvent
  | start
  | stop
  | write (byte : UInt8)
  | read (byte : UInt8)
deriving DecidableEq, Repr

def control (bits : UInt32) : Option BusEvent :=
  if bits &&& cr1Start != 0 then some .start
  else if bits &&& cr1Stop != 0 then some .stop
  else none

/-- When `reset` restores CR1, START and STOP have been cleared before it was saved. -/
def busEvent : RegOp → Option BusEvent
  | .modify .cr1 _ set => control set
  | .write .cr1 value => control value
  | .write .dr value => some (.write value.toUInt8)
  | .read .dr value => some (.read value.toUInt8)
  | _ => none

def busEvents (ops : List RegOp) : List BusEvent := ops.filterMap busEvent

@[simp] theorem busEvents_nil : busEvents [] = [] := rfl

@[simp] theorem busEvents_cons (op : RegOp) (ops : List RegOp) :
    busEvents (op :: ops) = (busEvent op).toList ++ busEvents ops := by
  unfold busEvents
  cases h : busEvent op <;> simp [h]

@[simp] theorem busEvents_append (ops ops' : List RegOp) :
    busEvents (ops ++ ops') = busEvents ops ++ busEvents ops' := List.filterMap_append

@[simp] theorem busEvent_sendStart : busEvent sendStart = some .start := by decide
@[simp] theorem busEvent_sendStop : busEvent sendStop = some .stop := by decide
@[simp] theorem busEvent_enableAck : busEvent enableAck = none := by decide
@[simp] theorem busEvent_disableAck : busEvent disableAck = none := by decide
@[simp] theorem busEvent_enableBuffer : busEvent enableBufferInterrupts = none := rfl
@[simp] theorem busEvent_disableBuffer : busEvent disableBufferInterrupts = none := rfl
@[simp] theorem busEvents_clearAddrFlag (io : Status) : busEvents io.clearAddrFlag = [] := rfl
@[simp] theorem busEvents_reset : busEvents reset = [] := by decide

@[simp] theorem busEvent_disableAckAfterNextByte :
    busEvent disableAckAfterNextByte = none := by decide

@[simp] theorem busEvent_read (value : UInt32) :
    busEvent (.read .dr value) = some (.read value.toUInt8) := rfl

@[simp] theorem busEvent_sendData (byte : UInt8) :
    busEvent (sendData byte) = some (.write byte) := by
  simp [busEvent, sendData]

def dir : Step → CommDir
  | .read _ => .read
  | .write _ => .write

@[simp] theorem dir_read (data : List UInt8) : dir (.read data) = .read := rfl
@[simp] theorem dir_write (data : List UInt8) : dir (.write data) = .write := rfl

def address (addr : UInt8) (d : CommDir) : BusEvent := .write ((addr <<< 1) ||| d.bit)

def dataEvents : Step → List BusEvent
  | .read data => data.map .read
  | .write data => data.map .write

def stepEvents (addr : UInt8) (step : Step) : List BusEvent :=
  .start :: address addr (dir step) :: dataEvents step

def planEvents (addr : UInt8) (steps : List Step) : List BusEvent :=
  steps.flatMap (stepEvents addr)

/-- The handler fills the buffers of reading steps and leaves the others as they are. -/
def SameShape : Step → Step → Prop
  | .read data, .read data' => data'.length = data.length
  | .write data, .write data' => data' = data
  | _, _ => False

/-- The plan with one STOP, which comes after the address of the last step. -/
def Complete (addr : UInt8) (steps : List Step) (events : List BusEvent) : Prop :=
  ∃ pre post, events = pre ++ .stop :: post ∧ pre ++ post = planEvents addr steps ∧
    ∃ earlier last, steps = earlier ++ [last] ∧
      planEvents addr earlier ++ [.start, address addr (dir last)] <+: pre

/-- What has been on the bus when the handler is in a state, at step `k`. -/
inductive Tracks (addr : UInt8) (steps : List Step) (k : ℕ) :
    PeripheralState → List BusEvent → Prop
  | startBitSet (step : Step) (at_step : steps[k]? = some step) :
      Tracks addr steps k .startBitSet (planEvents addr (steps.take k) ++ [.start])
  | addressSent (step : Step) (at_step : steps[k]? = some step) :
      Tracks addr steps k .addressSent
        (planEvents addr (steps.take k) ++ [.start, address addr (dir step)])
  | transmitting (data : List UInt8) (pos : ℕ) (at_step : steps[k]? = some (.write data))
      (inside : pos ≤ data.length) :
      Tracks addr steps k (.transmitting pos)
        (planEvents addr (steps.take k) ++
          .start :: address addr .write :: (data.take pos).map .write)
  | receiving (data : List UInt8) (pos : ℕ) (at_step : steps[k]? = some (.read data))
      (inside : pos + 2 ≤ data.length ∨ pos = 0 ∧ data.length = 1) :
      Tracks addr steps k (.receiving pos)
        (planEvents addr (steps.take k) ++
          .start :: address addr .read :: (data.take pos).map .read)
  | finished (events : List BusEvent) (complete : Complete addr steps events) :
      Tracks addr steps k (.done 0) events
  | failed (events : List BusEvent) (retVal : ℤ) (nonzero : retVal ≠ 0) :
      Tracks addr steps k (.done retVal) events

theorem planEvents_append (addr : UInt8) (steps steps' : List Step) :
    planEvents addr (steps ++ steps') = planEvents addr steps ++ planEvents addr steps' :=
  List.flatMap_append

theorem planEvents_take_succ {addr : UInt8} {steps : List Step} {k : ℕ} {step : Step}
    (h : steps[k]? = some step) :
    planEvents addr (steps.take (k + 1)) =
      planEvents addr (steps.take k) ++ stepEvents addr step := by
  obtain ⟨hk, rfl⟩ := List.getElem?_eq_some_iff.mp h
  rw [List.take_succ_eq_append_getElem hk, planEvents_append]
  simp [planEvents]

theorem eq_append_last {steps : List Step} {k : ℕ} {step : Step} (h : steps[k]? = some step)
    (hlast : onLastStep k steps = true) : steps = steps.take k ++ [step] := by
  obtain ⟨hk, rfl⟩ := List.getElem?_eq_some_iff.mp h
  have hlen : steps.length ≤ k + 1 := by simpa [onLastStep] using hlast
  rw [← List.take_succ_eq_append_getElem hk, List.take_of_length_le hlen]

/-- The STOP may come before the last bytes of the step. -/
theorem complete_of_last (addr : UInt8) {steps : List Step} {k : ℕ} {step : Step}
    {sent rest : List BusEvent} (h : steps[k]? = some step)
    (hlast : onLastStep k steps = true) (hdata : sent ++ rest = dataEvents step) :
    Complete addr steps (planEvents addr (steps.take k) ++
      (.start :: address addr (dir step) :: sent) ++ .stop :: rest) := by
  have hsteps := eq_append_last h hlast
  refine ⟨_, rest, rfl, ?_, steps.take k, step, hsteps, ?_⟩
  · conv_rhs => rw [hsteps, planEvents_append]
    simp [planEvents, stepEvents, ← hdata]
  · exact ⟨sent, by simp⟩

theorem next_step (addr : UInt8) {steps : List Step} {k : ℕ} {step : Step}
    (h : steps[k]? = some step) (hlast : onLastStep k steps = false) :
    Tracks addr steps (k + 1) .startBitSet
      (planEvents addr (steps.take k) ++ stepEvents addr step ++ [.start]) := by
  have hk : k + 1 < steps.length := by simpa [onLastStep] using hlast
  rw [← planEvents_take_succ h]
  exact .startBitSet steps[k + 1] (List.getElem?_eq_getElem hk)

/-! What the handler does in each state. -/

theorem sameShape_refl (step : Step) : SameShape step step := by
  cases step <;> rfl

instance : Std.Refl SameShape := ⟨sameShape_refl⟩

theorem sameShape_set {steps : List Step} {k : ℕ} {data : List UInt8}
    (h : steps[k]? = some (.read data)) (data' : List UInt8) (hlen : data'.length = data.length) :
    List.Forall₂ SameShape steps (steps.set k (.read data')) := by
  induction steps generalizing k with
  | nil => simp at h
  | cons step rest ih =>
    cases k with
    | zero =>
      cases h
      exact .cons hlen (List.forall₂_refl _)
    | succ k => exact .cons (sameShape_refl step) (ih h)

def Follows (addr : UInt8) (steps : List Step) (events : List BusEvent) (p : Progress) : Prop :=
  Tracks addr p.steps p.currStep p.state (events ++ busEvents p.ops) ∧
    List.Forall₂ SameShape steps p.steps

section Handler

variable {io : Status} {addr : UInt8} {k : ℕ} {steps : List Step} {events : List BusEvent}

theorem Follows.same {state : PeripheralState} (h : Tracks addr steps k state events)
    {ops : List RegOp} (hops : busEvents ops = []) :
    Follows addr steps events ⟨state, k, steps, ops⟩ := by
  refine ⟨?_, List.forall₂_refl _⟩
  rw [hops, List.append_nil]
  exact h

theorem onStartBitSet_follows {step : Step} (hstep : steps[k]? = some step) :
    ∃ p, onStartBitSet io addr k steps = some p ∧
      Follows addr steps (planEvents addr (steps.take k) ++ [.start]) p := by
  unfold onStartBitSet
  by_cases hsb : io.isSbSet = true
  · refine ⟨⟨.addressSent, k, steps, [sendAddr addr (dir step)]⟩, ?_, ?_, ?_⟩
    · cases step <;> simp [hsb, hstep, dir]
    · have h : Tracks addr steps k _ _ := .addressSent step hstep
      simpa [sendAddr, address] using h
    · exact List.forall₂_refl _
  · exact ⟨⟨.startBitSet, k, steps, []⟩, by simp [hsb], .same (.startBitSet step hstep) rfl⟩

theorem onAddressSent_follows {step : Step} (hstep : steps[k]? = some step)
    (hlen : 0 < step.len) :
    ∃ p, onAddressSent io k steps = some p ∧
      Follows addr steps
        (planEvents addr (steps.take k) ++ [.start, address addr (dir step)]) p := by
  unfold onAddressSent
  by_cases haddr : io.isAddrSet = true
  · cases step with
    | read data =>
      have hlen : 0 < data.length := hlen
      refine ⟨_, by simp only [haddr, hstep]; rfl, ?_, List.forall₂_refl _⟩
      have h : Tracks addr steps k _ _ := .receiving data 0 hstep (by omega)
      split_ifs <;> simpa [stepEvents, dataEvents] using h
    | write data =>
      obtain ⟨first, rest, rfl⟩ := List.exists_cons_of_length_pos hlen
      refine ⟨_, by simp only [haddr, hstep]; rfl, ?_, List.forall₂_refl _⟩
      have h : Tracks addr steps k _ _ := .transmitting (first :: rest) 1 hstep (by simp)
      split_ifs <;> simpa [stepEvents, dataEvents] using h
  · exact ⟨⟨.addressSent, k, steps, []⟩, by simp [haddr], .same (.addressSent step hstep) rfl⟩

theorem onTransmitting_follows {data : List UInt8} {pos : ℕ}
    (hstep : steps[k]? = some (.write data)) (hpos : pos ≤ data.length) :
    ∃ p, onTransmitting io k steps pos = some p ∧
      Follows addr steps
        (planEvents addr (steps.take k) ++
          .start :: address addr .write :: (data.take pos).map .write) p := by
  unfold onTransmitting
  simp only [hstep, Option.bind_eq_bind, Option.bind_some]
  split_ifs with hwait hend hlast
  · exact ⟨_, rfl, .same (.transmitting data pos hstep hpos) rfl⟩
  · have hall : data.take pos = data := List.take_of_length_le hend
    refine ⟨_, rfl, .finished _ ?_, List.forall₂_refl _⟩
    have h := complete_of_last addr hstep hlast (List.append_nil _)
    simpa [hall, stepEvents, dataEvents] using h
  · have hall : data.take pos = data := List.take_of_length_le hend
    refine ⟨_, rfl, ?_, List.forall₂_refl _⟩
    have h := next_step addr hstep (Bool.eq_false_iff.mpr hlast)
    simpa [hall, stepEvents, dataEvents] using h
  · have hlt : pos < data.length := Nat.not_le.mp hend
    have hbyte : (Step.write data).asRef[pos]? = some data[pos] := List.getElem?_eq_getElem hlt
    refine ⟨_, by rw [hbyte]; rfl, ?_, List.forall₂_refl _⟩
    have h : Tracks addr steps k _ _ := .transmitting data (pos + 1) hstep hlt
    rw [List.take_succ_eq_append_getElem hlt, List.map_append] at h
    simpa using h

end Handler

/-! Bytes that the handler reads go to the front of the buffer. -/

section Store

variable {steps : List Step} {k : ℕ} {data : List UInt8}

theorem storeByte_read (h : steps[k]? = some (.read data)) {pos : ℕ} (hpos : pos < data.length)
    (byte : UInt8) :
    storeByte k steps pos byte = some (steps.set k (.read (data.set pos byte))) := by
  simp [storeByte, h, Step.setByte, hpos]

theorem get_set {step : Step} (h : steps[k]? = some step) (step' : Step) :
    (steps.set k step')[k]? = some step' := by
  obtain ⟨hk, -⟩ := List.getElem?_eq_some_iff.mp h
  exact List.getElem?_set_self hk

theorem take_set (step : Step) : (steps.set k step).take k = steps.take k :=
  List.take_set_of_le (Nat.le_refl k)

theorem onLastStep_set (step : Step) : onLastStep k (steps.set k step) = onLastStep k steps := by
  simp [onLastStep]

theorem take_succ_set {pos : ℕ} (hpos : pos < data.length) (byte : UInt8) :
    (data.set pos byte).take (pos + 1) = data.take pos ++ [byte] := by
  rw [List.take_succ_eq_append_getElem (by simpa using hpos), List.take_set_of_le (Nat.le_refl pos)]
  simp

theorem set_last_two {pos : ℕ} (hpos : pos + 2 = data.length) (byte byte' : UInt8) :
    (data.set pos byte).set (pos + 1) byte' = data.take pos ++ [byte, byte'] := by
  have hlen : (data.set pos byte).length = pos + 2 := by rw [List.length_set, hpos]
  have hall := List.take_of_length_le (l := (data.set pos byte).set (pos + 1) byte') (i := pos + 2)
    (Nat.le_of_eq (by rw [List.length_set, hlen]))
  rw [← hall, take_succ_set (by omega), take_succ_set (by omega)]
  simp

/-- The last step ends: the STOP may come before its last bytes are read. -/
theorem read_done (addr : UInt8) {sent rest : List BusEvent} (h : steps[k]? = some (.read data))
    (hlast : onLastStep k steps = true) (data' : List UInt8)
    (hdata : sent ++ rest = data'.map .read) :
    Tracks addr (steps.set k (.read data')) k (.done 0)
      (planEvents addr (steps.take k) ++ (.start :: address addr .read :: sent) ++
        .stop :: rest) := by
  have h' := get_set h (.read data')
  have hdone := complete_of_last addr h' (by rw [onLastStep_set, hlast]) hdata
  rw [take_set] at hdone
  exact .finished _ hdone

theorem read_next (addr : UInt8) (h : steps[k]? = some (.read data))
    (hlast : ¬ onLastStep k steps = true) (data' : List UInt8) :
    Tracks addr (steps.set k (.read data')) (k + 1) .startBitSet
      (planEvents addr (steps.take k) ++ stepEvents addr (.read data') ++ [.start]) := by
  have h' := get_set h (.read data')
  have hnext := next_step addr h' (by rwa [onLastStep_set, Bool.eq_false_iff])
  rwa [take_set] at hnext

end Store

section Receive

variable {io : Status} {addr : UInt8} {k : ℕ} {steps : List Step} {data : List UInt8} {pos : ℕ}

def received (addr : UInt8) (k : ℕ) (steps : List Step) (bytes : List UInt8) : List BusEvent :=
  planEvents addr (steps.take k) ++ .start :: address addr .read :: bytes.map .read

/-- A step of one byte. -/
theorem onReceiving_only (hstep : steps[k]? = some (.read data)) (hlen : data.length = 1) :
    ∃ p, onReceiving io k steps 0 = some p ∧ Follows addr steps (received addr k steps []) p := by
  have hlast : sub (Step.read data).len 1 = some 0 := by
    simp [sub, Step.len, Step.asRef, hlen]
  have hfull : data.set 0 io.dr.toUInt8 = [io.dr.toUInt8] := by
    obtain ⟨byte, rfl⟩ := List.length_eq_one_iff.mp hlen
    rfl
  have hstore := storeByte_read hstep (by omega : 0 < data.length) io.dr.toUInt8
  have hshape := sameShape_set hstep (data.set 0 io.dr.toUInt8) (List.length_set ..)
  unfold onReceiving
  simp only [hstep, hlast, Option.bind_eq_bind, Option.bind_some, if_true]
  by_cases hrxne : io.isRxneSet = true
  · simp only [hrxne, hstore, Option.bind_some, Bool.not_true, Bool.false_eq_true, if_false,
      onLastStep_set]
    rw [hfull] at hshape ⊢
    split_ifs with hl
    · refine ⟨_, rfl, ?_, hshape⟩
      have h := read_done addr hstep hl [io.dr.toUInt8] (List.append_nil _)
      simpa [received] using h
    · refine ⟨_, rfl, ?_, hshape⟩
      have h := read_next addr hstep hl [io.dr.toUInt8]
      simpa [received, stepEvents, dataEvents] using h
  · have h : Tracks addr steps k _ _ := .receiving data 0 hstep (Or.inr ⟨rfl, hlen⟩)
    exact ⟨_, by simp [hrxne]; rfl, .same h rfl⟩

/-- The last two bytes of a step, which are read together. -/
theorem onReceiving_last_two (hstep : steps[k]? = some (.read data))
    (hlen : pos + 2 = data.length) :
    ∃ p, onReceiving io k steps pos = some p ∧
      Follows addr steps (received addr k steps (data.take pos)) p := by
  have hlast : sub (Step.read data).len 1 = some (pos + 1) := by
    simp [sub, Step.len, Step.asRef, ← hlen]
  have hlastButOne : sub (Step.read data).len 2 = some pos := by
    simp [sub, Step.len, Step.asRef, ← hlen]
  have hne : pos ≠ pos + 1 := by omega
  have hstore := storeByte_read hstep (by omega : pos < data.length) io.dr.toUInt8
  have hstore' := storeByte_read (get_set hstep (.read (data.set pos io.dr.toUInt8)))
    (by simp; omega : pos + 1 < (data.set pos io.dr.toUInt8).length) io.drNext.toUInt8
  rw [List.set_set, set_last_two hlen] at hstore'
  have hshape := sameShape_set hstep (data.take pos ++ [io.dr.toUInt8, io.drNext.toUInt8])
    (by simp; omega)
  unfold onReceiving
  simp only [hstep, hlast, hlastButOne, Option.bind_eq_bind, Option.bind_some, if_neg hne, if_true]
  have hack : busEvents (if io.isRxneSet = true then [disableAck] else []) = [] := by
    split_ifs <;> simp
  generalize (if io.isRxneSet = true then [disableAck] else []) = ack at hack ⊢
  by_cases hbtf : io.isBtfSet = true
  · simp only [hbtf, hstore, hstore', Option.bind_some, Bool.not_true, Bool.false_eq_true,
      if_false, onLastStep_set]
    split_ifs with hl
    · refine ⟨_, rfl, ?_, hshape⟩
      have h := read_done addr hstep hl (data.take pos ++ [io.dr.toUInt8, io.drNext.toUInt8])
        List.map_append.symm
      simpa [received, hack] using h
    · refine ⟨_, rfl, ?_, hshape⟩
      have h := read_next addr hstep hl (data.take pos ++ [io.dr.toUInt8, io.drNext.toUInt8])
      simpa [received, stepEvents, dataEvents, hack] using h
  · have h : Tracks addr steps k _ _ := .receiving data pos hstep (Or.inl (Nat.le_of_eq hlen))
    exact ⟨_, by simp only [hbtf]; rfl, .same h hack⟩

/-- Any byte before the last two. -/
theorem onReceiving_earlier (hstep : steps[k]? = some (.read data))
    (hlen : pos + 3 ≤ data.length) :
    ∃ p, onReceiving io k steps pos = some p ∧
      Follows addr steps (received addr k steps (data.take pos)) p := by
  have hlast : sub (Step.read data).len 1 = some (data.length - 1) :=
    sub_of_le (by simp [Step.len, Step.asRef]; omega)
  have hlastButOne : sub (Step.read data).len 2 = some (data.length - 2) :=
    sub_of_le (by simp [Step.len, Step.asRef]; omega)
  have hne : pos ≠ data.length - 1 := by omega
  have hne' : pos ≠ data.length - 2 := by omega
  have hstore := storeByte_read hstep (by omega : pos < data.length) io.dr.toUInt8
  unfold onReceiving
  simp only [hstep, hlast, hlastButOne, Option.bind_eq_bind, Option.bind_some, if_neg hne,
    if_neg hne']
  by_cases hrxne : io.isRxneSet = true
  · simp only [hrxne, hstore, Option.bind_some, Bool.not_true, Bool.false_eq_true, if_false]
    refine ⟨_, rfl, ?_, sameShape_set hstep _ (List.length_set ..)⟩
    have h : Tracks addr _ k _ _ := .receiving _ (pos + 1)
      (get_set hstep (.read (data.set pos io.dr.toUInt8)))
      (Or.inl (by rw [List.length_set]; omega))
    rw [take_set, take_succ_set (by omega)] at h
    simpa [received] using h
  · have h : Tracks addr steps k _ _ := .receiving data pos hstep (Or.inl (by omega))
    exact ⟨_, by simp [hrxne]; rfl, .same h rfl⟩

end Receive

theorem onReceiving_follows {io : Status} {addr : UInt8} {k : ℕ} {steps : List Step}
    {data : List UInt8} {pos : ℕ} (hstep : steps[k]? = some (.read data))
    (hpos : pos + 2 ≤ data.length ∨ pos = 0 ∧ data.length = 1) :
    ∃ p, onReceiving io k steps pos = some p ∧
      Follows addr steps (received addr k steps (data.take pos)) p := by
  rcases hpos with hpos | ⟨rfl, hlen⟩
  · rcases Nat.lt_or_eq_of_le hpos with hmore | hlen
    · exact onReceiving_earlier hstep hmore
    · exact onReceiving_last_two hstep hlen
  · exact onReceiving_only hstep hlen

theorem onEvent_follows (io : Status) {addr : UInt8} {k : ℕ} {steps : List Step}
    {state : PeripheralState} {events : List BusEvent}
    (hlen : ∀ step ∈ steps, 0 < step.len) (h : Tracks addr steps k state events) :
    ∃ p, onEvent io addr k steps state = some p ∧ Follows addr steps events p := by
  cases h with
  | startBitSet step hstep => exact onStartBitSet_follows hstep
  | addressSent step hstep =>
    exact onAddressSent_follows hstep (hlen step (List.mem_of_getElem? hstep))
  | transmitting data pos hstep hpos => exact onTransmitting_follows hstep hpos
  | receiving data pos hstep hpos => exact onReceiving_follows hstep hpos
  | finished events hdone => exact ⟨_, rfl, .same (.finished events hdone) rfl⟩
  | failed events retVal hne => exact ⟨_, rfl, .same (.failed events retVal hne) rfl⟩

/-! `run_transaction` with the interrupts that arrive while it waits. -/

inductive Tick
  | event (io : Status)
  | error
  | poll
deriving DecidableEq, Repr

variable {ρ : Type}

/-- The outcome is `none` while the call is inside its loop. -/
def tick [DecidableEq ρ] :
    Tick → Bus ρ × Option (Except Unit Unit) → Option (Bus ρ × Option (Except Unit Unit))
  | _, (bus, some outcome) => some (bus, some outcome)
  | .event io, (bus, none) => (interruptHandler io bus).map (·, none)
  | .error, (bus, none) => some (interruptErrorHandler bus, none)
  | .poll, (bus, none) => some (pollTransaction bus)

def runTransaction [DecidableEq ρ] (steps : ρ) (deviceAddr : UInt8) (ticks : List Tick)
    (bus : Bus ρ) : Option (Bus ρ × Option (Except Unit Unit)) :=
  Runs.runs tick ticks (startTransaction steps deviceAddr bus)

/-- While the call waits, its transaction is on its way; when it has returned Ok, the
transaction is complete. -/
def OnItsWay (before : Bus ρ) (r : ρ) (addr : UInt8) :
    Bus ρ × Option (Except Unit Unit) → Prop
  | (bus, none) =>
    ∃ k ops, bus.ctx.currentTransaction = some ⟨r, k, addr⟩ ∧ bus.trace = before.trace ++ ops ∧
      Tracks addr (bus.steps r) k bus.ctx.state (busEvents ops) ∧
      List.Forall₂ SameShape (before.steps r) (bus.steps r)
  | (bus, some (.ok ())) =>
    ∃ ops, bus.trace = before.trace ++ ops ∧ Complete addr (bus.steps r) (busEvents ops) ∧
      List.Forall₂ SameShape (before.steps r) (bus.steps r)
  | (_, some (.error ())) => True

theorem SameShape.trans {step step' step'' : Step} (h : SameShape step step')
    (h' : SameShape step' step'') : SameShape step step'' := by
  cases step <;> cases step' <;> cases step'' <;> simp_all [SameShape]

theorem SameShape.len {step step' : Step} (h : SameShape step step') : step'.len = step.len := by
  cases step <;> cases step' <;> simp_all [SameShape, Step.len, Step.asRef]

theorem sameShapes_trans {steps steps' steps'' : List Step}
    (h : List.Forall₂ SameShape steps steps') (h' : List.Forall₂ SameShape steps' steps'') :
    List.Forall₂ SameShape steps steps'' := by
  induction h generalizing steps'' with
  | nil => exact h'
  | cons hstep _ ih =>
    cases h' with
    | cons hstep' h' => exact .cons (hstep.trans hstep') (ih h')

theorem sameShapes_len {steps steps' : List Step} (h : List.Forall₂ SameShape steps steps')
    (hlen : ∀ step ∈ steps, 0 < step.len) : ∀ step ∈ steps', 0 < step.len := by
  induction h with
  | nil => exact hlen
  | cons hstep _ ih =>
    rw [List.forall_mem_cons] at hlen ⊢
    exact ⟨hstep.len ▸ hlen.1, ih hlen.2⟩

section Call

variable {before : Bus ρ} {r : ρ} {addr : UInt8}

theorem onItsWay_start (hne : before.steps r ≠ []) :
    OnItsWay before r addr (startTransaction r addr before) := by
  unfold startTransaction
  split_ifs
  · trivial
  · trivial
  · refine ⟨0, reset ++ [sendStart], rfl, by simp, ?_, List.forall₂_refl _⟩
    obtain ⟨step, rest, hsteps⟩ := List.exists_cons_of_ne_nil hne
    have h : Tracks addr (before.steps r) 0 _ _ := .startBitSet step (by rw [hsteps]; rfl)
    simpa [planEvents] using h

/-- Step lemma: the call is never stopped by a panic. -/
theorem onItsWay_tick [DecidableEq ρ] (addr : UInt8)
    (hlen : ∀ step ∈ before.steps r, 0 < step.len) (t : Tick)
    (call : Bus ρ × Option (Except Unit Unit)) (h : OnItsWay before r addr call) :
    ∃ call', tick t call = some call' ∧ OnItsWay before r addr call' := by
  obtain ⟨bus, _ | outcome⟩ := call
  · obtain ⟨k, ops, htrans, htrace, htracks, hshape⟩ := h
    cases t with
    | event io =>
      obtain ⟨p, hp, htracks', hshape'⟩ :=
        onEvent_follows io (sameShapes_len hshape hlen) htracks
      refine ⟨_, by simp only [tick, interruptHandler, htrans, hp]; rfl, ?_⟩
      refine ⟨p.currStep, ops ++ p.ops, rfl, by simp [htrace], ?_, ?_⟩
      · simpa using htracks'
      · simpa using sameShapes_trans hshape hshape'
    | error =>
      refine ⟨_, rfl, k, ops ++ [clearErrorFlags, clearTransactionCtrlBits], htrans, ?_,
        .failed _ _ (by decide), hshape⟩
      simp [interruptErrorHandler, htrace]
    | poll =>
      refine ⟨_, rfl, ?_⟩
      unfold pollTransaction
      cases hstate : bus.ctx.state with
      | done retVal =>
        simp only
        split_ifs with hzero
        · rw [hstate, hzero] at htracks
          cases htracks with
          | finished _ hdone => exact ⟨ops, htrace, hdone, hshape⟩
          | failed _ _ hne => exact absurd rfl hne
        · trivial
      | _ => exact ⟨k, ops, htrans, htrace, htracks, hshape⟩
  · exact ⟨_, rfl, h⟩

end Call

theorem stop_not_mem_plan (addr : UInt8) (steps : List Step) : .stop ∉ planEvents addr steps := by
  intro hmem
  obtain ⟨step, -, hstep⟩ := List.mem_flatMap.mp hmem
  cases step <;> simp [stepEvents, dataEvents, address] at hstep

theorem Complete.count_stop {addr : UInt8} {steps : List Step} {events : List BusEvent}
    (h : Complete addr steps events) : events.count .stop = 1 := by
  obtain ⟨pre, post, rfl, hplan, -⟩ := h
  have hnone := List.count_eq_zero_of_not_mem (stop_not_mem_plan addr steps)
  rw [← hplan, List.count_append] at hnone
  rw [List.count_append, List.count_cons_self]
  omega

/-- Whatever interrupts arrive and whatever they find in the status and data registers,
the handler stays inside the steps and their buffers; and when the call returns Ok, the
bus has seen the plan of the transaction, with the buffers as they are then. -/
theorem transaction_correct [DecidableEq ρ] (bus : Bus ρ) (r : ρ) (deviceAddr : UInt8)
    (ticks : List Tick) (hne : bus.steps r ≠ []) (hlen : ∀ step ∈ bus.steps r, 0 < step.len) :
    ∃ after outcome, runTransaction r deviceAddr ticks bus = some (after, outcome) ∧
      (outcome = some (.ok ()) → ∃ ops, after.trace = bus.trace ++ ops ∧
        Complete deviceAddr (after.steps r) (busEvents ops) ∧
        (busEvents ops).count .stop = 1 ∧
        List.Forall₂ SameShape (bus.steps r) (after.steps r)) := by
  obtain ⟨⟨after, outcome⟩, hrun, hway⟩ := Runs.runs_total
    (onItsWay_tick deviceAddr hlen) ticks (onItsWay_start hne)
  refine ⟨after, outcome, hrun, ?_⟩
  rintro rfl
  obtain ⟨ops, htrace, hcomplete, hshape⟩ := hway
  exact ⟨ops, htrace, hcomplete, hcomplete.count_stop, hshape⟩

def allSet (dr drNext : UInt32) : Status :=
  ⟨0xffff, 0xffff, 0xffff, 0xffff, 0xffff, 0xffff, 0xffff, dr, drNext⟩

/-- The address of a register is written, then its three bytes are read. -/
def registerBus : Bus Unit := ⟨i2cPeriphs .i2c1, fun _ => [.write [0xf6], .read [0, 0, 0]], []⟩

def registerTicks : List Tick :=
  [.event (allSet 0 0), .event (allSet 0 0), .poll, .event (allSet 0 0), .event (allSet 0 0),
    .event (allSet 0 0), .event (allSet 7 0), .event (allSet 8 9), .poll]

theorem register_is_read :
    ∃ after ops, runTransaction () 0x77 registerTicks registerBus = some (after, some (.ok ())) ∧
      Complete 0x77 (after.steps ()) (busEvents ops) := by
  have hok : (runTransaction () 0x77 registerTicks registerBus).map Prod.snd =
      some (some (.ok ())) := by decide +kernel
  obtain ⟨after, outcome, hrun, hcorrect⟩ := transaction_correct registerBus () 0x77
    registerTicks (by decide) (by decide)
  rw [hrun, Option.map_some, Option.some.injEq] at hok
  obtain ⟨ops, -, hcomplete, -⟩ := hcorrect hok
  exact ⟨after, ops, by rw [hrun, ← hok], hcomplete⟩

end Ratfist.I2cTransaction
