import Ratfist.I2cProgress

/-!
Which control bits a transaction leaves behind. CR1.POS and CR2.ITBUFEN are switched on
behind the address, by the length of the step; a write step switches its bit off again,
and of the reads only one of a single byte that ends the transaction. Between two
transactions `reset` clears CR1.POS, and it restores CR2.
-/
namespace Ratfist.I2cResidue

open I2cHandler I2cTransaction I2cProgress CheckedArray

structure Registers where
  values : Register → UInt32
  saved : Register → UInt32

namespace Registers

/-- A software reset clears the other registers. -/
def apply (s : Registers) : RegOp → Registers
  | .read _ _ => s
  | .write reg value => { s with values := Function.update s.values reg value }
  | .modify reg clear set =>
    let rest := if reg = .cr1 ∧ set &&& cr1Swrst ≠ 0 then fun _ => 0 else s.values
    { s with values := Function.update rest reg (s.values reg &&& ~~~clear ||| set) }
  | .save regs => { s with saved := fun reg => if reg ∈ regs then s.values reg else s.saved reg }
  | .restore regs =>
    { s with values := fun reg => if reg ∈ regs then s.saved reg else s.values reg }

def after (s : Registers) (ops : List RegOp) : Registers := ops.foldl apply s

def pos (s : Registers) : UInt32 := s.values .cr1 &&& cr1Pos

def itbufen (s : Registers) : UInt32 := s.values .cr2 &&& cr2Itbufen

/-- The configuration that every step starts from. -/
structure Clean (s : Registers) : Prop where
  pos : s.pos = 0
  itbufen : s.itbufen = 0

@[simp] theorem after_nil (s : Registers) : s.after [] = s := rfl

@[simp] theorem after_cons (s : Registers) (op : RegOp) (ops : List RegOp) :
    s.after (op :: ops) = (s.apply op).after ops := rfl

@[simp] theorem after_append (s : Registers) (ops ops' : List RegOp) :
    s.after (ops ++ ops') = (s.after ops).after ops' :=
  List.foldl_append

theorem and_modify (v clear set mask : UInt32) :
    (v &&& ~~~clear ||| set) &&& mask = v &&& mask &&& ~~~clear ||| set &&& mask := by
  apply UInt32.toBitVec_inj.mp
  ext i
  simp
  grind

theorem or_and_mask (v mask : UInt32) : (v ||| mask) &&& mask = mask := by
  apply UInt32.toBitVec_inj.mp
  ext i
  simp
  grind

/-- A change of CR1 that is no software reset leaves CR2 alone. -/
theorem itbufen_modify_cr1 (s : Registers) {clear set : UInt32} (hset : set &&& cr1Swrst = 0) :
    (s.apply (.modify .cr1 clear set)).itbufen = s.itbufen := by
  simp [apply, itbufen, hset]

theorem pos_modify_cr2 (s : Registers) (clear set : UInt32) :
    (s.apply (.modify .cr2 clear set)).pos = s.pos := by
  simp [apply, pos]

/-- A change of other bits of CR1 leaves POS alone. -/
theorem pos_modify_cr1 (s : Registers) {clear set : UInt32} (hclear : cr1Pos &&& ~~~clear = cr1Pos)
    (hset : set &&& cr1Pos = 0) : (s.apply (.modify .cr1 clear set)).pos = s.pos := by
  simp [apply, pos, and_modify, hset, UInt32.and_assoc, hclear]

@[simp] theorem pos_sendStart (s : Registers) : (s.apply sendStart).pos = s.pos :=
  s.pos_modify_cr1 (by decide) (by decide)

@[simp] theorem pos_sendStop (s : Registers) : (s.apply sendStop).pos = s.pos :=
  s.pos_modify_cr1 (by decide) (by decide)

@[simp] theorem pos_disableAck (s : Registers) : (s.apply disableAck).pos = s.pos :=
  s.pos_modify_cr1 (by decide) (by decide)

@[simp] theorem pos_enableBuffer (s : Registers) :
    (s.apply enableBufferInterrupts).pos = s.pos :=
  s.pos_modify_cr2 _ _

@[simp] theorem pos_disableBuffer (s : Registers) :
    (s.apply disableBufferInterrupts).pos = s.pos :=
  s.pos_modify_cr2 _ _

@[simp] theorem itbufen_sendStart (s : Registers) : (s.apply sendStart).itbufen = s.itbufen :=
  s.itbufen_modify_cr1 (by decide)

@[simp] theorem itbufen_sendStop (s : Registers) : (s.apply sendStop).itbufen = s.itbufen :=
  s.itbufen_modify_cr1 (by decide)

@[simp] theorem itbufen_disableAck (s : Registers) : (s.apply disableAck).itbufen = s.itbufen :=
  s.itbufen_modify_cr1 (by decide)

@[simp] theorem itbufen_enableBuffer (s : Registers) :
    (s.apply enableBufferInterrupts).itbufen = cr2Itbufen := by
  simp [apply, itbufen, enableBufferInterrupts, or_and_mask]

@[simp] theorem pos_disableAckAfterNextByte (s : Registers) :
    (s.apply disableAckAfterNextByte).pos = cr1Pos := by
  simp [apply, pos, disableAckAfterNextByte, or_and_mask]

@[simp] theorem itbufen_disableBuffer (s : Registers) :
    (s.apply disableBufferInterrupts).itbufen = 0 := by
  simp [apply, itbufen, disableBufferInterrupts, UInt32.and_assoc]

@[simp] theorem apply_read (s : Registers) (reg : Register) (value : UInt32) :
    s.apply (.read reg value) = s := rfl

@[simp] theorem after_clearAddrFlag (s : Registers) (io : Status) :
    s.after io.clearAddrFlag = s := rfl

@[simp] theorem pos_sendData (s : Registers) (byte : UInt8) :
    (s.apply (sendData byte)).pos = s.pos := by
  simp [apply, pos, sendData]

@[simp] theorem itbufen_sendData (s : Registers) (byte : UInt8) :
    (s.apply (sendData byte)).itbufen = s.itbufen := by
  simp [apply, itbufen, sendData]

/-- What is saved before the software reset comes back behind it. -/
theorem values_reset (s : Registers) (reg : Register) (h : reg = .cr1 ∨ reg = .cr2) :
    (s.after reset).values reg = (s.apply clearTransactionCtrlBits).values reg := by
  rcases h with rfl | rfl <;> simp [reset, apply]

theorem pos_reset (s : Registers) : (s.after reset).pos = 0 := by
  have hbits : ~~~(cr1Pos ||| cr1Ack ||| cr1Stop ||| cr1Start) &&& cr1Pos = 0 := by decide
  rw [pos, s.values_reset .cr1 (Or.inl rfl)]
  simp only [apply, clearTransactionCtrlBits, Function.update_self, UInt32.or_zero,
    UInt32.and_assoc, hbits, UInt32.and_zero]

theorem itbufen_reset (s : Registers) : (s.after reset).itbufen = s.itbufen := by
  rw [itbufen, s.values_reset .cr2 (Or.inr rfl)]
  exact s.itbufen_modify_cr1 (by decide)

end Registers

/-- Every read is of one byte and the last step of its transaction. -/
def ShortReads (steps : List Step) : Prop :=
  ∀ k data, steps[k]? = some (.read data) → data.length = 1 ∧ k + 1 = steps.length

def Quiet (steps : List Step) (k : ℕ) (s : Registers) : PeripheralState → Prop
  | .startBitSet => s.Clean
  | .addressSent => s.Clean
  | .transmitting _ => s.pos = 0
  | .receiving _ => s.pos = 0 ∧ ∃ data, steps[k]? = some (.read data)
  | .done retVal => retVal = 0 → s.Clean

theorem sameShapes_symm {steps steps' : List Step} (h : List.Forall₂ SameShape steps steps') :
    List.Forall₂ SameShape steps' steps := by
  refine h.flip.imp fun step step' hsame => ?_
  cases step <;> cases step' <;> first | exact Eq.symm hsame | exact False.elim hsame

/-- Filling buffers leaves reads as long as they are. -/
theorem read_of_sameShape {steps steps' : List Step} (hshape : List.Forall₂ SameShape steps steps')
    {k : ℕ} {data : List UInt8} (h : steps[k]? = some (.read data)) :
    ∃ data', steps'[k]? = some (.read data') ∧ data'.length = data.length := by
  obtain ⟨hk, hget⟩ := List.getElem?_eq_some_iff.mp h
  have hk' : k < steps'.length := hshape.length_eq ▸ hk
  have hsame := hshape.get hk hk'
  simp only [List.get_eq_getElem, hget] at hsame
  rcases hstep : steps'[k] with data' | data'
  · rw [hstep] at hsame
    exact ⟨data', by rw [List.getElem?_eq_getElem hk', hstep], hsame⟩
  · rw [hstep] at hsame
    exact False.elim hsame

theorem ShortReads.sameShape {steps steps' : List Step} (h : ShortReads steps)
    (hshape : List.Forall₂ SameShape steps steps') : ShortReads steps' := by
  intro k data hget
  obtain ⟨old, hold, hlen⟩ := read_of_sameShape (sameShapes_symm hshape) hget
  obtain ⟨hone, hlast⟩ := h k old hold
  exact ⟨hlen.symm.trans hone, hlast.trans hshape.length_eq⟩

section Event

variable {io : Status} {addr : UInt8} {k : ℕ} {steps : List Step} {s : Registers} {p : Progress}

theorem quiet_addressSent (hshort : ShortReads steps) (hclean : s.Clean)
    (h : onAddressSent io k steps = some p) :
    p.steps = steps ∧ Quiet p.steps p.currStep (s.after p.ops) p.state := by
  unfold onAddressSent at h
  split_ifs at h
  · cases h
    exact ⟨rfl, hclean⟩
  rcases hstep : steps[k]? with _ | step
  · simp [hstep] at h
  rcases step with data | data
  · obtain ⟨hone, -⟩ := hshort k data hstep
    simp only [hstep, Option.bind_eq_bind, Option.bind_some, hone, if_true,
      Option.some.injEq] at h
    subst h
    refine ⟨rfl, ?_, data, hstep⟩
    simpa using hclean.pos
  · rcases hfirst : data[0]? with _ | first
    · simp [hstep, hfirst] at h
    · simp only [hstep, hfirst, Option.bind_eq_bind, Option.bind_some, Option.some.injEq] at h
      subst h
      refine ⟨rfl, ?_⟩
      have hpos := hclean.pos
      by_cases hbuffered : 2 ≤ data.length
      · simpa [Quiet, hbuffered] using hpos
      · simpa [Quiet, hbuffered] using hpos

theorem quiet_transmitting {pos : ℕ} (hpos : s.pos = 0)
    (h : onTransmitting io k steps pos = some p) :
    p.steps = steps ∧ Quiet p.steps p.currStep (s.after p.ops) p.state := by
  rcases hstep : steps[k]? with _ | step
  · simp [onTransmitting, hstep] at h
  simp only [onTransmitting, hstep, Option.bind_eq_bind, Option.bind_some] at h
  split_ifs at h
  · cases h
    exact ⟨rfl, hpos⟩
  · cases h
    exact ⟨rfl, fun _ => ⟨by simpa using hpos, by simp⟩⟩
  · cases h
    exact ⟨rfl, by simpa using hpos, by simp⟩
  · rcases hbyte : step.asRef[pos]? with _ | byte
    · simp [hbyte] at h
    · simp only [hbyte, Option.bind_some, Option.some.injEq] at h
      subst h
      exact ⟨rfl, by simpa [Quiet] using hpos⟩

/-- Only the branch for the single byte of the last step can be reached. -/
theorem quiet_receiving {pos : ℕ} {data : List UInt8} (hshort : ShortReads steps)
    (hpos : s.pos = 0) (hstep : steps[k]? = some (.read data))
    (h : onReceiving io k steps pos = some p) :
    ShortReads p.steps ∧ Quiet p.steps p.currStep (s.after p.ops) p.state := by
  obtain ⟨hone, hlast⟩ := hshort k data hstep
  have hsub : sub (Step.read data).len 1 = some 0 := by simp [sub, Step.len, Step.asRef, hone]
  have hsub' : sub (Step.read data).len 2 = none := by simp [sub, Step.len, Step.asRef, hone]
  simp only [onReceiving, hstep, hsub, hsub', Option.bind_eq_bind, Option.bind_some,
    Option.bind_none] at h
  by_cases hzero : pos = 0
  · subst hzero
    rw [if_pos rfl] at h
    split_ifs at h
    · cases h
      exact ⟨hshort, hpos, data, hstep⟩
    · have hend : onLastStep k (steps.set k (.read (data.set 0 io.dr.toUInt8))) = true := by
        simp [onLastStep, ← hlast]
      rw [storeByte_read hstep (by omega) io.dr.toUInt8, Option.bind_some, if_pos hend] at h
      cases h
      have hshape := sameShape_set hstep (data.set 0 io.dr.toUInt8) (List.length_set ..)
      exact ⟨hshort.sameShape hshape, fun _ => ⟨by simpa using hpos, by simp⟩⟩
  · rw [if_neg hzero] at h
    cases h

/-- Step lemma. -/
theorem quiet_event {state : PeripheralState} (hshort : ShortReads steps)
    (hquiet : Quiet steps k s state) (h : onEvent io addr k steps state = some p) :
    ShortReads p.steps ∧ Quiet p.steps p.currStep (s.after p.ops) p.state := by
  cases state with
  | startBitSet =>
    simp only [onEvent, onStartBitSet] at h
    split_ifs at h
    · cases h
      exact ⟨hshort, hquiet⟩
    rcases hstep : steps[k]? with _ | step
    · simp [hstep] at h
    · rcases step with data | data <;>
        simp only [hstep, Option.bind_eq_bind, Option.bind_some, Option.some.injEq] at h
      all_goals
        subst h
        exact ⟨hshort, by simpa [sendAddr] using hquiet.pos,
          by simpa [sendAddr] using hquiet.itbufen⟩
  | addressSent =>
    obtain ⟨hsteps, hnext⟩ := quiet_addressSent hshort hquiet h
    exact ⟨hsteps ▸ hshort, hnext⟩
  | transmitting pos =>
    obtain ⟨hsteps, hnext⟩ := quiet_transmitting hquiet h
    exact ⟨hsteps ▸ hshort, hnext⟩
  | receiving pos =>
    obtain ⟨hpos, data, hstep⟩ := hquiet
    exact quiet_receiving hshort hpos hstep h
  | done retVal =>
    cases h
    exact ⟨hshort, hquiet⟩

end Event

section Call

variable {ρ : Type} {init : Registers} {r : ρ}

def KeepsQuiet (init : Registers) (r : ρ) : Bus ρ × Option (Except Unit Unit) → Prop
  | (bus, none) =>
    ∃ k addr, bus.ctx.currentTransaction = some ⟨r, k, addr⟩ ∧ ShortReads (bus.steps r) ∧
      Quiet (bus.steps r) k (init.after bus.trace) bus.ctx.state
  | (bus, some _) =>
    bus.ctx.state = .startBitSet ∨ bus.ctx.state = .done 0 → (init.after bus.trace).Clean

theorem keepsQuiet_start {bus : Bus ρ} (addr : UInt8) (hclean : (init.after bus.trace).Clean)
    (hshort : ShortReads (bus.steps r)) : KeepsQuiet init r (startTransaction r addr bus) := by
  unfold startTransaction
  split_ifs
  · exact fun _ => hclean
  · exact fun _ => hclean
  · refine ⟨0, addr, rfl, hshort, ?_, ?_⟩
    · simp [Registers.pos_reset]
    · simp [Registers.itbufen_reset, hclean.itbufen]

/-- Step lemma. -/
theorem keepsQuiet_tick [DecidableEq ρ] (t : Tick) (call call' : Bus ρ × Option (Except Unit Unit))
    (h : KeepsQuiet init r call) (ht : tick t call = some call') : KeepsQuiet init r call' := by
  obtain ⟨bus, _ | outcome⟩ := call
  · obtain ⟨k, addr, htrans, hshort, hquiet⟩ := h
    cases t with
    | event io =>
      obtain ⟨next, hnext, rfl⟩ := Option.map_eq_some_iff.mp ht
      rcases interruptHandler_inv hnext with ⟨hnone, -⟩ | ⟨t, p, htrans', hp, rfl⟩
      · simp [htrans] at hnone
      · cases htrans.symm.trans htrans'
        obtain ⟨hshort', hquiet'⟩ := quiet_event hshort hquiet hp
        exact ⟨p.currStep, addr, rfl, by simpa using hshort', by simpa using hquiet'⟩
    | error =>
      cases ht
      exact ⟨k, addr, htrans, hshort, by simp [interruptErrorHandler, Quiet]⟩
    | poll =>
      cases ht
      unfold pollTransaction
      cases hstate : bus.ctx.state with
      | done retVal =>
        simp only
        split_ifs with hzero
        · rw [hstate] at hquiet
          exact fun _ => hquiet hzero
        · intro hmoved
          simp [hstate, hzero] at hmoved
      | _ => exact ⟨k, addr, htrans, hshort, hquiet⟩
  · cases ht
    exact h

end Call

/-- If the only read, if any, is one of a single byte at the end, then whatever interrupts
arrive and whatever they find, the next step or transaction starts without the two bits. -/
theorem no_residue_of_short_reads {ρ : Type} [DecidableEq ρ] (init : Registers) (bus : Bus ρ)
    (r : ρ) (deviceAddr : UInt8) (ticks : List Tick) (hclean : (init.after bus.trace).Clean)
    (hshort : ShortReads (bus.steps r)) {after : Bus ρ} {outcome : Option (Except Unit Unit)}
    (hrun : runTransaction r deviceAddr ticks bus = some (after, outcome))
    (hmoved : after.ctx.state = .startBitSet ∨ after.ctx.state = .done 0) :
    (init.after after.trace).Clean := by
  have hkeeps := Runs.runs_invariant (KeepsQuiet init r) keepsQuiet_tick
    (keepsQuiet_start deviceAddr hclean hshort) hrun
  rcases outcome with _ | outcome
  · obtain ⟨k, addr, -, -, hquiet⟩ := hkeeps
    rcases hmoved with hstate | hstate
    · rw [hstate] at hquiet
      exact hquiet
    · rw [hstate] at hquiet
      exact hquiet rfl
  · exact hkeeps hmoved

/-! The bits that longer reads leave behind. -/

/-- The bit that a read of `len` bytes sets behind its address. -/
def Lasting (len : ℕ) (s : Registers) : Prop :=
  if len = 2 then s.pos = cr1Pos else s.itbufen = cr2Itbufen

theorem Lasting.not_clean {len : ℕ} {s : Registers} (h : Lasting len s) : ¬ s.Clean := by
  intro hclean
  unfold Lasting at h
  split_ifs at h
  · rw [hclean.pos] at h
    exact absurd h (by decide)
  · rw [hclean.itbufen] at h
    exact absurd h (by decide)

theorem Lasting.congr {len : ℕ} {s t : Registers} (h : Lasting len s) (hpos : t.pos = s.pos)
    (hitbufen : t.itbufen = s.itbufen) : Lasting len t := by
  unfold Lasting at h ⊢
  rwa [hpos, hitbufen]

/-- An event stays in its step, goes on to the next one or ends the last one. -/
def Moves (steps : List Step) (k : ℕ) (p : Progress) : Prop :=
  (p.currStep = k ∧ p.state.isDone = false) ∨ (p.currStep = k + 1 ∧ p.state = .startBitSet) ∨
    (onLastStep k steps = true ∧ p.state = .done 0)

section Event

variable {io : Status} {addr : UInt8} {k : ℕ} {steps : List Step} {s : Registers} {p : Progress}

theorem moves_end {filled : List Step} {ops ops' : List RegOp}
    (hlength : filled.length = steps.length)
    (h : (if onLastStep k filled = true then some ⟨.done 0, k, filled, ops⟩
      else some ⟨.startBitSet, k + 1, filled, ops'⟩) = some p) : Moves steps k p := by
  split_ifs at h with hlast
  · cases h
    exact Or.inr (Or.inr ⟨by rwa [onLastStep, hlength] at hlast, rfl⟩)
  · cases h
    exact Or.inr (Or.inl ⟨rfl, rfl⟩)

/-- A read of two and more bytes, or of one byte with a step behind it, touches neither bit. -/
theorem onReceiving_moves {data : List UInt8} {pos : ℕ} (hstep : steps[k]? = some (.read data))
    (hpos : pos + 2 ≤ data.length ∨ pos = 0 ∧ data.length = 1)
    (h : onReceiving io k steps pos = some p) :
    Moves steps k p ∧ (¬ (data.length = 1 ∧ onLastStep k steps = true) →
      (s.after p.ops).pos = s.pos ∧ (s.after p.ops).itbufen = s.itbufen) := by
  have hlen : (Step.read data).len = data.length := rfl
  unfold onReceiving at h
  simp only [hstep, Option.bind_eq_bind, Option.bind_some] at h
  rw [hlen, sub_of_le (by omega), Option.bind_some] at h
  by_cases honly : pos = data.length - 1
  · rw [if_pos honly] at h
    split_ifs at h with hrxne
    · cases h
      exact ⟨Or.inl ⟨rfl, rfl⟩, fun _ => ⟨rfl, rfl⟩⟩
    · rw [storeByte_read hstep (by omega), Option.bind_some] at h
      refine ⟨moves_end (List.length_set ..) h, fun hlong => ?_⟩
      rw [onLastStep_set, if_neg fun hlast => hlong ⟨by omega, hlast⟩] at h
      cases h
      simp
  · rw [if_neg honly, sub_of_le (by omega), Option.bind_some] at h
    by_cases hlastTwo : pos = data.length - 2
    · rw [if_pos hlastTwo] at h
      obtain ⟨ack, hack, hpos, hitbufen⟩ : ∃ ack,
          (if io.isRxneSet = true then [disableAck] else []) = ack ∧
            (s.after ack).pos = s.pos ∧ (s.after ack).itbufen = s.itbufen := by
        refine ⟨_, rfl, ?_, ?_⟩ <;> split_ifs <;> simp
      rw [hack, storeByte_read hstep (by omega), Option.bind_some,
        storeByte_read (get_set hstep _) (by rw [List.length_set]; omega), Option.bind_some] at h
      simp only [onLastStep_set] at h
      split_ifs at h with hbtf hlast
      · cases h
        exact ⟨Or.inl ⟨rfl, rfl⟩, fun _ => ⟨hpos, hitbufen⟩⟩
      · cases h
        exact ⟨Or.inr (Or.inr ⟨hlast, rfl⟩), fun _ => by simp [hpos, hitbufen]⟩
      · cases h
        exact ⟨Or.inr (Or.inl ⟨rfl, rfl⟩), fun _ => by simp [hpos, hitbufen]⟩
    · rw [if_neg hlastTwo] at h
      split_ifs at h with hrxne
      · cases h
        exact ⟨Or.inl ⟨rfl, rfl⟩, fun _ => ⟨rfl, rfl⟩⟩
      · rw [storeByte_read hstep (by omega), Option.bind_some] at h
        cases h
        exact ⟨Or.inl ⟨rfl, rfl⟩, fun _ => ⟨by simp, by simp⟩⟩

theorem onEvent_moves {state : PeripheralState} {events : List BusEvent}
    (htracks : Tracks addr steps k state events) (hstate : state.isDone = false)
    (h : onEvent io addr k steps state = some p) : Moves steps k p := by
  cases htracks with
  | startBitSet step hstep =>
    simp only [onEvent, onStartBitSet, hstep] at h
    split_ifs at h
    · cases h
      exact Or.inl ⟨rfl, rfl⟩
    · cases step <;> cases h <;> exact Or.inl ⟨rfl, rfl⟩
  | addressSent step hstep =>
    simp only [onEvent, onAddressSent, hstep, Option.bind_eq_bind, Option.bind_some] at h
    split_ifs at h
    · cases h
      exact Or.inl ⟨rfl, rfl⟩
    · cases step with
      | read data =>
        cases h
        exact Or.inl ⟨rfl, rfl⟩
      | write data =>
        obtain ⟨first, -, hp⟩ := Option.bind_eq_some_iff.mp h
        cases hp
        exact Or.inl ⟨rfl, rfl⟩
  | transmitting data pos hstep hpos =>
    simp only [onEvent, onTransmitting, hstep, Option.bind_eq_bind, Option.bind_some] at h
    split_ifs at h with hwait hend hlast
    · cases h
      exact Or.inl ⟨rfl, rfl⟩
    · cases h
      exact Or.inr (Or.inr ⟨hlast, rfl⟩)
    · cases h
      exact Or.inr (Or.inl ⟨rfl, rfl⟩)
    · obtain ⟨byte, -, hp⟩ := Option.bind_eq_some_iff.mp h
      cases hp
      exact Or.inl ⟨rfl, rfl⟩
  | receiving data pos hstep hpos =>
    exact (onReceiving_moves (s := ⟨fun _ => 0, fun _ => 0⟩) hstep hpos h).1
  | finished _ _ => cases hstate
  | failed _ _ _ => cases hstate

/-- Behind its address a read step has its bit set. -/
theorem onAddressSent_lasting {data : List UInt8} (hstep : steps[k]? = some (.read data))
    (h : onAddressSent io k steps = some p) {pos : ℕ} (hp : p.state = .receiving pos) :
    Lasting data.length (s.after p.ops) := by
  simp only [onAddressSent, hstep] at h
  split_ifs at h
  · cases h
    cases hp
  · cases h
    unfold Lasting
    by_cases hone : data.length = 1
    · simp [hone]
    · by_cases htwo : data.length = 2 <;> simp [hone, htwo]

/-- The read step `k` of `len` bytes is still to come, or its bit is set. -/
def Coming (len k : ℕ) (s : Registers) (j : ℕ) (state : PeripheralState) : Prop :=
  state.isDone = false ∧ (j < k ∨ j = k ∧ ∀ pos, state = .receiving pos → Lasting len s)

/-- The transaction has moved on, and one of the bits is set. -/
def Residue (s : Registers) (state : PeripheralState) : Prop :=
  (state = .startBitSet ∨ state = .done 0) ∧ ¬ s.Clean

/-- Step lemma. -/
theorem coming_event {j : ℕ} {data : List UInt8} {state : PeripheralState}
    {events : List BusEvent} (hread : steps[k]? = some (.read data))
    (hlong : ¬ (data.length = 1 ∧ k + 1 = steps.length))
    (htracks : Tracks addr steps j state events) (hcoming : Coming data.length k s j state)
    (h : onEvent io addr j steps state = some p) :
    Residue (s.after p.ops) p.state ∨
      Coming data.length k (s.after p.ops) p.currStep p.state := by
  have hk : k < steps.length := (List.getElem?_eq_some_iff.mp hread).1
  obtain ⟨hstate, hcoming⟩ := hcoming
  have hmoves := onEvent_moves htracks hstate h
  rcases hcoming with hlt | ⟨rfl, hlasting⟩
  · refine Or.inr ?_
    rcases hmoves with ⟨hj, hwaits⟩ | ⟨hj, hnext⟩ | ⟨hlast, -⟩
    · exact ⟨hwaits, Or.inl (hj ▸ hlt)⟩
    · rw [hnext]
      exact ⟨rfl, (Nat.lt_or_eq_of_le hlt).imp (fun hlt => hj ▸ hlt)
        fun heq => ⟨hj.trans heq, by simp⟩⟩
    · have hlast : steps.length ≤ j + 1 := by simpa [onLastStep] using hlast
      omega
  cases htracks with
  | startBitSet step hstep =>
    simp only [onEvent, onStartBitSet, hread] at h
    split_ifs at h <;> cases h <;> exact Or.inr ⟨rfl, Or.inr ⟨rfl, by simp⟩⟩
  | addressSent step hstep =>
    have hset (pos : ℕ) (hp : p.state = .receiving pos) :=
      onAddressSent_lasting (s := s) hread h hp
    simp only [onEvent, onAddressSent, hread] at h
    split_ifs at h <;> cases h <;> exact Or.inr ⟨rfl, Or.inr ⟨rfl, hset⟩⟩
  | transmitting written pos hstep hpos =>
    rw [hread] at hstep
    cases hstep
  | receiving read pos hstep hpos =>
    cases hread.symm.trans hstep
    obtain ⟨-, hkept⟩ := onReceiving_moves (s := s) hstep hpos h
    have hstays : ¬ (data.length = 1 ∧ onLastStep j steps = true) := by
      rintro ⟨hone, hlast⟩
      have hlast : steps.length ≤ j + 1 := by simpa [onLastStep] using hlast
      exact hlong ⟨hone, by omega⟩
    obtain ⟨hposKept, hitbufen⟩ := hkept hstays
    have hlasts := (hlasting pos rfl).congr hposKept hitbufen
    rcases hmoves with ⟨hj, hwaits⟩ | ⟨-, hnext⟩ | ⟨-, hdone⟩
    · exact Or.inr ⟨hwaits, Or.inr ⟨hj, fun _ _ => hlasts⟩⟩
    · exact Or.inl ⟨Or.inl hnext, hlasts.not_clean⟩
    · exact Or.inl ⟨Or.inr hdone, hlasts.not_clean⟩
  | finished _ _ => cases hstate
  | failed _ _ _ => cases hstate

end Event

section Call

variable {ρ : Type} [DecidableEq ρ] {init : Registers} {before : Bus ρ} {r : ρ} {addr : UInt8}
  {k : ℕ} {data : List UInt8}

/-- The read step `k` of `len` bytes is still to come in the transaction of `r`. -/
def ComesTo (init : Registers) (before : Bus ρ) (r : ρ) (addr : UInt8) (len k : ℕ)
    (bus : Bus ρ) : Prop :=
  OnItsWay before r addr (bus, none) ∧
    ∃ j, bus.ctx.currentTransaction = some ⟨r, j, addr⟩ ∧
      Coming len k (init.after bus.trace) j bus.ctx.state

/-- Step lemma: an event that finds every flag brings the end of the read nearer. -/
theorem comesTo_event (hlen : ∀ step ∈ before.steps r, 0 < step.len)
    (hread : (before.steps r)[k]? = some (.read data))
    (hlong : ¬ (data.length = 1 ∧ k + 1 = (before.steps r).length)) {bus : Bus ρ}
    (h : ComesTo init before r addr data.length k bus) {io : Status} (hready : Ready io) :
    ∃ next, interruptHandler io bus = some next ∧
      (Residue (init.after next.trace) next.ctx.state ∨
        ComesTo init before r addr data.length k next ∧
          left (view r next) < left (view r bus)) := by
  obtain ⟨hway, j, htrans, hcoming⟩ := h
  obtain ⟨next, hnext, hwayNext, hmove⟩ := handler_advances hlen hway io
  refine ⟨next, hnext, ?_⟩
  have hless : left (view r next) < left (view r bus) := by
    rcases hmove with ⟨-, hdone⟩ | ⟨-, hless⟩
    · rw [hcoming.1] at hdone
      exact absurd (hdone hready) (by decide)
    · exact hless
  obtain ⟨j', ops, htrans', -, htracks, hshape⟩ := hway
  cases htrans.symm.trans htrans'
  obtain ⟨data', hread', hlength⟩ := read_of_sameShape hshape hread
  rw [← hlength] at hcoming ⊢
  rw [← hlength, hshape.length_eq] at hlong
  rcases interruptHandler_inv hnext with ⟨hnone, -⟩ | ⟨t, p, ht, hp, rfl⟩
  · simp [htrans] at hnone
  cases htrans.symm.trans ht
  rcases coming_event hread' hlong htracks hcoming hp with hresidue | hcoming'
  · exact Or.inl (by simpa using hresidue)
  · exact Or.inr ⟨⟨hwayNext, p.currStep, rfl, by simpa using hcoming'⟩, hless⟩

end Call

/-- Every other list of steps has a run that leaves one of the bits set. -/
theorem long_reads_leave_bits {ρ : Type} [DecidableEq ρ] (init : Registers) {bus started : Bus ρ}
    {r : ρ} {deviceAddr : UInt8} (hlen : ∀ step ∈ bus.steps r, 0 < step.len)
    (hstart : startTransaction r deviceAddr bus = (started, none))
    (hlong : ¬ ShortReads (bus.steps r)) :
    ∃ ticks after, runTransaction r deviceAddr ticks bus = some (after, none) ∧
      (after.ctx.state = .startBitSet ∨ after.ctx.state = .done 0) ∧
      ¬ (init.after after.trace).Clean := by
  simp only [ShortReads, not_forall] at hlong
  obtain ⟨k, data, hread, hlong⟩ := hlong
  have hne : bus.steps r ≠ [] := by
    rintro hnil
    simp [hnil] at hread
  have hway : OnItsWay bus r deviceAddr (started, none) := hstart ▸ onItsWay_start hne
  have hcomes : ComesTo init bus r deviceAddr data.length k started := by
    refine ⟨hway, ?_⟩
    unfold startTransaction at hstart
    split_ifs at hstart <;> cases hstart
    exact ⟨0, rfl, rfl, (Nat.eq_zero_or_pos k).symm.imp id fun h => ⟨h.symm, nofun⟩⟩
  have hstep (call : Bus ρ × Option (Except Unit Unit))
      (h : ComesTo init bus r deviceAddr data.length k call.1 ∧ call.2 = none) :
      ∃ t next, tick t call = some next ∧
        ((Residue (init.after next.1.trace) next.1.ctx.state ∧ next.2 = none) ∨
          (ComesTo init bus r deviceAddr data.length k next.1 ∧ next.2 = none) ∧
            left (view r next.1) < left (view r call.1)) := by
    obtain ⟨s, outcome⟩ := call
    obtain ⟨hs, rfl⟩ := h
    have hready : Ready (allSet 0 0) := ⟨rfl, rfl, rfl, rfl, rfl⟩
    obtain ⟨next, hnext, hend⟩ := comesTo_event hlen hread hlong hs hready
    refine ⟨.event (allSet 0 0), (next, none), by simp [tick, hnext], ?_⟩
    exact hend.imp (fun h => ⟨h, rfl⟩) fun h => ⟨⟨h.1, rfl⟩, h.2⟩
  obtain ⟨⟨after, outcome⟩, ⟨ticks, hrun⟩, hresidue, rfl⟩ :=
    Runs.reaches_of_measure (s := (started, none))
      (fun call => ComesTo init bus r deviceAddr data.length k call.1 ∧ call.2 = none)
      (fun call => Residue (init.after call.1.trace) call.1.ctx.state ∧ call.2 = none)
      (fun call => left (view r call.1)) hstep ⟨hcomes, rfl⟩
  exact ⟨ticks, after, by rw [runTransaction, hstart]; exact hrun, hresidue⟩

section Residue

def blankRegisters : Registers := ⟨fun _ => 0, fun _ => 0⟩

def busWith (steps : List Step) : Bus Unit := ⟨i2cPeriphs .i2c1, fun _ => steps, []⟩

/-- The state, POS and ITBUFEN after interrupts that find every flag set. -/
def bitsAfter (steps : List Step) (interrupts : ℕ) : Option (PeripheralState × UInt32 × UInt32) :=
  (runTransaction () 0x77 (List.replicate interrupts (.event (allSet 7 8))) (busWith steps)).map
    fun (bus, _) => (bus.ctx.state, (blankRegisters.after bus.trace).pos,
      (blankRegisters.after bus.trace).itbufen)

/-- Three bytes and one byte that is not the last step leave ITBUFEN set, two leave POS. -/
theorem reads_leave_bits :
    bitsAfter [.read [0, 0, 0]] 4 = some (.done 0, 0, cr2Itbufen) ∧
      bitsAfter [.read [0, 0]] 3 = some (.done 0, cr1Pos, 0) ∧
      bitsAfter [.read [0], .write [1]] 3 = some (.startBitSet, 0, cr2Itbufen) := by
  decide +kernel

theorem register_pointer_is_clean : ∃ after : Bus Unit × Option (Except Unit Unit),
    runTransaction () 0x77 (List.replicate 8 (.event (allSet 7 8)))
        (busWith [.write [1, 2], .read [0]]) = some after ∧
      (blankRegisters.after after.1.trace).Clean := by
  have hstate : (runTransaction () 0x77 (List.replicate 8 (.event (allSet 7 8)))
      (busWith [.write [1, 2], .read [0]])).map (fun call => call.1.ctx.state) =
        some (.done 0) := by decide +kernel
  obtain ⟨⟨after, outcome⟩, hrun, hdone⟩ := Option.map_eq_some_iff.mp hstate
  have hshort : ShortReads ((busWith [.write [1, 2], .read [0]]).steps ()) := by
    intro k data hget
    rcases k with _ | _ | k
    · cases hget
    · cases hget
      exact ⟨rfl, rfl⟩
    · cases hget
  exact ⟨_, hrun, no_residue_of_short_reads blankRegisters (busWith [.write [1, 2], .read [0]]) ()
    0x77 (List.replicate 8 (.event (allSet 7 8))) ⟨by decide, by decide⟩ hshort hrun (Or.inr hdone)⟩

end Residue

end Ratfist.I2cResidue
