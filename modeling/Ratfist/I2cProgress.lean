import Ratfist.I2cTransaction
import Mathlib.Algebra.Ring.Nat

/-!
How far a transaction has got. Every event either finds a flag missing that the handler
waits for, and changes nothing, or brings the transaction one step nearer to its end; so
only a bounded number of events change anything, and no state is stuck.
-/
namespace Ratfist.I2cProgress

open I2cHandler I2cTransaction CheckedArray

/-- For each step its START, its address, and its bytes. -/
def work (steps : List Step) : ℕ := (steps.map fun step => step.len + 2).sum

/-- The changes that are still to come. -/
def remaining (steps : List Step) (currStep : ℕ) : PeripheralState → ℕ
  | .startBitSet => work (steps.drop currStep)
  | .addressSent => work (steps.drop currStep) - 1
  | .transmitting nextBytePos => work (steps.drop currStep) - 1 - nextBytePos
  | .receiving nextBytePos => work (steps.drop currStep) - 2 - nextBytePos
  | .done _ => 0

/-- One reading of SR1 that shows all flags the handler tests. -/
structure Ready (io : Status) : Prop where
  sb : io.isSbSet
  addr : io.isAddrSet
  btf : io.isBtfSet
  txe : io.isTxeSet
  rxne : io.isRxneSet

/-- Every reading of SR1 during an interrupt shows `sr1`. -/
structure Finds (io : Status) (sr1 : UInt32) : Prop where
  sb : io.sb = sr1
  addr : io.addr = sr1
  btf : io.btf = sr1
  txe : io.txe = sr1
  rxne : io.rxne = sr1

/-- Nothing has changed for want of a flag, or the transaction has got on. -/
def Advances (io : Status) (steps : List Step) (k : ℕ) (state : PeripheralState)
    (p : Progress) : Prop :=
  (p.state = state ∧ p.currStep = k ∧ p.steps = steps ∧ ¬ Ready io) ∨
    (p.state ≠ state ∧ remaining p.steps p.currStep p.state < remaining steps k state)

theorem ready_of_finds {io : Status} (h : Finds io 0xffff) : Ready io := by
  obtain ⟨hsb, haddr, hbtf, htxe, hrxne⟩ := h
  constructor
  · rw [Status.isSbSet, hsb]
    decide
  · rw [Status.isAddrSet, haddr]
    decide
  · rw [Status.isBtfSet, hbtf]
    decide
  · rw [Status.isTxeSet, htxe]
    decide
  · rw [Status.isRxneSet, hrxne]
    decide

theorem work_drop {steps : List Step} {k : ℕ} {step : Step} (h : steps[k]? = some step) :
    work (steps.drop k) = step.len + 2 + work (steps.drop (k + 1)) := by
  obtain ⟨hk, rfl⟩ := List.getElem?_eq_some_iff.mp h
  rw [List.drop_eq_getElem_cons hk]
  rfl

/-- Filling buffers leaves the work as it is. -/
theorem work_sameShape {steps steps' : List Step} (h : List.Forall₂ SameShape steps steps')
    (k : ℕ) : work (steps'.drop k) = work (steps.drop k) := by
  have hdrop := List.forall₂_drop k h
  generalize steps.drop k = front at hdrop
  generalize steps'.drop k = front' at hdrop
  induction hdrop with
  | nil => rfl
  | cons hstep _ ih => simp only [work, List.map_cons, List.sum_cons, hstep.len] at ih ⊢; omega

theorem remaining_sameShape {steps steps' : List Step} (h : List.Forall₂ SameShape steps steps')
    (k : ℕ) (state : PeripheralState) : remaining steps' k state = remaining steps k state := by
  cases state <;> simp only [remaining, work_sameShape h]

section Handler

variable {io : Status} {addr : UInt8} {k : ℕ} {steps : List Step} {p : Progress}

theorem onStartBitSet_advances {step : Step} (hstep : steps[k]? = some step)
    (h : onStartBitSet io addr k steps = some p) : Advances io steps k .startBitSet p := by
  have hwork := work_drop hstep
  unfold onStartBitSet at h
  split_ifs at h with hsb
  · cases h
    exact Or.inl ⟨rfl, rfl, rfl, fun hready => by simp [hready.sb] at hsb⟩
  · refine Or.inr ?_
    cases step <;> simp only [hstep, Option.bind_eq_bind, Option.bind_some, Option.some.injEq] at h
      <;> subst h <;> refine ⟨by simp, ?_⟩ <;> simp only [remaining] <;> omega

theorem onAddressSent_advances {step : Step} (hstep : steps[k]? = some step)
    (hlen : 0 < step.len) (h : onAddressSent io k steps = some p) :
    Advances io steps k .addressSent p := by
  have hwork := work_drop hstep
  unfold onAddressSent at h
  split_ifs at h with haddr
  · cases h
    exact Or.inl ⟨rfl, rfl, rfl, fun hready => by simp [hready.addr] at haddr⟩
  · refine Or.inr ?_
    cases step with
    | read data =>
      simp only [hstep, Option.bind_eq_bind, Option.bind_some, Option.some.injEq] at h
      subst h
      refine ⟨by simp, ?_⟩
      simp only [remaining]
      omega
    | write data =>
      obtain ⟨first, rest, rfl⟩ := List.exists_cons_of_length_pos hlen
      simp only [hstep, Option.bind_eq_bind, Option.bind_some, List.getElem?_cons_zero,
        Option.some.injEq] at h
      subst h
      refine ⟨by simp, ?_⟩
      simp only [remaining]
      omega

theorem onTransmitting_advances {data : List UInt8} {pos : ℕ}
    (hstep : steps[k]? = some (.write data)) (hpos : pos ≤ data.length)
    (h : onTransmitting io k steps pos = some p) : Advances io steps k (.transmitting pos) p := by
  have hwork := work_drop hstep
  have hlen : (Step.write data).len = data.length := rfl
  unfold onTransmitting at h
  simp only [hstep, Option.bind_eq_bind, Option.bind_some] at h
  split_ifs at h with hwait hend hlast
  · cases h
    exact Or.inl ⟨rfl, rfl, rfl, fun hready => by simp [hready.btf, hready.txe] at hwait⟩
  · cases h
    refine Or.inr ⟨by simp, ?_⟩
    simp only [remaining]
    omega
  · cases h
    refine Or.inr ⟨by simp, ?_⟩
    simp only [remaining]
    omega
  · obtain ⟨byte, -, hp⟩ := Option.bind_eq_some_iff.mp h
    cases hp
    refine Or.inr ⟨by simp, ?_⟩
    simp only [remaining]
    omega

/-- The last bytes of a buffer end the step or the transaction. -/
theorem remaining_end {ops ops' : List RegOp} {filled : List Step} {pos bound : ℕ}
    (hbound : work (steps.drop (k + 1)) < bound)
    (h : (if onLastStep k filled = true then some ⟨.done 0, k, filled, ops⟩
      else some ⟨.startBitSet, k + 1, filled, ops'⟩) = some p) :
    p.state ≠ .receiving pos ∧ remaining steps p.currStep p.state < bound := by
  split_ifs at h
  · cases h
    exact ⟨by simp, Nat.lt_of_le_of_lt (Nat.zero_le _) hbound⟩
  · cases h
    exact ⟨by simp, hbound⟩

/-- A step of one byte, its last two bytes, or a byte before these. -/
theorem onReceiving_advances {data : List UInt8} {pos : ℕ}
    (hstep : steps[k]? = some (.read data))
    (hpos : pos + 2 ≤ data.length ∨ pos = 0 ∧ data.length = 1)
    (hshape : List.Forall₂ SameShape steps p.steps)
    (h : onReceiving io k steps pos = some p) : Advances io steps k (.receiving pos) p := by
  have hwork := work_drop hstep
  have hlen : (Step.read data).len = data.length := rfl
  have hend : work (steps.drop (k + 1)) < remaining steps k (.receiving pos) := by
    simp only [remaining]
    omega
  unfold onReceiving at h
  simp only [hstep, Option.bind_eq_bind, Option.bind_some] at h
  rw [hlen, sub_of_le (by omega), Option.bind_some] at h
  unfold Advances
  rw [remaining_sameShape hshape]
  by_cases honly : pos = data.length - 1
  · rw [if_pos honly] at h
    split_ifs at h with hrxne
    · cases h
      exact Or.inl ⟨rfl, rfl, rfl, fun hready => by simp [hready.rxne] at hrxne⟩
    · obtain ⟨filled, -, hp⟩ := Option.bind_eq_some_iff.mp h
      exact Or.inr (remaining_end hend hp)
  · rw [if_neg honly, sub_of_le (by omega), Option.bind_some] at h
    generalize (if io.isRxneSet = true then [disableAck] else []) = ack at h
    by_cases hlastTwo : pos = data.length - 2
    · rw [if_pos hlastTwo] at h
      split_ifs at h with hbtf
      · cases h
        exact Or.inl ⟨rfl, rfl, rfl, fun hready => by simp [hready.btf] at hbtf⟩
      all_goals
        obtain ⟨filled, -, hp⟩ := Option.bind_eq_some_iff.mp h
        obtain ⟨filled', -, hp'⟩ := Option.bind_eq_some_iff.mp hp
        exact Or.inr (remaining_end hend hp')
    · rw [if_neg hlastTwo] at h
      split_ifs at h with hrxne
      · cases h
        exact Or.inl ⟨rfl, rfl, rfl, fun hready => by simp [hready.rxne] at hrxne⟩
      · obtain ⟨filled, -, hp⟩ := Option.bind_eq_some_iff.mp h
        cases hp
        refine Or.inr ⟨by simp, ?_⟩
        simp only [remaining]
        omega

end Handler

theorem onEvent_advances {io : Status} {addr : UInt8} {k : ℕ} {steps : List Step}
    {state : PeripheralState} {events : List BusEvent} (hlen : ∀ step ∈ steps, 0 < step.len)
    (h : Tracks addr steps k state events) (hstate : state.isDone = false) :
    ∃ p, onEvent io addr k steps state = some p ∧ Follows addr steps events p ∧
      Advances io steps k state p := by
  obtain ⟨p, hp, hfollows⟩ := onEvent_follows io hlen h
  refine ⟨p, hp, hfollows, ?_⟩
  cases h with
  | startBitSet step hstep => exact onStartBitSet_advances hstep hp
  | addressSent step hstep =>
    exact onAddressSent_advances hstep (hlen step (List.mem_of_getElem? hstep)) hp
  | transmitting data pos hstep hpos => exact onTransmitting_advances hstep hpos hp
  | receiving data pos hstep hpos => exact onReceiving_advances hstep hpos hfollows.2 hp
  | finished _ _ => cases hstate
  | failed _ _ _ => cases hstate

/-! The handler on the peripheral whose transaction has the steps of `r`. -/

variable {ρ : Type}

def view (r : ρ) (bus : Bus ρ) : InterruptContext ρ × List Step := (bus.ctx, bus.steps r)

def left (v : InterruptContext ρ × List Step) : ℕ :=
  remaining v.2 (v.1.currentTransaction.elim 0 Transaction.currStep) v.1.state

def Unchanged (bus next : Bus ρ) : Prop := next.ctx = bus.ctx ∧ next.steps = bus.steps

theorem left_start {before bus : Bus ρ} {r : ρ} {addr : UInt8}
    (hstart : startTransaction r addr before = (bus, none)) :
    left (view r bus) = work (before.steps r) := by
  unfold startTransaction at hstart
  split_ifs at hstart <;> cases hstart
  simp [left, view, remaining]

section Call

variable [DecidableEq ρ] {before bus next : Bus ρ} {r : ρ} {addr : UInt8}

/-- Step lemma: nothing changes for want of a flag or because all is done, or the
transaction gets on. -/
theorem handler_advances (hlen : ∀ step ∈ before.steps r, 0 < step.len)
    (h : OnItsWay before r addr (bus, none)) (io : Status) :
    ∃ next, interruptHandler io bus = some next ∧ OnItsWay before r addr (next, none) ∧
      ((Unchanged bus next ∧ (Ready io → bus.ctx.state.isDone)) ∨
        (next.ctx.state ≠ bus.ctx.state ∧ left (view r next) < left (view r bus))) := by
  obtain ⟨call, htick, hway⟩ := onItsWay_tick addr hlen (.event io) (bus, none) h
  obtain ⟨next, hnext, rfl⟩ := Option.map_eq_some_iff.mp htick
  refine ⟨next, hnext, hway, ?_⟩
  obtain ⟨k, ops, htrans, -, htracks, hshape⟩ := h
  have hsame (p : Progress) (hp : onEvent io addr k (bus.steps r) bus.ctx.state = some p) :
      next = ⟨⟨some ⟨r, p.currStep, addr⟩, bus.ctx.periphId, p.state⟩,
        Function.update bus.steps r p.steps, bus.trace ++ p.ops⟩ := by
    rcases interruptHandler_inv hnext with ⟨hnone, -⟩ | ⟨t, p', ht, hp', rfl⟩
    · simp [htrans] at hnone
    · cases htrans.symm.trans ht
      cases hp.symm.trans hp'
      rfl
  have hctx : bus.ctx = ⟨some ⟨r, k, addr⟩, bus.ctx.periphId, bus.ctx.state⟩ := by rw [← htrans]
  cases hdone : bus.ctx.state.isDone with
  | true =>
    refine Or.inl ⟨?_, fun _ => rfl⟩
    cases hstate : bus.ctx.state with
    | done retVal =>
      rw [hsame ⟨.done retVal, k, bus.steps r, []⟩ (by rw [hstate]; rfl), Unchanged, hctx, hstate]
      exact ⟨rfl, Function.update_eq_self _ _⟩
    | _ => simp [hstate, PeripheralState.isDone] at hdone
  | false =>
    obtain ⟨p, hp, -, hadvances⟩ := onEvent_advances (sameShapes_len hshape hlen) htracks hdone
    rw [hsame p hp]
    rcases hadvances with ⟨hstate, hk, hsteps, hready⟩ | ⟨hstate, hless⟩
    · refine Or.inl ⟨?_, fun h => absurd h hready⟩
      rw [Unchanged, hstate, hk, hsteps]
      exact ⟨hctx.symm, Function.update_eq_self _ _⟩
    · refine Or.inr ⟨hstate, ?_⟩
      simpa [left, view, htrans] using hless

/-- The events of a transaction: none of them leads astray, at most as many as its steps have
bytes, starts and addresses change anything, and while it is not done some would. -/
theorem handler_makes_progress (bus started : Bus ρ) (r : ρ) (deviceAddr : UInt8)
    (hne : bus.steps r ≠ []) (hlen : ∀ step ∈ bus.steps r, 0 < step.len)
    (hstart : startTransaction r deviceAddr bus = (started, none)) (calls : List Status) :
    Runs.changes interruptHandler (view r) calls started ≤ work (bus.steps r) ∧
      ∃ after, Runs.runs interruptHandler calls started = some after ∧
        (∀ io, ∃ next, interruptHandler io after = some next ∧
          (Unchanged after next ∨ left (view r next) < left (view r after))) ∧
        (after.ctx.state.isDone = false → ∃ sr1, ∀ io, Finds io sr1 →
          ∃ next, interruptHandler io after = some next ∧ next.ctx.state ≠ after.ctx.state) := by
  have hway : OnItsWay bus r deviceAddr (started, none) := hstart ▸ onItsWay_start hne
  constructor
  · rw [← left_start hstart]
    refine Runs.changes_le (fun s => OnItsWay bus r deviceAddr (s, none)) left ?_ calls hway
    intro io s t hs hst
    obtain ⟨next, hnext, hnextWay, hmove⟩ := handler_advances hlen hs io
    obtain rfl := Option.some.inj (hst.symm.trans hnext)
    refine ⟨hnextWay, ?_⟩
    rcases hmove with ⟨⟨hctx, hsteps⟩, -⟩ | ⟨-, hless⟩
    · exact Or.inl (by rw [view, view, hctx, hsteps])
    · exact Or.inr hless
  · have htotal (io : Status) (s : Bus ρ) (hs : OnItsWay bus r deviceAddr (s, none)) :
        ∃ t, interruptHandler io s = some t ∧ OnItsWay bus r deviceAddr (t, none) := by
      obtain ⟨next, hnext, hnextWay, -⟩ := handler_advances hlen hs io
      exact ⟨next, hnext, hnextWay⟩
    obtain ⟨after, hrun, hafter⟩ := Runs.runs_total htotal calls hway
    refine ⟨after, hrun, fun io => ?_, fun hdone => ⟨0xffff, fun io hfinds => ?_⟩⟩
    · obtain ⟨next, hnext, -, hmove⟩ := handler_advances hlen hafter io
      exact ⟨next, hnext, hmove.imp And.left And.right⟩
    · obtain ⟨next, hnext, -, hmove⟩ := handler_advances hlen hafter io
      refine ⟨next, hnext, ?_⟩
      rcases hmove with ⟨-, hready⟩ | ⟨hstate, -⟩
      · rw [hready (ready_of_finds hfinds)] at hdone
        cases hdone
      · exact hstate

end Call

/-- The transaction that reads a register, from its first event on. -/
theorem register_read_progresses : ∃ started,
    startTransaction () 0x77 registerBus = (started, none) ∧
      Runs.changes interruptHandler (view ()) [allSet 0 0, allSet 0 0] started ≤ 8 ∧
      ∃ after, Runs.runs interruptHandler [allSet 0 0, allSet 0 0] started = some after ∧
        (∀ io, ∃ next, interruptHandler io after = some next ∧
          (Unchanged after next ∨ left (view () next) < left (view () after))) ∧
        (after.ctx.state.isDone = false → ∃ sr1, ∀ io, Finds io sr1 →
          ∃ next, interruptHandler io after = some next ∧ next.ctx.state ≠ after.ctx.state) :=
  ⟨_, rfl, handler_makes_progress registerBus _ () 0x77 (by decide) (by decide) rfl
    [allSet 0 0, allSet 0 0]⟩

end Ratfist.I2cProgress
