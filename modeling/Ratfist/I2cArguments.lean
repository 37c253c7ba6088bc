import Ratfist.I2cProgress

/-!
The arguments that `run_transaction` can deal with. It checks no lengths: what keeps the
handler inside the steps and their buffers is that there is a step and that no buffer is
empty. Otherwise events alone bring no call to its return, as none gets past an empty buffer.
-/
namespace Ratfist.I2cArguments

open I2cHandler I2cTransaction I2cProgress CheckedArray

variable {ρ : Type}

/-- A later transaction can start. -/
def Free (bus : Bus ρ) : Prop :=
  bus.ctx.currentTransaction = none ∧ bus.ctx.state.isDone = true

def Rejected (r : ρ) (addr : UInt8) (bus : Bus ρ) : Prop :=
  startTransaction r addr bus = (bus, some (.error ()))

/-- The handler stays inside, and from wherever it is enough events that find all flags
set make the call return. -/
structure Safe [DecidableEq ρ] (r : ρ) (addr : UInt8) (bus : Bus ρ) : Prop where
  inside : ∀ ticks, (runTransaction r addr ticks bus).isSome
  returns : ∀ (ticks : List Tick) (later : List Status), (∀ io ∈ later, Ready io) →
    work (bus.steps r) ≤ later.length →
    ∃ after outcome,
      runTransaction r addr (ticks ++ (later.map .event ++ [.poll])) bus =
        some (after, some outcome) ∧ Free after

section Start

variable {bus : Bus ρ} {r : ρ} {addr : UInt8}

theorem start_free (r : ρ) (addr : UInt8) (h : Free bus) : ∃ started,
    startTransaction r addr bus = (started, none) ∧
    started.ctx.currentTransaction = some ⟨r, 0, addr⟩ ∧ started.ctx.state = .startBitSet ∧
    started.steps = bus.steps := by
  rcases startTransaction_cases r addr bus with ⟨hbusy, -⟩ | ⟨-, -, hstarted⟩
  · simp [h.1, h.2] at hbusy
  · exact hstarted

theorem not_rejected (h : Free bus) : ¬ Rejected r addr bus := by
  intro hrejected
  obtain ⟨started, hstart, -⟩ := start_free r addr h
  rw [hrejected] at hstart
  cases hstart

theorem rejected_of_busy (h : ¬ Free bus) : Rejected r addr bus := by
  rcases startTransaction_cases r addr bus with ⟨-, hrejected⟩ | ⟨htrans, hdone, -⟩
  · exact hrejected
  · exact absurd ⟨htrans, hdone⟩ h

end Start

/-! A call whose steps are not empty returns. -/

section Returns

variable {before bus : Bus ρ} {r : ρ} {addr : UInt8}

theorem work_drop_le (steps : List Step) (k : ℕ) : work (steps.drop k) ≤ work steps := by
  induction steps generalizing k with
  | nil => simp
  | cons step rest ih =>
    cases k with
    | zero => exact Nat.le_refl _
    | succ k =>
      have hrest := ih k
      simp only [work, List.drop_succ_cons, List.map_cons, List.sum_cons] at hrest ⊢
      omega

theorem left_le_work (h : OnItsWay before r addr (bus, none)) :
    left (view r bus) ≤ work (before.steps r) := by
  obtain ⟨k, ops, htrans, -, -, hshape⟩ := h
  have hdrop := work_drop_le (before.steps r) k
  simp only [left, view, htrans, Option.elim_some]
  rw [remaining_sameShape hshape]
  cases bus.ctx.state <;> simp only [remaining] <;> omega

theorem ready_allSet (dr drNext : UInt32) : Ready (allSet dr drNext) :=
  ready_of_finds ⟨rfl, rfl, rfl, rfl, rfl⟩

theorem left_of_done (hdone : bus.ctx.state.isDone = true) : left (view r bus) = 0 := by
  cases hstate : bus.ctx.state with
  | done retVal => simp [left, view, remaining, hstate]
  | _ => simp [hstate, PeripheralState.isDone] at hdone

variable [DecidableEq ρ]

/-- Step lemma: an event that finds all flags set brings the transaction to its end or on. -/
theorem ready_advances (hlen : ∀ step ∈ before.steps r, 0 < step.len) {io : Status}
    (hready : Ready io) (h : OnItsWay before r addr (bus, none)) :
    ∃ next, interruptHandler io bus = some next ∧ OnItsWay before r addr (next, none) ∧
      (bus.ctx.state.isDone = true → next.ctx.state.isDone = true) ∧
      (bus.ctx.state.isDone = true ∨ left (view r next) < left (view r bus)) := by
  obtain ⟨next, hnext, hway, hmove⟩ := handler_advances hlen h io
  refine ⟨next, hnext, hway, ?_, ?_⟩
  · intro hdone
    rcases hmove with ⟨hsame, -⟩ | ⟨-, hless⟩
    · rw [hsame.1]
      exact hdone
    · rw [left_of_done hdone] at hless
      exact absurd hless (Nat.not_lt_zero _)
  · rcases hmove with ⟨-, hdone⟩ | ⟨-, hless⟩
    · exact Or.inl (hdone hready)
    · exact Or.inr hless

theorem done_of_left (hlen : ∀ step ∈ before.steps r, 0 < step.len)
    (h : OnItsWay before r addr (bus, none)) (hleft : left (view r bus) = 0) :
    bus.ctx.state.isDone = true := by
  obtain ⟨next, -, -, -, hdone | hless⟩ := ready_advances hlen (ready_allSet 0 0) h
  · exact hdone
  · rw [hleft] at hless
    exact absurd hless (Nat.not_lt_zero _)

/-- Run lemma: as many such events as there is work bring it to its end. -/
theorem events_end (hlen : ∀ step ∈ before.steps r, 0 < step.len)
    (h : OnItsWay before r addr (bus, none)) {later : List Status}
    (hready : ∀ io ∈ later, Ready io) (hlong : work (before.steps r) ≤ later.length) :
    ∃ after, Runs.runs interruptHandler later bus = some after ∧
      after.ctx.state.isDone = true := by
  obtain ⟨after, hrun, -, hdone⟩ := Runs.runs_ends
    (fun m => OnItsWay before r addr (m, none)) (fun m => m.ctx.state.isDone = true)
    (fun m => left (view r m)) (fun m => done_of_left hlen)
    (fun io hio m => ready_advances hlen (hready io hio)) h
    (Or.inr (Nat.le_trans (left_le_work h) hlong))
  exact ⟨after, hrun, hdone⟩

end Returns

/-! The ticks that are events, and those after the return. -/

section Ticks

variable {bus : Bus ρ}

def Leaves (call : Bus ρ × Option (Except Unit Unit)) : Prop :=
  ∀ outcome, call.2 = some outcome → Free call.1

theorem poll_done (hdone : bus.ctx.state.isDone = true) :
    ∃ after outcome, pollTransaction bus = (after, some outcome) ∧ Free after := by
  rcases pollTransaction_cases bus with ⟨hwaits, -⟩ | ⟨after, outcome, heq, hctx, hstate, -⟩
  · simp [hdone] at hwaits
  · exact ⟨after, outcome, heq, hctx, hstate ▸ hdone⟩

theorem poll_waits (hwaits : bus.ctx.state.isDone = false) : pollTransaction bus = (bus, none) := by
  rcases pollTransaction_cases bus with ⟨-, heq⟩ | ⟨_, _, -, -, -, hdone, -⟩
  · exact heq
  · simp [hwaits] at hdone

variable [DecidableEq ρ]

theorem runs_events (later : List Status) (bus : Bus ρ) :
    Runs.runs tick (later.map .event) (bus, none) =
      (Runs.runs interruptHandler later bus).map (·, none) := by
  induction later generalizing bus with
  | nil => rfl
  | cons io later ih =>
    rw [List.map_cons, Runs.runs, Runs.runs]
    cases hnext : interruptHandler io bus with
    | none => simp [tick, hnext]
    | some next =>
      simp only [tick, hnext, Option.map_some, Option.bind_some]
      exact ih next

theorem runs_over (ticks : List Tick) (bus : Bus ρ) (outcome : Except Unit Unit) :
    Runs.runs tick ticks (bus, some outcome) = some (bus, some outcome) := by
  induction ticks with
  | nil => rfl
  | cons t ticks ih =>
    rw [Runs.runs]
    exact ih

theorem leaves_tick (t : Tick) (call call' : Bus ρ × Option (Except Unit Unit))
    (h : Leaves call) (ht : tick t call = some call') : Leaves call' := by
  obtain ⟨bus, _ | outcome⟩ := call
  · cases t with
    | event io =>
      obtain ⟨next, -, rfl⟩ := Option.map_eq_some_iff.mp ht
      intro outcome hout
      cases hout
    | error =>
      cases ht
      intro outcome hout
      cases hout
    | poll =>
      cases ht
      intro outcome hout
      rcases pollTransaction_cases bus with ⟨-, heq⟩ | ⟨after, _, heq, hctx, hstate, hdone, -⟩
      · rw [heq] at hout
        cases hout
      · rw [heq]
        exact ⟨hctx, hstate ▸ hdone⟩
  · cases ht
    exact h

end Ticks

section Sound

variable {bus : Bus ρ} {r : ρ} {addr : UInt8}

theorem leaves_start (h : Free bus) : Leaves (startTransaction r addr bus) := by
  obtain ⟨started, hstart, -⟩ := start_free r addr h
  intro outcome hout
  rw [hstart] at hout
  cases hout

variable [DecidableEq ρ]

/-- A free peripheral deals with every transaction of non-empty steps. -/
theorem safe_of_lengths (hfree : Free bus) (hne : bus.steps r ≠ [])
    (hlen : ∀ step ∈ bus.steps r, 0 < step.len) : Safe r addr bus := by
  constructor
  · intro ticks
    obtain ⟨after, outcome, hrun, -⟩ := transaction_correct bus r addr ticks hne hlen
    rw [hrun]
    rfl
  · intro ticks later hready hlong
    obtain ⟨call, hrun, hway⟩ := Runs.runs_total (onItsWay_tick addr hlen) ticks
      (onItsWay_start hne)
    have hleaves := Runs.runs_invariant Leaves leaves_tick (leaves_start hfree) hrun
    obtain ⟨mid, _ | outcome⟩ := call
    · obtain ⟨ended, hended, hdone⟩ := events_end hlen hway hready hlong
      obtain ⟨after, outcome, hpoll, hafter⟩ := poll_done hdone
      refine ⟨after, outcome, ?_, hafter⟩
      rw [runTransaction, Runs.runs_append, hrun, Option.bind_some, Runs.runs_append, runs_events,
        hended]
      exact congrArg some hpoll
    · refine ⟨mid, outcome, ?_, hleaves outcome rfl⟩
      rw [runTransaction, Runs.runs_append, hrun, Option.bind_some, runs_over]

end Sound

/-! A call that comes to an empty buffer does not. -/

/-- The handler is at or before the index `j`, where there is nothing to transfer. -/
structure Stuck (j k : ℕ) (steps : List Step) (state : PeripheralState) : Prop where
  notPast : k ≤ j
  empty : ∀ step, steps[j]? = some step → step.len = 0
  first : j = 0 ∨ j < steps.length
  waits : state.isDone = false
  notSent : ∀ pos, state = .transmitting pos → k < j

section Stuck

variable {io : Status} {addr : UInt8} {j k pos : ℕ} {steps filled : List Step} {p : Progress}
  {state : PeripheralState}

theorem Stuck.lt_of_len (h : Stuck j k steps state) {step : Step} (hstep : steps[k]? = some step)
    (hlen : 0 < step.len) : k < j := by
  refine Nat.lt_of_le_of_ne h.notPast ?_
  intro heq
  have hempty := h.empty step (heq ▸ hstep)
  omega

theorem Stuck.not_last (h : Stuck j k steps state) (hk : k < j) :
    onLastStep k steps = false := by
  have hj := h.first
  simp only [onLastStep, decide_eq_false_iff_not]
  omega

theorem Stuck.to (h : Stuck j k steps state) {state' : PeripheralState}
    (hwaits : state'.isDone = false) (hsent : ∀ pos, state' = .transmitting pos → k < j) :
    Stuck j k steps state' :=
  ⟨h.notPast, h.empty, h.first, hwaits, hsent⟩

theorem Stuck.next (h : Stuck j k steps state) (hk : k < j) :
    Stuck j (k + 1) steps .startBitSet :=
  ⟨hk, h.empty, h.first, rfl, fun _ hstate => by cases hstate⟩

/-- Filling a buffer before the index `j` makes no difference. -/
theorem Stuck.store (h : Stuck j k steps state) (hk : k < j) {byte : UInt8}
    (hstore : storeByte k steps pos byte = some filled) : Stuck j k filled state := by
  obtain ⟨step, -, hrest⟩ := Option.bind_eq_some_iff.mp hstore
  obtain ⟨step', -, hset⟩ := Option.bind_eq_some_iff.mp hrest
  cases hset
  refine ⟨h.notPast, ?_, ?_, h.waits, h.notSent⟩
  · intro other hother
    rw [List.getElem?_set_ne (by omega)] at hother
    exact h.empty other hother
  · rw [List.length_set]
    exact h.first

/-- The last bytes of a buffer before the index `j` do not end the transaction. -/
theorem Stuck.step_end (h : Stuck j k filled state) (hk : k < j) {ops ops' : List RegOp}
    (hp : (if onLastStep k filled = true then some ⟨.done 0, k, filled, ops⟩
      else some ⟨.startBitSet, k + 1, filled, ops'⟩) = some p) :
    Stuck j p.currStep p.steps p.state := by
  rw [h.not_last hk, if_neg Bool.false_ne_true] at hp
  cases hp
  exact h.next hk

theorem onStartBitSet_stuck (h : Stuck j k steps .startBitSet)
    (hp : onStartBitSet io addr k steps = some p) : Stuck j p.currStep p.steps p.state := by
  unfold onStartBitSet at hp
  split_ifs at hp
  · cases hp
    exact h
  · obtain ⟨step, -, hsent⟩ := Option.bind_eq_some_iff.mp hp
    cases step <;> cases hsent <;> exact h.to rfl fun _ hstate => by cases hstate

theorem onAddressSent_stuck (h : Stuck j k steps .addressSent)
    (hp : onAddressSent io k steps = some p) : Stuck j p.currStep p.steps p.state := by
  unfold onAddressSent at hp
  split_ifs at hp
  · cases hp
    exact h
  · obtain ⟨step, hstep, hsent⟩ := Option.bind_eq_some_iff.mp hp
    cases step with
    | read data =>
      cases hsent
      exact h.to rfl fun _ hstate => by cases hstate
    | write data =>
      obtain ⟨first, hfirst, hdata⟩ := Option.bind_eq_some_iff.mp hsent
      cases hdata
      have hlen : 0 < (Step.write data).len := (List.getElem?_eq_some_iff.mp hfirst).1
      exact h.to rfl fun _ _ => h.lt_of_len hstep hlen

theorem onTransmitting_stuck (h : Stuck j k steps (.transmitting pos))
    (hp : onTransmitting io k steps pos = some p) : Stuck j p.currStep p.steps p.state := by
  have hk := h.notSent pos rfl
  unfold onTransmitting at hp
  obtain ⟨step, -, hsent⟩ := Option.bind_eq_some_iff.mp hp
  simp only [h.not_last hk, Bool.false_eq_true, if_false] at hsent
  split_ifs at hsent
  · cases hsent
    exact h
  · cases hsent
    exact h.next hk
  · obtain ⟨byte, -, hbyte⟩ := Option.bind_eq_some_iff.mp hsent
    cases hbyte
    exact h.to rfl fun _ _ => hk

theorem onReceiving_stuck (h : Stuck j k steps (.receiving pos))
    (hp : onReceiving io k steps pos = some p) : Stuck j p.currStep p.steps p.state := by
  unfold onReceiving at hp
  obtain ⟨step, hstep, hbytes⟩ := Option.bind_eq_some_iff.mp hp
  obtain ⟨last, hlast, hread⟩ := Option.bind_eq_some_iff.mp hbytes
  have hk : k < j := by
    refine h.lt_of_len hstep ?_
    unfold sub at hlast
    split_ifs at hlast with hlen
    exact hlen
  by_cases honly : pos = last
  · rw [if_pos honly] at hread
    split_ifs at hread
    · cases hread
      exact h
    · obtain ⟨filled, hstore, hend⟩ := Option.bind_eq_some_iff.mp hread
      exact (h.store hk hstore).step_end hk hend
  · rw [if_neg honly] at hread
    obtain ⟨lastButOne, -, hearlier⟩ := Option.bind_eq_some_iff.mp hread
    by_cases hlastTwo : pos = lastButOne
    · rw [if_pos hlastTwo] at hearlier
      by_cases hbtf : (!io.isBtfSet) = true
      · simp only [if_pos hbtf] at hearlier
        cases hearlier
        exact h
      · simp only [if_neg hbtf] at hearlier
        obtain ⟨filled, hstore, hsecond⟩ := Option.bind_eq_some_iff.mp hearlier
        obtain ⟨filled', hstore', hend⟩ := Option.bind_eq_some_iff.mp hsecond
        exact ((h.store hk hstore).store hk hstore').step_end hk hend
    · rw [if_neg hlastTwo] at hearlier
      split_ifs at hearlier
      · cases hearlier
        exact h
      · obtain ⟨filled, hstore, hgoing⟩ := Option.bind_eq_some_iff.mp hearlier
        cases hgoing
        exact (h.store hk hstore).to rfl fun _ hstate => by cases hstate

theorem onEvent_stuck (h : Stuck j k steps state) (hp : onEvent io addr k steps state = some p) :
    Stuck j p.currStep p.steps p.state := by
  cases state with
  | startBitSet => exact onStartBitSet_stuck h hp
  | addressSent => exact onAddressSent_stuck h hp
  | transmitting pos => exact onTransmitting_stuck h hp
  | receiving pos => exact onReceiving_stuck h hp
  | done retVal =>
    cases hp
    exact h

end Stuck

section Needed

variable {bus next : Bus ρ} {r : ρ} {addr : UInt8} {j : ℕ}

def StuckIn (j : ℕ) (r : ρ) (addr : UInt8) (bus : Bus ρ) : Prop :=
  ∃ k, bus.ctx.currentTransaction = some ⟨r, k, addr⟩ ∧ Stuck j k (bus.steps r) bus.ctx.state

/-- Every transaction without steps or with an empty buffer starts so. -/
theorem stuckIn_start (hfree : Free bus)
    (hbad : ¬ (bus.steps r ≠ [] ∧ ∀ step ∈ bus.steps r, 0 < step.len)) :
    ∃ j started, startTransaction r addr bus = (started, none) ∧ StuckIn j r addr started := by
  obtain ⟨j, hstuck⟩ : ∃ j, Stuck j 0 (bus.steps r) .startBitSet := by
    by_cases hne : bus.steps r = []
    · refine ⟨0, Nat.le_refl 0, ?_, Or.inl rfl, rfl, fun _ hstate => by cases hstate⟩
      intro step hstep
      simp [hne] at hstep
    · have hempty : ∃ step ∈ bus.steps r, step.len = 0 := by
        by_contra hall
        refine hbad ⟨hne, fun step hstep => Nat.pos_of_ne_zero fun hlen => ?_⟩
        exact hall ⟨step, hstep, hlen⟩
      obtain ⟨step, hmem, hlen⟩ := hempty
      obtain ⟨j, hj, hget⟩ := List.getElem_of_mem hmem
      refine ⟨j, Nat.zero_le j, ?_, Or.inr hj, rfl, fun _ hstate => by cases hstate⟩
      intro other hother
      rw [List.getElem?_eq_getElem hj, hget] at hother
      cases hother
      exact hlen
  obtain ⟨started, hstart, htrans, hstate, hsteps⟩ := start_free r addr hfree
  refine ⟨j, started, hstart, 0, htrans, ?_⟩
  rw [hsteps, hstate]
  exact hstuck

variable [DecidableEq ρ]

theorem stuckIn_handler (io : Status) (bus next : Bus ρ) (h : StuckIn j r addr bus)
    (hnext : interruptHandler io bus = some next) : StuckIn j r addr next := by
  obtain ⟨k, htrans, hstuck⟩ := h
  rcases interruptHandler_inv hnext with ⟨hnone, -⟩ | ⟨t, p, ht, hp, rfl⟩
  · simp [htrans] at hnone
  cases htrans.symm.trans ht
  refine ⟨p.currStep, rfl, ?_⟩
  show Stuck j p.currStep (Function.update bus.steps r p.steps r) p.state
  rw [Function.update_self]
  exact onEvent_stuck hstuck hp

/-- Events alone do not make such a call return. -/
theorem lengths_of_safe (hfree : Free bus) (h : Safe r addr bus) :
    bus.steps r ≠ [] ∧ ∀ step ∈ bus.steps r, 0 < step.len := by
  by_contra hbad
  obtain ⟨j, started, hstart, hstuck⟩ :
      ∃ j started, startTransaction r addr bus = (started, none) ∧ StuckIn j r addr started :=
    stuckIn_start hfree hbad
  have hready : ∀ io ∈ List.replicate (work (bus.steps r)) (allSet 0 0), Ready io := by
    intro io hio
    rw [List.eq_of_mem_replicate hio]
    exact ready_allSet 0 0
  obtain ⟨after, outcome, hrun, -⟩ := h.returns [] _ hready (by rw [List.length_replicate])
  rw [List.nil_append, runTransaction, hstart, Runs.runs_append, runs_events] at hrun
  obtain ⟨call, hcall, hpoll⟩ := Option.bind_eq_some_iff.mp hrun
  obtain ⟨mid, hmid, rfl⟩ := Option.map_eq_some_iff.mp hcall
  obtain ⟨k, -, hwaits⟩ := Runs.runs_invariant (StuckIn j r addr) stuckIn_handler hstuck hmid
  have hnone : Runs.runs tick [.poll] (mid, none) = some (mid, none) :=
    congrArg some (poll_waits hwaits.waits)
  rw [hnone] at hpoll
  cases hpoll

end Needed

/-- A call that is not rejected is safe exactly when its slice and its buffers are not empty. -/
theorem runTransaction_safe_iff [DecidableEq ρ] (bus : Bus ρ) (r : ρ) (addr : UInt8) :
    Rejected r addr bus ∨ Safe r addr bus ↔
      ¬ Free bus ∨ (bus.steps r ≠ [] ∧ ∀ step ∈ bus.steps r, 0 < step.len) := by
  by_cases hfree : Free bus
  · rw [or_iff_right (not_rejected hfree), or_iff_right (not_not_intro hfree)]
    constructor
    · exact lengths_of_safe hfree
    · intro hlengths
      exact safe_of_lengths hfree hlengths.1 hlengths.2
  · exact iff_of_true (Or.inl (rejected_of_busy hfree)) (Or.inl hfree)

def idle (steps : List Step) : Bus Unit := ⟨i2cPeriphs .i2c1, fun _ => steps, []⟩

/-- No steps, nothing to write and nothing to read: the handler stops at its first, second and
third event. -/
theorem empty_buffers_unsafe :
    runTransaction () 0x77 [.event (allSet 0 0)] (idle []) = none ∧
    runTransaction () 0x77 [.event (allSet 0 0), .event (allSet 0 0)] (idle [.write []]) = none ∧
    runTransaction () 0x77 [.event (allSet 0 0), .event (allSet 0 0), .event (allSet 0 0)]
      (idle [.read []]) = none ∧
    ¬ ∀ steps, Rejected () 0x77 (idle steps) ∨ Safe () 0x77 (idle steps) := by
  have hnone : runTransaction () 0x77 [.event (allSet 0 0)] (idle []) = none := rfl
  refine ⟨hnone, rfl, rfl, ?_⟩
  intro hclaim
  rcases hclaim [] with hrejected | hsafe
  · exact not_rejected ⟨rfl, rfl⟩ hrejected
  · have hsome := hsafe.inside [.event (allSet 0 0)]
    rw [hnone] at hsome
    cases hsome

end Ratfist.I2cArguments
