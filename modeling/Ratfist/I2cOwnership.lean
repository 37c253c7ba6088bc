import Ratfist.I2cHandler
import Ratfist.Runs

/-!
Any number of callers of `run_transaction` on one peripheral, whose critical sections
and interrupts come in any order. The context refers to the steps of at most one
caller, and only between its start and its return, so that the lifetimes which
`run_transaction` erases are never exceeded. A call has a number of its own, which is
also the reference to its steps; `reachedDone` is a history variable.
-/
namespace Ratfist.I2cOwnership

open I2cHandler

/-- `inside` are the calls between their start and their return, the newest first;
`reachedDone` those whose transaction the handler has brought to `Done(0)`. -/
structure System where
  bus : Bus ℕ
  started : List ℕ
  inside : List ℕ
  returned : List (ℕ × Except Unit Unit)
  reachedDone : List ℕ

inductive Label
  | start (call : ℕ) (deviceAddr : UInt8)
  | poll (call : ℕ)
  | event (io : Status)
  | error
deriving DecidableEq, Repr

/-- A critical section of a call has ended: the call returns where it has an outcome. -/
def System.leave (s : System) (call : ℕ) (bus : Bus ℕ) : Option (Except Unit Unit) → System
  | none => { s with bus := bus }
  | some outcome =>
    { s with
      bus := bus
      inside := s.inside.erase call
      returned := (call, outcome) :: s.returned }

def newlyDone (before after : InterruptContext ℕ) : List ℕ :=
  if before.state ≠ .done 0 ∧ after.state = .done 0 then
    (before.currentTransaction.map Transaction.steps).toList
  else []

def step : Label → System → Option System
  | .start call deviceAddr, s =>
    if call ∈ s.started then none
    else
      let (bus, outcome) := startTransaction call deviceAddr s.bus
      let s := { s with started := call :: s.started, inside := call :: s.inside }
      some (s.leave call bus outcome)
  | .poll call, s =>
    if call ∈ s.inside then
      let (bus, outcome) := pollTransaction s.bus
      some (s.leave call bus outcome)
    else none
  | .event io, s => do
    let bus ← interruptHandler io s.bus
    some { s with
      bus := bus
      reachedDone := newlyDone s.bus.ctx bus.ctx ++ s.reachedDone }
  | .error, s => some { s with bus := interruptErrorHandler s.bus }

def initial (periph : Peripheral) (steps : ℕ → List Step) : System :=
  ⟨⟨i2cPeriphs periph, steps, []⟩, [], [], [], []⟩

structure Owned (s : System) : Prop where
  inside : s.inside = (s.bus.ctx.currentTransaction.map Transaction.steps).toList
  idle : s.bus.ctx.currentTransaction = none → s.bus.ctx.state.isDone = true
  inside_started : ∀ call ∈ s.inside, call ∈ s.started
  returned_started : ∀ r ∈ s.returned, r.1 ∈ s.started
  returned_outside : ∀ r ∈ s.returned, r.1 ∉ s.inside
  reached : ∀ t, s.bus.ctx.currentTransaction = some t → s.bus.ctx.state = .done 0 →
    t.steps ∈ s.reachedDone
  ok_reached : ∀ call, (call, .ok ()) ∈ s.returned → call ∈ s.reachedDone

theorem owned_initial (periph : Peripheral) (steps : ℕ → List Step) :
    Owned (initial periph steps) := by
  constructor <;> simp [initial, i2cPeriphs, PeripheralState.isDone]

theorem inside_cases {s : System} (h : Owned s) :
    (s.bus.ctx.currentTransaction = none ∧ s.inside = [] ∧ s.bus.ctx.state.isDone = true) ∨
      ∃ t, s.bus.ctx.currentTransaction = some t ∧ s.inside = [t.steps] := by
  have hinside := h.inside
  cases ht : s.bus.ctx.currentTransaction with
  | none => exact Or.inl ⟨rfl, by simpa [ht] using hinside, h.idle ht⟩
  | some t => exact Or.inr ⟨t, rfl, by simpa [ht] using hinside⟩

/-! What each step can do. -/

/-- An event changes the steps of the current transaction and nothing else of the
memory. -/
theorem interruptHandler_cases {io : Status} {bus bus' : Bus ℕ}
    (h : interruptHandler io bus = some bus') :
    (bus.ctx.currentTransaction = none ∧ bus' = bus) ∨
      ∃ t k, bus.ctx.currentTransaction = some t ∧
        bus'.ctx.currentTransaction = some { t with currStep := k } ∧
        ∀ call, call ≠ t.steps → bus'.steps call = bus.steps call := by
  rcases interruptHandler_inv h with hnone | ⟨t, p, ht, -, rfl⟩
  · exact Or.inl hnone
  · exact Or.inr ⟨t, p.currStep, ht, rfl, fun call hne => Function.update_of_ne hne _ _⟩

section Steps

variable {s s' : System}

/-- A call is turned away exactly when another one is inside, and then nothing but the
list of returned calls has changed. -/
theorem step_start (h : Owned s) {call : ℕ} {deviceAddr : UInt8}
    (hs : step (.start call deviceAddr) s = some s') :
    call ∉ s.started ∧
      ((s.inside ≠ [] ∧ s' = { s with
          started := call :: s.started
          returned := (call, .error ()) :: s.returned }) ∨
        ∃ bus', s.inside = [] ∧ bus'.ctx.currentTransaction = some ⟨call, 0, deviceAddr⟩ ∧
          bus'.ctx.state = .startBitSet ∧
          s' = { s with bus := bus', started := call :: s.started, inside := [call] }) := by
  simp only [step] at hs
  split_ifs at hs with hnew
  refine ⟨hnew, ?_⟩
  have hbusy := inside_cases h
  rcases startTransaction_cases call deviceAddr s.bus with ⟨hwhy, heq⟩ |
    ⟨hnone, hdone, bus', heq, hctx, hstate, -⟩ <;> rw [heq] at hs <;> cases hs
  · rcases hbusy with ⟨hnone, -, hdone⟩ | ⟨t, ht, hinside⟩
    · simp [hnone, hdone] at hwhy
    · exact Or.inl ⟨by simp [hinside], by simp [System.leave]⟩
  · rcases hbusy with ⟨-, hinside, -⟩ | ⟨t, ht, -⟩
    · exact Or.inr ⟨bus', hinside, hctx, hstate, by simp [System.leave, hinside]⟩
    · rw [ht] at hnone
      cases hnone

theorem Owned.start (h : Owned s) {call : ℕ} {deviceAddr : UInt8}
    (hs : step (.start call deviceAddr) s = some s') : Owned s' := by
  obtain ⟨hnew, ⟨-, rfl⟩ | ⟨bus', hinside, hctx, hstate, rfl⟩⟩ := step_start h hs
  · refine ⟨h.inside, h.idle, ?_, ?_, ?_, h.reached, ?_⟩
    · exact fun c hc => List.mem_cons_of_mem _ (h.inside_started c hc)
    · intro r hr
      rcases List.mem_cons.mp hr with rfl | hr
      · exact List.mem_cons_self
      · exact List.mem_cons_of_mem _ (h.returned_started r hr)
    · intro r hr
      rcases List.mem_cons.mp hr with rfl | hr
      · exact fun hmem => hnew (h.inside_started call hmem)
      · exact h.returned_outside r hr
    · intro c hc
      rcases List.mem_cons.mp hc with heq | hc
      · cases heq
      · exact h.ok_reached c hc
  · refine ⟨by simp [hctx], by simp [hctx], by simp, ?_, ?_, by simp [hstate], h.ok_reached⟩
    · exact fun r hr => List.mem_cons_of_mem _ (h.returned_started r hr)
    · intro r hr hmem
      rw [List.mem_singleton] at hmem
      exact hnew (hmem ▸ h.returned_started r hr)

theorem Owned.poll (h : Owned s) {call : ℕ} (hs : step (.poll call) s = some s') :
    Owned s' := by
  simp only [step] at hs
  split_ifs at hs with hin
  obtain ⟨-, hinside, -⟩ | ⟨t, ht, hinside⟩ := inside_cases h
  · simp [hinside] at hin
  obtain rfl : call = t.steps := by simpa [hinside] using hin
  rcases pollTransaction_cases s.bus with ⟨-, heq⟩ |
    ⟨bus', outcome, heq, hctx, hstate, hdone, hok⟩ <;> rw [heq] at hs <;> cases hs
  · exact h
  · simp only [System.leave, hinside, List.erase_cons_head]
    refine ⟨by simp [hctx], fun _ => hstate ▸ hdone, by simp, ?_, by simp, by simp [hctx], ?_⟩
    · intro r hr
      rcases List.mem_cons.mp hr with rfl | hr
      · exact h.inside_started _ hin
      · exact h.returned_started r hr
    · intro c hc
      rcases List.mem_cons.mp hc with heq | hc
      · obtain ⟨rfl, hout⟩ := Prod.mk.inj heq
        exact h.reached t ht (hok hout.symm)
      · exact h.ok_reached c hc

theorem Owned.event (h : Owned s) {io : Status} (hs : step (.event io) s = some s') :
    Owned s' := by
  obtain ⟨bus', hbus, hs⟩ := Option.bind_eq_some_iff.mp hs
  cases hs
  rcases interruptHandler_cases hbus with ⟨hnone, rfl⟩ | ⟨t, k, ht, ht', -⟩
  · refine ⟨h.inside, h.idle, h.inside_started, h.returned_started, h.returned_outside, ?_, ?_⟩
    · intro t ht
      rw [hnone] at ht
      cases ht
    · exact fun c hc => List.mem_append_right _ (h.ok_reached c hc)
  · refine ⟨?_, ?_, h.inside_started, h.returned_started, h.returned_outside, ?_, ?_⟩
    · simpa [ht, ht'] using h.inside
    · intro hnone
      rw [ht'] at hnone
      cases hnone
    · intro t' ht'' hdone
      rw [ht', Option.some.injEq] at ht''
      subst ht''
      have hdone : bus'.ctx.state = .done 0 := hdone
      -- either this event was the one, or the state has been `Done(0)` before
      by_cases hbefore : s.bus.ctx.state = .done 0
      · exact List.mem_append_right _ (h.reached t ht hbefore)
      · exact List.mem_append_left _ (by simp [newlyDone, hbefore, hdone, ht])
    · exact fun c hc => List.mem_append_right _ (h.ok_reached c hc)

theorem Owned.error (h : Owned s) : Owned { s with bus := interruptErrorHandler s.bus } where
  inside := h.inside
  idle _ := rfl
  inside_started := h.inside_started
  returned_started := h.returned_started
  returned_outside := h.returned_outside
  reached _ _ hdone := by cases hdone
  ok_reached := h.ok_reached

/-- Step lemma. -/
theorem Owned.step {l : Label} (h : Owned s) (hs : step l s = some s') : Owned s' := by
  cases l with
  | start call deviceAddr => exact h.start hs
  | poll call => exact h.poll hs
  | event io => exact h.event hs
  | error =>
    cases hs
    exact h.error

end Steps

theorem owned_run {periph : Peripheral} {steps : ℕ → List Step} {labels : List Label}
    {s : System} (h : Runs.runs step labels (initial periph steps) = some s) : Owned s :=
  Runs.runs_invariant Owned (fun _ _ _ hinv hs => hinv.step hs)
    (owned_initial periph steps) h

/-- The context has a transaction exactly while one call is between its start and its
return, and it is this call's; an event leaves the steps of every other call alone. A
call is rejected, and then changes nothing, exactly when another one is inside; and it
returns Ok only after the handler has brought its own transaction to `Done(0)`. -/
theorem bus_owned_by_one (periph : Peripheral) (steps : ℕ → List Step) (labels : List Label)
    (s : System) (h : Runs.runs step labels (initial periph steps) = some s) :
    (s.bus.ctx.currentTransaction.isSome ↔ ∃ call, s.inside = [call]) ∧
    (∀ t, s.bus.ctx.currentTransaction = some t → s.inside = [t.steps]) ∧
    s.inside.length ≤ 1 ∧
    (∀ r ∈ s.returned, r.1 ∉ s.inside) ∧
    (∀ io s', step (.event io) s = some s' →
      ∀ call, call ∉ s.inside → s'.bus.steps call = s.bus.steps call) ∧
    (∀ call deviceAddr s', step (.start call deviceAddr) s = some s' →
      if s.inside = [] then s'.inside = [call] ∧ s'.returned = s.returned
      else s'.bus = s.bus ∧ s'.inside = s.inside ∧
        s'.returned = (call, .error ()) :: s.returned) ∧
    (∀ call, (call, .ok ()) ∈ s.returned → call ∈ s.reachedDone) := by
  have hinv := owned_run h
  refine ⟨?_, ?_, ?_, hinv.returned_outside, ?_, ?_, hinv.ok_reached⟩
  · rcases inside_cases hinv with ⟨hnone, hinside, -⟩ | ⟨t, ht, hinside⟩
    · simp [hnone, hinside]
    · simp [ht, hinside]
  · intro t ht
    rw [hinv.inside, ht]
    rfl
  · rcases inside_cases hinv with ⟨-, hinside, -⟩ | ⟨t, -, hinside⟩ <;> simp [hinside]
  · intro io s' hs call hout
    obtain ⟨bus', hbus, hs⟩ := Option.bind_eq_some_iff.mp hs
    cases hs
    rcases interruptHandler_cases hbus with ⟨-, rfl⟩ | ⟨t, k, ht, -, hsame⟩
    · rfl
    · refine hsame call fun heq => hout ?_
      rw [hinv.inside, ht, heq]
      exact List.mem_singleton_self _
  · intro call deviceAddr s' hs
    obtain ⟨-, ⟨hinside, rfl⟩ | ⟨bus', hinside, -, -, rfl⟩⟩ := step_start hinv hs
    · rw [if_neg hinside]
      exact ⟨rfl, rfl, rfl⟩
    · rw [if_pos hinside]
      exact ⟨rfl, rfl⟩

/-- An error while idle, a call that a second one cannot disturb, and a third one. -/
def threeCalls : List Label :=
  let status : Status := ⟨0xffff, 0xffff, 0xffff, 0xffff, 0xffff, 0xffff, 0xffff, 0, 0⟩
  [.error, .start 0 0x77, .event status, .start 1 0x39, .poll 0, .event status, .event status,
    .poll 0, .error, .start 2 0x39]

theorem owned_by_third_call : ∃ s, Runs.runs step threeCalls
    (initial .i2c1 fun _ => [.write [0xaa]]) = some s ∧ s.inside = [2] ∧
      s.returned = [(0, .ok ()), (1, .error ())] ∧ 0 ∈ s.reachedDone := by
  have hrun : (Runs.runs step threeCalls (initial .i2c1 fun _ => [.write [0xaa]])).map
      (fun s => (s.inside, s.returned)) = some ([2], [(0, .ok ()), (1, .error ())]) := by
    decide +kernel
  obtain ⟨s, hs, heq⟩ := Option.map_eq_some_iff.mp hrun
  obtain ⟨hinside, hreturned⟩ := Prod.mk.inj heq
  obtain ⟨-, -, -, -, -, -, hok⟩ :=
    bus_owned_by_one .i2c1 (fun _ => [.write [0xaa]]) threeCalls s hs
  exact ⟨s, hs, hinside, hreturned, hok 0 (by rw [hreturned]; exact List.mem_cons_self)⟩

end Ratfist.I2cOwnership
