import Ratfist.LengthLimits
import Ratfist.Runs
import Ratfist.TransmitQueue

/-!
The transmit worker without producers. A message that cannot be sent puts an error
into the dispatcher's own queue, so that the number of queued items need not go down;
with messages counted twice it does. The history keeps what each call took and did.
-/
namespace Ratfist.TransmitDrains

open CString Constants Subsystem RoutingOutcomes Transmit LengthLimits QueueScan TransmitQueue
  Runs

variable {n : ℕ} {σ μ δ : Type}

/-- One entry for each call: the item and what was done with it. -/
abbrev History (μ : Type) := List (Option (Item μ) × List (Call μ))

/-- One call of the worker; `taken` is what the transmit buffer accepts. -/
def txStep (subsystems : List (SubsystemMessageConf σ μ δ)) (call : Vector Byte n × ℕ)
    (s : TxWorkerContext σ μ δ × History μ) : Option (TxWorkerContext σ μ δ × History μ) :=
  match checkOutgoingQueue call.1 call.2 subsystems s.1 with
  | some (.ok (ctx, item, calls)) => some (ctx, s.2 ++ [(item, calls)])
  | _ => none

def History.taken {α : Type} (pick : Item μ → Option α) (h : History μ) : List α :=
  h.filterMap fun entry => entry.1.bind pick

def History.freed (h : History μ) : List μ := h.flatMap fun entry => Call.freed entry.2

/-- The codes given to the dispatcher's queue, whether it took them or not. -/
def History.codes (h : History μ) : List ℤ := h.flatMap fun entry => Call.codes entry.2

def ownErrorOf : Item μ → Option ℤ
  | .ownError code => some code
  | _ => none

def subsystemErrorOf (q : ℕ) : Item μ → Option ℤ
  | .subsystemError q' code => if q' = q then some code else none
  | _ => none

def messageOf (q : ℕ) : Item μ → Option μ
  | .message q' msg => if q' = q then some msg else none
  | _ => none

def anyMessage : Item μ → Option μ
  | .message _ msg => some msg
  | _ => none

/-- What has been taken from a queue and what is left there is what was there, in order;
the dispatcher's own queue has got codes besides. -/
structure Conserved (start ctx : TxWorkerContext σ μ δ) (h : History μ) : Prop where
  messages : ∀ q, h.taken (messageOf q) ++ (ctx.mailboxes q).items = (start.mailboxes q).items
  subsystemErrors : ∀ q,
    h.taken (subsystemErrorOf q) ++ (ctx.errMailboxes q).items = (start.errMailboxes q).items
  ownErrors : ∃ accepted, List.Sublist accepted h.codes ∧
    h.taken ownErrorOf ++ ctx.errMsgQueue.items = start.errMsgQueue.items ++ accepted
  freed : h.freed = h.taken anyMessage

def errorsWaiting (subsystems : List (SubsystemMessageConf σ μ δ))
    (ctx : TxWorkerContext σ μ δ) : ℕ :=
  ctx.errMsgQueue.items.length + waiting SubsystemMessageConf.outgoingErrQueue
    (fun box : Mailbox ℤ => box.items.length) ctx.errMailboxes subsystems

def messagesWaiting (subsystems : List (SubsystemMessageConf σ μ δ))
    (ctx : TxWorkerContext σ μ δ) : ℕ :=
  waiting SubsystemMessageConf.outgoingMsgQueue
    (fun box : Mailbox μ => box.items.length) ctx.mailboxes subsystems

/-- A message may leave an error behind, so it counts twice. -/
def load (subsystems : List (SubsystemMessageConf σ μ δ)) (ctx : TxWorkerContext σ μ δ) : ℕ :=
  errorsWaiting subsystems ctx + 2 * messagesWaiting subsystems ctx

variable {subsystems : List (SubsystemMessageConf σ μ δ)}

theorem load_eq_zero {ctx : TxWorkerContext σ μ δ} :
    load subsystems ctx = 0 ↔ AllEmpty subsystems ctx := by
  have hboth : load subsystems ctx = 0 ↔ (ctx.errMsgQueue.items.length = 0 ∧
      waiting SubsystemMessageConf.outgoingErrQueue
        (fun box : Mailbox ℤ => box.items.length) ctx.errMailboxes subsystems = 0) ∧
      waiting SubsystemMessageConf.outgoingMsgQueue
        (fun box : Mailbox μ => box.items.length) ctx.mailboxes subsystems = 0 := by
    unfold load errorsWaiting messagesWaiting
    omega
  rw [hboth]
  simp only [waiting_eq_zero, List.length_eq_zero_iff, AllEmpty, ErrorsEmpty]

theorem write_items (q : Mailbox ℤ) (code : ℤ) :
    (q.write code).2.items = q.items ∨ (q.write code).2.items = q.items ++ [code] := by
  unfold Mailbox.write
  split_ifs
  · exact Or.inl rfl
  · exact Or.inr rfl

/-- Step lemma for the measure. -/
theorem load_le_of_serves {ctx ctx' : TxWorkerContext σ μ δ} {item : Option (Item μ)}
    {calls : List (Call μ)} (h : Serves n subsystems ctx ctx' item calls) :
    load subsystems ctx' ≤ load subsystems ctx - 1 := by
  cases h with
  | sleep hempty =>
    rw [load_eq_zero.mpr hempty]
  | ownError code mailbox calls hitems =>
    have hlen : ctx.errMsgQueue.items.length = mailbox.items.length + 1 := by
      rw [hitems, List.length_cons]
    simp only [load, errorsWaiting, messagesWaiting]
    omega
  | subsystemError q code mailbox calls hlisted hown hitems =>
    have hcount : waiting SubsystemMessageConf.outgoingErrQueue
        (fun box : Mailbox ℤ => box.items.length) ctx.errMailboxes subsystems =
        waiting SubsystemMessageConf.outgoingErrQueue (fun box : Mailbox ℤ => box.items.length)
          (Function.update ctx.errMailboxes q mailbox) subsystems + 1 :=
      waiting_take hlisted (by rw [hitems, List.length_cons])
    simp only [load, errorsWaiting, messagesWaiting]
    omega
  | message q msg mailbox w calls hlisted herrors hitems hmailboxes hfreed hcodes =>
    have hcount : waiting SubsystemMessageConf.outgoingMsgQueue
        (fun box : Mailbox μ => box.items.length) ctx.mailboxes subsystems =
        waiting SubsystemMessageConf.outgoingMsgQueue (fun box : Mailbox μ => box.items.length)
          (Function.update ctx.mailboxes q mailbox) subsystems + 1 :=
      waiting_take hlisted (by rw [hitems, List.length_cons])
    have hown : w.errMsgQueue.items.length ≤ ctx.errMsgQueue.items.length + 1 := by
      rcases hcodes with ⟨-, hsame⟩ | ⟨code, -, hwrite⟩
      · rw [hsame]
        exact Nat.le_succ _
      · rw [hwrite]
        rcases write_items ctx.errMsgQueue code with hfull | hmore
        · rw [hfull]
          exact Nat.le_succ _
        · rw [hmore, List.length_append, List.length_singleton]
    simp only [load, errorsWaiting, messagesWaiting, hmailboxes]
    omega

theorem taken_append {α : Type} (pick : Item μ → Option α) (h : History μ)
    (item : Option (Item μ)) (calls : List (Call μ)) :
    History.taken pick (h ++ [(item, calls)]) = h.taken pick ++ (item.bind pick).toList := by
  rw [History.taken, List.filterMap_append]
  cases hpick : item.bind pick <;> simp [History.taken, hpick]

theorem freed_append (h : History μ) (item : Option (Item μ)) (calls : List (Call μ)) :
    History.freed (h ++ [(item, calls)]) = h.freed ++ Call.freed calls := by
  simp [History.freed]

theorem codes_append (h : History μ) (item : Option (Item μ)) (calls : List (Call μ)) :
    History.codes (h ++ [(item, calls)]) = h.codes ++ Call.codes calls := by
  simp [History.codes]

/-- Taking the head of one queue moves it from the queue to what was taken. -/
theorem take_head {α : Type} {boxes : ℕ → Mailbox α} {start : List α} {before : List α} {q q' : ℕ}
    {x : α} {mailbox : Mailbox α} (hitems : (boxes q).items = x :: mailbox.items)
    (h : before ++ (boxes q').items = start) :
    before ++ (if q = q' then some x else none).toList ++
      (Function.update boxes q mailbox q').items = start := by
  by_cases hq : q = q'
  · subst hq
    rw [if_pos rfl, Function.update_self, ← h, hitems, List.append_assoc]
    rfl
  · rw [if_neg hq, Function.update_of_ne (Ne.symm hq), ← h, Option.toList_none, List.append_nil]

/-- Step lemma for what is conserved. -/
theorem conserved_step {start ctx ctx' : TxWorkerContext σ μ δ} {h : History μ}
    {item : Option (Item μ)} {calls : List (Call μ)} (hs : Conserved start ctx h)
    (hserves : Serves n subsystems ctx ctx' item calls) :
    Conserved start ctx' (h ++ [(item, calls)]) := by
  obtain ⟨accepted, hsub, hown⟩ := hs.ownErrors
  cases hserves with
  | sleep hempty =>
    refine ⟨?_, ?_, ⟨accepted, ?_, ?_⟩, ?_⟩
    · simpa [taken_append] using hs.messages
    · simpa [taken_append] using hs.subsystemErrors
    · simpa [codes_append, Call.codes] using hsub
    · simpa [taken_append] using hown
    · simpa [taken_append, freed_append, Call.freed] using hs.freed
  | ownError code mailbox calls hitems hfreed hcodes =>
    refine ⟨?_, ?_, ⟨accepted, ?_, ?_⟩, ?_⟩
    · simpa [taken_append, messageOf] using hs.messages
    · simpa [taken_append, subsystemErrorOf] using hs.subsystemErrors
    · simpa [codes_append, hcodes] using hsub
    · rw [hitems] at hown
      simpa [taken_append, ownErrorOf] using hown
    · simpa [taken_append, freed_append, hfreed, anyMessage] using hs.freed
  | subsystemError q code mailbox calls hlisted hempty hitems hfreed hcodes =>
    refine ⟨?_, ?_, ⟨accepted, ?_, ?_⟩, ?_⟩
    · simpa [taken_append, messageOf] using hs.messages
    · intro q'
      rw [taken_append]
      exact take_head hitems (hs.subsystemErrors q')
    · simpa [codes_append, hcodes] using hsub
    · simpa [taken_append, ownErrorOf] using hown
    · simpa [taken_append, freed_append, hfreed, anyMessage] using hs.freed
  | message q msg mailbox w calls hlisted herrors hitems hmailboxes hfreed hcodes =>
    refine ⟨?_, ?_, ?_, ?_⟩
    · intro q'
      rw [taken_append, hmailboxes]
      exact take_head hitems (hs.messages q')
    · simpa [taken_append, subsystemErrorOf] using hs.subsystemErrors
    · rcases hcodes with ⟨hnone, hsame⟩ | ⟨code, hone, hwrite⟩
      · refine ⟨accepted, by simpa [codes_append, hnone] using hsub, ?_⟩
        simpa [taken_append, ownErrorOf, hsame] using hown
      · simp only [codes_append, hone, taken_append, ownErrorOf, Option.bind_some,
          Option.toList_none, List.append_nil, hwrite]
        rcases write_items ctx.errMsgQueue code with hfull | hmore
        · exact ⟨accepted, hsub.trans (List.sublist_append_left _ _), by rw [hfull, hown]⟩
        · refine ⟨accepted ++ [code], hsub.append (List.Sublist.refl _), ?_⟩
          rw [hmore, ← List.append_assoc, hown, List.append_assoc]
    · simpa [taken_append, freed_append, hfreed, anyMessage] using hs.freed

/-- With nothing to send a call only sleeps. -/
theorem sleeps_of_empty {ctx ctx' : TxWorkerContext σ μ δ} {item : Option (Item μ)}
    {calls : List (Call μ)} (h : Serves n subsystems ctx ctx' item calls)
    (hempty : AllEmpty subsystems ctx) : ctx' = ctx ∧ item = none ∧ calls = [] := by
  obtain ⟨⟨hown, herrors⟩, hmessages⟩ := hempty
  cases h with
  | sleep _ => exact ⟨rfl, rfl, rfl⟩
  | ownError code mailbox calls hitems =>
    rw [hown] at hitems
    cases hitems
  | subsystemError q code mailbox calls hlisted _ hitems =>
    rw [herrors q hlisted] at hitems
    cases hitems
  | message q msg mailbox w calls hlisted _ hitems =>
    rw [hmessages q hlisted] at hitems
    cases hitems

/-- The worker is never stuck, and the history gets one entry for each call. -/
theorem txStep_serves (hn : 1 < n) (hfree : CanFree subsystems)
    (hbounded : ∀ conf ∈ subsystems, Bounded conf) (call : Vector Byte n × ℕ)
    (s : TxWorkerContext σ μ δ × History μ) :
    ∃ ctx item calls, txStep subsystems call s = some (ctx, s.2 ++ [(item, calls)]) ∧
      Serves n subsystems s.1 ctx item calls := by
  obtain ⟨ctx, item, calls, hcheck, hserves⟩ :=
    checkOutgoingQueue_serves hn call.1 call.2 hfree hbounded s.1
  exact ⟨ctx, item, calls, by simp only [txStep, hcheck], hserves⟩

/-- Run lemma: any number of calls is made, each lowers the load, nothing gets lost. -/
theorem txRun (hn : 1 < n) (hfree : CanFree subsystems)
    (hbounded : ∀ conf ∈ subsystems, Bounded conf) (start : TxWorkerContext σ μ δ)
    (calls : List (Vector Byte n × ℕ)) :
    ∃ ctx h, runs (txStep subsystems) calls (start, []) = some (ctx, h) ∧
      h.length = calls.length ∧ Conserved start ctx h ∧
      load subsystems ctx ≤ load subsystems start - calls.length := by
  have hinit : Conserved start start ([] : History μ) :=
    ⟨fun _ => rfl, fun _ => rfl, ⟨[], List.Sublist.refl _, by simp [History.taken]⟩, rfl⟩
  have hstep (call : Vector Byte n × ℕ) (s t : TxWorkerContext σ μ δ × History μ)
      (h : txStep subsystems call s = some t) : ∃ item made,
        t.2 = s.2 ++ [(item, made)] ∧ Serves n subsystems s.1 t.1 item made := by
    obtain ⟨ctx, item, made, hmade, hserves⟩ := txStep_serves hn hfree hbounded call s
    rw [hmade] at h
    cases h
    exact ⟨item, made, rfl, hserves⟩
  have htotal : ∃ t, runs (txStep (n := n) subsystems) calls (start, []) = some t ∧
      Conserved start t.1 t.2 := by
    refine runs_total (fun call s hs => ?_) calls hinit
    obtain ⟨ctx, item, made, hmade, hserves⟩ := txStep_serves hn hfree hbounded call s
    exact ⟨_, hmade, conserved_step hs hserves⟩
  obtain ⟨⟨ctx, h⟩, hrun, hconserved⟩ := htotal
  refine ⟨ctx, h, hrun, ?_, hconserved, ?_⟩
  · have hcount := runs_count (fun s => s.2.length) (fun call s t hst => by
      obtain ⟨item, made, hmade, -⟩ := hstep call s t hst
      rw [hmade, List.length_append, List.length_singleton]) hrun
    simpa using hcount
  · refine runs_measure (fun s => load subsystems s.1) (fun call s t hst => ?_) hrun
    obtain ⟨item, made, -, hserves⟩ := hstep call s t hst
    exact load_le_of_serves hserves

/-- Whatever serializers and transmit buffer do, after so many calls as there are errors
and twice as there are messages nothing is left, and everything taken has been treated
once and in order. -/
theorem transmit_worker_drains (b : Board) (hfree : CanFree subsystems)
    (hbounded : ∀ conf ∈ subsystems, Bounded conf) (start : TxWorkerContext σ μ δ)
    (calls : List (Vector Byte b.bspMaxMessageLength × ℕ)) :
    ∃ ctx h, runs (txStep subsystems) calls (start, []) = some (ctx, h) ∧
      h.length = calls.length ∧ Conserved start ctx h ∧
      (∀ (buf : Vector Byte b.bspMaxMessageLength) (taken : ℕ), ∃ ctx' item made,
        checkOutgoingQueue buf taken subsystems ctx = some (.ok (ctx', item, made)) ∧
        Serves b.bspMaxMessageLength subsystems ctx ctx' item made) ∧
      (errorsWaiting subsystems start + 2 * messagesWaiting subsystems start ≤ calls.length →
        AllEmpty subsystems ctx ∧
        ∀ (buf : Vector Byte b.bspMaxMessageLength) (taken : ℕ),
          checkOutgoingQueue buf taken subsystems ctx = some (.ok (ctx, none, []))) := by
  have hn : 1 < b.bspMaxMessageLength := by cases b <;> decide
  obtain ⟨ctx, h, hrun, hlen, hconserved, hload⟩ := txRun hn hfree hbounded start calls
  have hserves (buf : Vector Byte b.bspMaxMessageLength) (taken : ℕ) :=
    checkOutgoingQueue_serves hn buf taken hfree hbounded ctx
  refine ⟨ctx, h, hrun, hlen, hconserved, hserves, ?_⟩
  intro hlong
  have hzero : load subsystems ctx = 0 := by
    have : load subsystems start ≤ calls.length := hlong
    omega
  have hempty := load_eq_zero.mp hzero
  refine ⟨hempty, ?_⟩
  intro buf taken
  obtain ⟨ctx', item, made, hcheck, hone⟩ := hserves buf taken
  obtain ⟨rfl, rfl, rfl⟩ := sleeps_of_empty hone hempty
  exact hcheck

section TestRegistry

def fakeContext : TxWorkerContext (List ℕ) ℕ Unit :=
  ⟨⟨[4, 5], fun _ => ⟨0, 0, ()⟩, fun q => ⟨10, if q = 1 then [6, 7] else []⟩, ⟨10, [-1]⟩⟩,
    fun q => ⟨10, if q = 2 then [-2] else []⟩⟩

theorem fakeConf_canFree (text : List Byte) : CanFree [fakeConf text] := by
  intro conf hconf _
  rw [List.mem_singleton.mp hconf]
  rfl

theorem fakeConf_bounded (text : List Byte) : ∀ conf ∈ [fakeConf text], Bounded conf := by
  intro conf hconf handler hhandler f hf msg room env
  rw [List.mem_singleton.mp hconf] at hhandler
  rw [List.mem_singleton.mp hhandler] at hf
  cases hf
  exact List.length_take_le _ _

theorem fake_queues_drained : ∃ ctx h,
    runs (txStep [fakeConf []]) (List.replicate 6
        (Vector.replicate Board.stm32f072discovery.bspMaxMessageLength 0, 0)) (fakeContext, []) =
      some (ctx, h) ∧ h.length = 6 ∧ Conserved fakeContext ctx h ∧
    AllEmpty [fakeConf []] ctx := by
  obtain ⟨ctx, h, hrun, hlen, hconserved, -, hempty⟩ := transmit_worker_drains
    .stm32f072discovery (fakeConf_canFree []) (fakeConf_bounded []) fakeContext
    (List.replicate 6 (Vector.replicate Board.stm32f072discovery.bspMaxMessageLength 0, 0))
  exact ⟨ctx, h, hrun, hlen, hconserved, (hempty (by decide)).1⟩

end TestRegistry

end Ratfist.TransmitDrains
