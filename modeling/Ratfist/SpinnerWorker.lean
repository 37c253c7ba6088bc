import Ratfist.SpinnerSystem

/-!
The spinner's worker in one go: `spinner_comm_loop` on what the dispatcher and the spinner
share, with the wrapper that allocates a reply and gives a request back. It does what the
worker's steps do when no other task comes in between.
-/
namespace Ratfist.SpinnerWorker

open Constants Subsystem SpinnerMessages SpinnerChannel SpinnerPools SpinnerSystem Runs

variable {F : Type} {n : ℕ}

def shared (w : World (Memory n F) ℕ DataPtr) : Memory n F := { w.env with messages := w.messages }

def withMemory (w : World (Memory n F) ℕ DataPtr) (mem : Memory n F) :
    World (Memory n F) ℕ DataPtr :=
  { w with env := mem, messages := mem.messages }

/-- `MessageWrapper::drop`. -/
def dropWrapper (msg : ℕ) (w : World (Memory n F) ℕ DataPtr) : World (Memory n F) ℕ DataPtr :=
  withMemory w (spinnerFreeMessage msg (w.messages msg) (shared w))

@[simp] theorem dropWrapper_mailboxes (msg : ℕ) (w : World (Memory n F) ℕ DataPtr) :
    (dropWrapper msg w).mailboxes = w.mailboxes := rfl

/-- The three send functions: `MessageWrapper::new`, the payload and the write to the outgoing
queue, whose result is not looked at. Without a block for the reply nothing is sent. -/
def sendReply (c : Channel F) (transId : ℕ) (reply : Reply) (w : World (Memory n F) ℕ DataPtr) :
    Option (World (Memory n F) ℕ DataPtr) :=
  match spinnerAllocMessage reply.msgType (shared w) with
  | (none, mem) => some (withMemory w mem)
  | (some (msg, _), mem) => do
    let mem := mem.setMessage msg { mem.messages msg with transactionId := transId }
    let payload ← reply.fill c (mem.block msg)
    let w := withMemory w (mem.setPayload msg payload)
    some { w with
      mailboxes := Function.update w.mailboxes 1 ((w.mailboxes 1).write msg).2 }

/-- `spinner_comm_loop`; `none` is a panic. -/
def spinnerCommLoop (channels : Channels F) (w : World (Memory n F) ℕ DataPtr) :
    Option (Channels F × World (Memory n F) ℕ DataPtr) :=
  match (w.mailboxes 0).read with
  | none => some (channels, w)
  | some (req, mailbox) =>
    let w := { w with mailboxes := Function.update w.mailboxes 0 mailbox }
    match messageOf (shared w) req with
    | none => some (channels, dropWrapper req w)
    | some msg => do
      match ← handleMessage channels msg with
      | (channels, none) => some (channels, dropWrapper req w)
      | (channels, some (c, reply)) =>
        let w ← sendReply c (w.messages req).transactionId reply w
        some (channels, dropWrapper req w)

section Refinement

variable {b : Board} (queues : Queues b)

/-- What the spinner's worker sees when it has nothing under way. -/
structure Shares (w : World (Memory n F) ℕ DataPtr) (channels : Channels F) (s : State n F) :
    Prop where
  mem : s.mem = shared w
  incoming : w.mailboxes 0 = ⟨queues.incoming, s.incoming⟩
  outgoing : w.mailboxes 1 = ⟨queues.outgoing, s.outgoing⟩
  channels : s.channels = channels
  idle : s.comm = .idle

theorem reply_pool (reply : Reply) : ∃ pool, dataPoolOf reply.msgType = some pool := by
  cases reply with
  | spinPlanReply => exact ⟨.plans, rfl⟩
  | spinStateReply => exact ⟨.smalls, rfl⟩
  | returnVal v => exact ⟨.smalls, rfl⟩

/-- The allocation of a reply without interruption. -/
theorem alloc_reaches {s : State n F} (req : ℕ) (c : Channel F) (reply : Reply)
    (htyped : ∀ pool, ∀ d ∈ s.mem.dataPool pool, d.pool = pool) :
    Reaches (commStep queues) { s with comm := .alloc req c reply .takeMsg }
      { s with
        mem := (spinnerAllocMessage reply.msgType s.mem).2
        comm := (spinnerAllocMessage reply.msgType s.mem).1.elim (.drop (.giveData req))
          fun block => .fill req c reply block.1
        calls := List.modifyHead (fun call => { call with
          blocks := some (spinnerAllocMessage reply.msgType s.mem).1.isSome }) s.calls } := by
  obtain ⟨pool, hpool⟩ := reply_pool reply
  rcases hmsg : s.mem.msgPool with _ | ⟨ret, msgPool⟩
  · have hnull : spinnerAllocMessage reply.msgType s.mem = (none, s.mem) := by
      simp [spinnerAllocMessage, hmsg]
    rw [hnull]
    exact .single (l := 0) (by simp [commStep, allocStep, hmsg])
  have htake : Reaches (commStep queues) { s with comm := .alloc req c reply .takeMsg }
      { s with
        mem := { s.mem with msgPool := msgPool }
        comm := .alloc req c reply (.takeData ret) } :=
    .single (l := ret) (by simp [commStep, allocStep, hmsg])
  refine htake.trans ?_
  rcases hdata : s.mem.dataPool pool with _ | ⟨data, rest⟩
  · have hnull : spinnerAllocMessage reply.msgType s.mem = (none, s.mem) := by
      simp only [spinnerAllocMessage, hmsg, hpool, hdata]
      rw [← hmsg]
    rw [hnull]
    refine ⟨[0, 0], ?_⟩
    simp [runs, commStep, allocStep, hpool, hdata, ← hmsg]
  · have hptr : (⟨pool, data.idx⟩ : DataPtr) = data := by
      rw [← htyped pool data (by simp [hdata])]
    have hdone : spinnerAllocMessage reply.msgType s.mem =
        (some (ret, ⟨reply.msgType, 0, data⟩), (({ s.mem with msgPool := msgPool } :
          Memory n F).setDataPool pool rest).setMessage ret ⟨reply.msgType, 0, data⟩) := by
      simp only [spinnerAllocMessage, hmsg, hpool, hdata]
    rw [hdone]
    exact .single (l := data.idx) (by simp [commStep, allocStep, hpool, hdata, hptr])

theorem shared_dropWrapper (msg : ℕ) (w : World (Memory n F) ℕ DataPtr) :
    shared (dropWrapper msg w) = spinnerFreeMessage msg (w.messages msg) (shared w) := by
  unfold dropWrapper withMemory shared spinnerFreeMessage
  cases dataPoolOf (w.messages msg).type <;> rfl

/-- The end of the request's wrapper without interruption. -/
theorem drop_reaches (s : State n F) (w : World (Memory n F) ℕ DataPtr) {req : ℕ}
    {pool : DataPool} (hpool : dataPoolOf (w.messages req).type = some pool) :
    Reaches (commStep queues) { s with mem := shared w, comm := .drop (.giveData req) }
      { s with mem := shared (dropWrapper req w), comm := .idle } := by
  rw [shared_dropWrapper]
  have hpool' : dataPoolOf ((shared w).messages req).type = some pool := hpool
  refine ⟨[0, 0], ?_⟩
  simp only [runs, commStep, freeStep, hpool', Option.bind_some, spinnerFreeMessage, hpool,
    Memory.setDataPool]
  rfl

theorem spinnerAllocMessage_cases (msgTypeId : ℕ) (mem : Memory n F) :
    (spinnerAllocMessage msgTypeId mem).1 = none ∧
        (spinnerAllocMessage msgTypeId mem).2.messages = mem.messages ∨
      ∃ msg content, spinnerAllocMessage msgTypeId mem =
          (some (msg, content), (spinnerAllocMessage msgTypeId mem).2) ∧
        msg ∈ mem.msgPool ∧ (spinnerAllocMessage msgTypeId mem).2.messages =
          Function.update mem.messages msg content := by
  unfold spinnerAllocMessage
  rcases mem.msgPool with _ | ⟨ret, msgPool⟩
  · exact Or.inl ⟨rfl, rfl⟩
  cases dataPoolOf msgTypeId with
  | none => exact Or.inl ⟨rfl, rfl⟩
  | some pool =>
    simp only
    rcases mem.dataPool pool with _ | ⟨data, rest⟩
    · exact Or.inl ⟨rfl, rfl⟩
    · exact Or.inr ⟨ret, _, rfl, List.mem_cons_self, rfl⟩

theorem setPayload_messages (mem : Memory n F) (msg : ℕ) (payload : SpinnerMessage n F) :
    (mem.setPayload msg payload).messages = mem.messages := by
  cases payload <;> rfl

/-- The types of messages are known, so that they can be given back. -/
theorem spinnerFreeMessage_pool {mem : Memory n F} {req : ℕ} {msg : SpinnerMessage n F}
    (h : messageOf mem req = some msg) :
    ∃ pool, dataPoolOf (mem.messages req).type = some pool := by
  unfold messageOf at h
  simp only at h
  generalize (mem.messages req).type = type at h ⊢
  have hknown : ∀ type ∈ [setPlan, getPlan, planReply, setState, getState, stateReply, retVal],
      (dataPoolOf type).isSome := by decide
  apply Option.isSome_iff_exists.mp
  apply hknown
  by_contra hnot
  simp only [List.mem_cons, List.not_mem_nil, or_false, not_or] at hnot
  obtain ⟨h0, h1, h2, h3, h4, h5, h6⟩ := hnot
  simp [h0, h1, h2, h3, h4, h5, h6] at h

variable {queues} {w w' : World (Memory n F) ℕ DataPtr} {s : State n F}

/-- From the allocation of a reply to the end of the request's wrapper. -/
theorem reply_reaches (s : State n F) {transId req : ℕ} {c : Channel F} {reply : Reply}
    (houtgoing : w.mailboxes 1 = ⟨queues.outgoing, s.outgoing⟩)
    (htid : (w.messages req).transactionId = transId) (hfresh : req ∉ w.env.msgPool)
    (htyped : ∀ pool, ∀ d ∈ w.env.dataPool pool, d.pool = pool)
    (h : sendReply c transId reply w = some w') :
    ∃ outgoing calls, Reaches (commStep queues)
        { s with mem := shared w, comm := .alloc req c reply .takeMsg }
        { s with
          mem := shared w', outgoing := outgoing, comm := .drop (.giveData req), calls := calls } ∧
      w'.mailboxes 0 = w.mailboxes 0 ∧ w'.mailboxes 1 = ⟨queues.outgoing, outgoing⟩ ∧
      w'.messages req = w.messages req := by
  have halloc := alloc_reaches queues (s := { s with mem := shared w }) req c reply htyped
  unfold sendReply at h
  rcases spinnerAllocMessage_cases reply.msgType (shared w) with ⟨hnone, hsame⟩ |
    ⟨msg, content, hsome, hpool, hmessages⟩
  · rcases hres : spinnerAllocMessage reply.msgType (shared w) with ⟨res, mem⟩
    rw [hres] at hnone hsame h halloc
    simp only at hnone
    subst hnone
    cases h
    exact ⟨s.outgoing, _, halloc, rfl, houtgoing, congrFun hsame req⟩
  · rcases hres : spinnerAllocMessage reply.msgType (shared w) with ⟨res, mem⟩
    rw [hres] at hsome hmessages h halloc
    cases hsome
    simp only [Option.elim_some] at halloc
    obtain ⟨payload, hfill, h⟩ := Option.bind_eq_some_iff.mp h
    generalize hmem' : (mem.setMessage msg { mem.messages msg with
      transactionId := transId }).setPayload msg payload = mem' at h
    cases h
    have hother : req ≠ msg := by
      rintro rfl
      exact hfresh hpool
    have hmessage : mem.messages req = w.messages req := by
      rw [hmessages]
      exact Function.update_of_ne hother _ _
    have htransId : (mem.messages req).transactionId = transId := by rw [hmessage, htid]
    have hreq : mem'.messages req = w.messages req := by
      rw [← hmem', setPayload_messages, Memory.setMessage, ← hmessage]
      exact Function.update_of_ne hother _ _
    generalize List.modifyHead _ s.calls = calls at halloc
    have hfilled := halloc.trans (.single (l := 0) (t := { s with
      mem := mem', comm := .send req msg, calls := calls }) (by
        simp only [commStep, htransId, hfill, hmem']))
    by_cases hroom : s.outgoing.length < queues.outgoing
    · have hnot : ¬ queues.outgoing ≤ s.outgoing.length := by omega
      refine ⟨s.outgoing ++ [msg], List.modifyHead (fun call => { call with
        sent := call.sent ++ [((mem'.messages msg).type, (mem'.messages msg).transactionId)] })
          calls, hfilled.trans (.single (l := 0) ?_), rfl, ?_, hreq⟩
      · simp only [commStep, hroom, if_true]
        rfl
      · simp [withMemory, houtgoing, Mailbox.write, Mailbox.full, hnot]
    · have hfull : queues.outgoing ≤ s.outgoing.length := by omega
      refine ⟨s.outgoing, calls, hfilled.trans (.single (l := 0) ?_), rfl, ?_, hreq⟩
      · simp only [commStep, hroom, if_false]
        rfl
      · simp [withMemory, houtgoing, Mailbox.write, Mailbox.full, hfull]

/-- `spinner_comm_loop` is the worker's steps without interruption. -/
theorem serve_refines {channels channels' : Channels F} (hs : Shares queues w channels s)
    (hfresh : ∀ req ∈ s.incoming, req ∉ w.env.msgPool ∧ (messageOf (shared w) req).isSome)
    (htyped : ∀ pool, ∀ d ∈ w.env.dataPool pool, d.pool = pool)
    (h : spinnerCommLoop channels w = some (channels', w')) :
    ∃ s', Reaches (commStep queues) s s' ∧ Shares queues w' channels' s' ∧
      s'.rx = s.rx ∧ s'.tx = s.tx := by
  obtain ⟨hmem, hincoming, houtgoing, hchannels, hidle⟩ := hs
  unfold spinnerCommLoop at h
  rcases hread : (w.mailboxes 0).read with _ | ⟨req, mailbox⟩
  · rw [hread] at h
    cases h
    exact ⟨s, .refl s, ⟨hmem, hincoming, houtgoing, hchannels, hidle⟩, rfl, rfl⟩
  obtain ⟨hitems, hcapacity⟩ := Mailbox.read_eq_some hread
  rw [hincoming] at hitems hcapacity
  have hitems : s.incoming = req :: mailbox.items := hitems
  have hcapacity : mailbox.capacity = queues.incoming := hcapacity
  obtain ⟨hnew, hmsg⟩ := hfresh req (by rw [hitems]; simp)
  obtain ⟨msg, hmsg⟩ := Option.isSome_iff_exists.mp hmsg
  rw [hread] at h
  simp only at h
  obtain ⟨w₁, hw₁⟩ : ∃ w₁, ({ w with mailboxes := Function.update w.mailboxes 0 mailbox } :
      World (Memory n F) ℕ DataPtr) = w₁ := ⟨_, rfl⟩
  rw [hw₁] at h
  have hmem₁ : s.mem = shared w₁ := by rw [hmem, ← hw₁]; rfl
  have hmsg₁ : messageOf (shared w₁) req = some msg := by rw [← hmsg, ← hw₁]; rfl
  have hin₁ : w₁.mailboxes 0 = ⟨queues.incoming, mailbox.items⟩ := by
    rw [← hw₁, ← hcapacity]
    simp
  have hout₁ : w₁.mailboxes 1 = ⟨queues.outgoing, s.outgoing⟩ := by
    rw [← hw₁]
    simpa using houtgoing
  have hnew₁ : req ∉ w₁.env.msgPool := by rw [← hw₁]; exact hnew
  have htyped₁ : ∀ pool, ∀ d ∈ w₁.env.dataPool pool, d.pool = pool := by rw [← hw₁]; exact htyped
  obtain ⟨pool, hpool⟩ := spinnerFreeMessage_pool hmsg₁
  have hstart : Reaches (commStep queues) s
      { s with incoming := mailbox.items, comm := .handle req } :=
    .single (l := 0) (by simp only [commStep, hidle, hitems])
  simp only [hmsg₁] at h
  obtain ⟨⟨next, answer⟩, hhandle, h⟩ := Option.bind_eq_some_iff.mp h
  obtain ⟨s₁, hs₁⟩ : ∃ s₁, ({ s with
      incoming := mailbox.items, channels := next,
      calls := ⟨(s.mem.messages req).type, (s.mem.messages req).transactionId,
        msg.event.map Prod.fst, none, []⟩ :: s.calls } : State n F) = s₁ := ⟨_, rfl⟩
  rcases answer with _ | ⟨c, reply⟩
  · cases h
    have hhandled : Reaches (commStep queues) s
        { s₁ with mem := shared w₁, comm := .drop (.giveData req) } := by
      refine hstart.trans (.single (l := 0) ?_)
      simp only [commStep, hmem₁, hmsg₁, hchannels, hhandle, ← hs₁]
    refine ⟨_, hhandled.trans (drop_reaches queues s₁ w₁ hpool), ⟨rfl, ?_, ?_, ?_, rfl⟩, ?_, ?_⟩
    · simpa [← hs₁] using hin₁
    · simpa [← hs₁] using hout₁
    all_goals rw [← hs₁]
  · obtain ⟨w₂, hsend, h⟩ := Option.bind_eq_some_iff.mp h
    cases h
    have hhandled : Reaches (commStep queues) s
        { s₁ with mem := shared w₁, comm := .alloc req c reply .takeMsg } := by
      refine hstart.trans (.single (l := 0) ?_)
      simp only [commStep, hmem₁, hmsg₁, hchannels, hhandle, ← hs₁]
    obtain ⟨outgoing, calls, hreply, hin₂, hout₂, hreq⟩ := reply_reaches s₁
      (by rw [← hs₁]; exact hout₁) (by rw [← hw₁]) hnew₁ htyped₁ hsend
    have hpool₂ : dataPoolOf (w₂.messages req).type = some pool := by rw [hreq]; exact hpool
    refine ⟨_, (hhandled.trans hreply).trans
      (drop_reaches queues { s₁ with outgoing := outgoing, calls := calls } w₂ hpool₂),
      ⟨rfl, ?_, ?_, ?_, rfl⟩, ?_, ?_⟩
    · simpa [← hs₁, hin₂] using hin₁
    · simpa using hout₂
    all_goals rw [← hs₁]

end Refinement

end Ratfist.SpinnerWorker
