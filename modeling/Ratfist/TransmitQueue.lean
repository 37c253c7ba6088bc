import Ratfist.QueueScan
import Ratfist.Transmit

/-!
`check_outgoing_queue`: one call of the transmit worker. It takes one item from the
first queue that has one (the dispatcher's own errors, the errors of the subsystems,
their messages) and passes over the queues that are NULL.
-/
namespace Ratfist.TransmitQueue

open CString Constants FrameRoundTrip Subsystem Routing Transmit QueueScan

variable {n : ℕ} {σ μ δ : Type}

/-- `struct tx_worker_context`; the error queues of the subsystems hold codes. -/
structure TxWorkerContext (σ μ δ : Type) extends World σ μ δ where
  errMailboxes : ℕ → Mailbox ℤ

inductive Item (μ : Type)
  | ownError (code : ℤ)
  | subsystemError (queue : ℕ) (code : ℤ)
  | message (queue : ℕ) (msg : μ)
deriving DecidableEq, Repr

/-- The context afterwards, the item (`none` when the worker sleeps) and the calls made. -/
abbrev TxResult (σ μ δ : Type) :=
  Except (Fault × List (Call μ)) (TxWorkerContext σ μ δ × Option (Item μ) × List (Call μ))

/-- An error code goes out with a blocking write, or not at all. -/
def sendError (buf : Vector Byte n) (subsystemName : List Byte) (item : Item μ) (code : ℤ)
    (ctx : TxWorkerContext σ μ δ) : Option (TxResult σ μ δ) := do
  let chars ← processOutgoingErrMessage buf subsystemName code
  some (.ok (ctx, some item, chars.toList.map .written))

def sendMessage (buf : Vector Byte n) (taken : ℕ) (conf : SubsystemMessageConf σ μ δ) (q : ℕ)
    (msg : μ) (ctx : TxWorkerContext σ μ δ) : Option (TxResult σ μ δ) := do
  match ← processOutgoingMessage buf taken conf msg ctx.toWorld with
  | .error fault => some (.error fault)
  | .ok (w, calls) => some (.ok ({ ctx with toWorld := w }, some (.message q msg), calls))

def checkOutgoingQueue (buf : Vector Byte n) (taken : ℕ)
    (subsystems : List (SubsystemMessageConf σ μ δ)) (ctx : TxWorkerContext σ μ δ) :
    Option (TxResult σ μ δ) :=
  match ctx.errMsgQueue.read with
  | some (code, mailbox) =>
    sendError buf (ascii "DISPATCHER") (.ownError code) code { ctx with errMsgQueue := mailbox }
  | none =>
    match firstReady SubsystemMessageConf.outgoingErrQueue Mailbox.read ctx.errMailboxes
      subsystems with
    | some (conf, q, code, mailbox) =>
      sendError buf conf.subsystemName (.subsystemError q code) code
        { ctx with errMailboxes := Function.update ctx.errMailboxes q mailbox }
    | none =>
      match firstReady SubsystemMessageConf.outgoingMsgQueue Mailbox.read ctx.mailboxes
        subsystems with
      | some (conf, q, msg, mailbox) =>
        sendMessage buf taken conf q msg
          { ctx with mailboxes := Function.update ctx.mailboxes q mailbox }
      | none => some (.ok (ctx, none, []))

def ErrorsEmpty (subsystems : List (SubsystemMessageConf σ μ δ))
    (ctx : TxWorkerContext σ μ δ) : Prop :=
  ctx.errMsgQueue.items = [] ∧
    ∀ q, Listed SubsystemMessageConf.outgoingErrQueue subsystems q →
      (ctx.errMailboxes q).items = []

def AllEmpty (subsystems : List (SubsystemMessageConf σ μ δ))
    (ctx : TxWorkerContext σ μ δ) : Prop :=
  ErrorsEmpty subsystems ctx ∧
    ∀ q, Listed SubsystemMessageConf.outgoingMsgQueue subsystems q → (ctx.mailboxes q).items = []

/-- What one call does: it sleeps if there is nothing to send, and else removes the head of
one queue. An error is written in full or not at all. A message is freed, at most its frame is
written, and its error, if any, goes to the dispatcher's queue. -/
inductive Serves (n : ℕ) (subsystems : List (SubsystemMessageConf σ μ δ))
    (ctx : TxWorkerContext σ μ δ) :
    TxWorkerContext σ μ δ → Option (Item μ) → List (Call μ) → Prop
  | sleep (hempty : AllEmpty subsystems ctx) : Serves n subsystems ctx ctx none []
  | ownError (code : ℤ) (mailbox : Mailbox ℤ) (calls : List (Call μ))
      (hitems : ctx.errMsgQueue.items = code :: mailbox.items)
      (hfreed : Call.freed calls = []) (hcodes : Call.codes calls = [])
      (hwritten : ∀ chars ∈ Call.writes calls,
        chars = frame (errorText (ascii "DISPATCHER") code)) :
      Serves n subsystems ctx { ctx with errMsgQueue := mailbox } (some (.ownError code)) calls
  | subsystemError (q : ℕ) (code : ℤ) (mailbox : Mailbox ℤ) (calls : List (Call μ))
      (hlisted : Listed SubsystemMessageConf.outgoingErrQueue subsystems q)
      (hown : ctx.errMsgQueue.items = [])
      (hitems : (ctx.errMailboxes q).items = code :: mailbox.items)
      (hfreed : Call.freed calls = []) (hcodes : Call.codes calls = [])
      (hwritten : ∃ conf ∈ subsystems, conf.outgoingErrQueue = some q ∧
        ∀ chars ∈ Call.writes calls, chars = frame (errorText conf.subsystemName code)) :
      Serves n subsystems ctx
        { ctx with errMailboxes := Function.update ctx.errMailboxes q mailbox }
        (some (.subsystemError q code)) calls
  | message (q : ℕ) (msg : μ) (mailbox : Mailbox μ) (w : World σ μ δ) (calls : List (Call μ))
      (hlisted : Listed SubsystemMessageConf.outgoingMsgQueue subsystems q)
      (herrors : ErrorsEmpty subsystems ctx)
      (hitems : (ctx.mailboxes q).items = msg :: mailbox.items)
      (hmailboxes : w.mailboxes = Function.update ctx.mailboxes q mailbox)
      (hfreed : Call.freed calls = [msg])
      (hcodes : Call.codes calls = [] ∧ w.errMsgQueue = ctx.errMsgQueue ∨
        ∃ code, Call.codes calls = [code] ∧
          w.errMsgQueue = (ctx.errMsgQueue.write code).2)
      (hmessages : w.messages = ctx.messages)
      (hwritten : ∃ conf ∈ subsystems, conf.outgoingMsgQueue = some q ∧
        (∃ free, conf.freeMessage = some free ∧
          w.env = free msg (ctx.messages msg) ctx.env) ∧
        (Call.writes calls = [] ∨ ∃ chars, Call.writes calls = [chars] ∧ chars.length < n ∧
          Framed n conf (ctx.messages msg) ctx.env chars)) :
      Serves n subsystems ctx { ctx with toWorld := w } (some (.message q msg)) calls

def CanFree (subsystems : List (SubsystemMessageConf σ μ δ)) : Prop :=
  ∀ conf ∈ subsystems, conf.outgoingMsgQueue.isSome → conf.freeMessage.isSome

theorem sendError_ok (hn : 1 < n) (buf : Vector Byte n) (subsystemName : List Byte)
    (item : Item μ) (code : ℤ) (ctx : TxWorkerContext σ μ δ) :
    ∃ calls, sendError buf subsystemName item code ctx = some (.ok (ctx, some item, calls)) ∧
      Call.freed calls = [] ∧ Call.codes calls = [] ∧
      ∀ chars ∈ Call.writes calls, chars = frame (errorText subsystemName code) := by
  obtain ⟨r, hr, hframe⟩ := outgoing_err_is_frame hn buf subsystemName code
  simp only [sendError, hr, Option.bind_eq_bind, Option.bind_some]
  refine ⟨_, rfl, ?_⟩
  cases r with
  | none => exact ⟨rfl, rfl, by simp [Call.writes]⟩
  | some chars =>
    refine ⟨rfl, rfl, fun chars' hchars => ?_⟩
    rw [List.mem_singleton.mp hchars]
    exact hframe chars rfl

/-- One call, in any state: nothing is used that is NULL, and no access is outside the buffer. -/
theorem checkOutgoingQueue_serves (hn : 1 < n) (buf : Vector Byte n) (taken : ℕ)
    {subsystems : List (SubsystemMessageConf σ μ δ)} (hfree : CanFree subsystems)
    (hbounded : ∀ conf ∈ subsystems, Bounded conf) (ctx : TxWorkerContext σ μ δ) :
    ∃ ctx' item calls, checkOutgoingQueue buf taken subsystems ctx =
        some (.ok (ctx', item, calls)) ∧ Serves n subsystems ctx ctx' item calls := by
  unfold checkOutgoingQueue
  rcases hown : ctx.errMsgQueue.read with _ | ⟨code, mailbox⟩
  swap
  · obtain ⟨hitems, -⟩ := Mailbox.read_eq_some hown
    obtain ⟨calls, hsend, hfreed, hcodes, hwritten⟩ := sendError_ok hn buf (ascii "DISPATCHER")
      (.ownError code) code { ctx with errMsgQueue := mailbox }
    exact ⟨_, _, _, hsend, .ownError code mailbox calls hitems hfreed hcodes hwritten⟩
  have hown := Mailbox.read_eq_none.mp hown
  rcases herr : firstReady SubsystemMessageConf.outgoingErrQueue Mailbox.read ctx.errMailboxes
    subsystems with _ | ⟨conf, q, code, mailbox⟩
  swap
  · obtain ⟨hconf, hq, hread⟩ := firstReady_eq_some herr
    obtain ⟨hitems, -⟩ := Mailbox.read_eq_some hread
    obtain ⟨calls, hsend, hfreed, hcodes, hwritten⟩ := sendError_ok hn buf conf.subsystemName
      (.subsystemError q code) code
      { ctx with errMailboxes := Function.update ctx.errMailboxes q mailbox }
    exact ⟨_, _, _, hsend,
      .subsystemError q code mailbox calls ⟨conf, hconf, hq⟩ hown hitems hfreed hcodes
        ⟨conf, hconf, hq, hwritten⟩⟩
  have herrors : ErrorsEmpty subsystems ctx := by
    refine ⟨hown, ?_⟩
    intro q hq
    exact Mailbox.read_eq_none.mp (firstReady_eq_none.mp herr q hq)
  rcases hmsg : firstReady SubsystemMessageConf.outgoingMsgQueue Mailbox.read ctx.mailboxes
    subsystems with _ | ⟨conf, q, msg, mailbox⟩
  swap
  · obtain ⟨hconf, hq, hread⟩ := firstReady_eq_some hmsg
    obtain ⟨hitems, -⟩ := Mailbox.read_eq_some hread
    have hfree := hfree conf hconf (by rw [hq]; rfl)
    obtain ⟨r, hr, hframe⟩ := formatMessage_frame hn buf (hbounded conf hconf) (ctx.messages msg)
      ctx.env
    obtain ⟨w, calls, hrun, hfin⟩ := processOutgoingMessage_finished taken
      (w := { ctx.toWorld with mailboxes := Function.update ctx.mailboxes q mailbox }) hfree hr
    refine ⟨{ ctx with toWorld := w }, some (.message q msg), calls, ?_, ?_⟩
    · simp only [sendMessage, hrun, Option.bind_eq_bind, Option.bind_some]
    · refine .message q msg mailbox w calls ⟨conf, hconf, hq⟩ herrors hitems hfin.mailboxes
        hfin.freed hfin.scheduled hfin.messages ⟨conf, hconf, hq, hfin.env, ?_⟩
      cases r with
      | error code => exact Or.inl (hfin.failed code rfl).1
      | ok chars => exact Or.inr ⟨chars, (hfin.written chars rfl).1, hframe chars rfl⟩
  refine ⟨ctx, none, [], rfl, .sleep ⟨herrors, ?_⟩⟩
  intro q hq
  exact Mailbox.read_eq_none.mp (firstReady_eq_none.mp hmsg q hq)

end Ratfist.TransmitQueue
