import Ratfist.NullTokens
import Ratfist.TransmitQueue

/-!
Which members of a subsystem's configuration may be NULL. The transmit worker only
needs what `message_dispatcher.h` asks for; the receive worker frees the messages of
subsystems that only receive, and sends to their queues, without a test.
-/
namespace Ratfist.NullCallbacks

open CString Constants Subsystem Routing RoutingOutcomes NullTokens Transmit
  QueueScan TransmitQueue

variable {n : ℕ} {σ μ δ : Type}

/-- The contract of the header: all queues may be NULL, `allocMessage` without parsing
functions, `freeMessage` without serialization functions and messages to send. -/
structure Legal (conf : SubsystemMessageConf σ μ δ) (w : World σ μ δ) : Prop where
  alloc : conf.allocMessage = none → ∀ h ∈ conf.messageHandlers, h.parsingFunc = none
  free : conf.freeMessage = none → (∀ h ∈ conf.messageHandlers, h.serializationFunc = none) ∧
    ∀ q, conf.outgoingMsgQueue = some q → (w.mailboxes q).items = []

section Receive

variable [DecidableEq μ]

/-- No NULL is used for a function or a queue, neither by the receive worker for this
message nor by the next call of the transmit worker. -/
structure NoNullUse (nullAtEnd : Bool) (subsystems : List (SubsystemMessageConf σ μ δ))
    (buf : List Byte) (ctx : TxWorkerContext σ μ δ) : Prop where
  incoming : ∀ fault calls,
    processIncomingMessage nullAtEnd subsystems buf ctx.toWorld ≠ .error (fault, calls)
  outgoing : ∀ (n : ℕ) (txBuf : Vector Byte n) (taken : ℕ) fault calls,
    checkOutgoingQueue txBuf taken subsystems ctx ≠ some (.error (fault, calls))

/-- A payload is refused, or finds its queue full, and there is no function to free its
message; or it is accepted and there is no queue. -/
def Unguarded (conf : SubsystemMessageConf σ μ δ) (accepted : Bool) (w : World σ μ δ) : Prop :=
  if accepted then conf.incomingMsgQueue = none ∨ roomOf conf w = false ∧ conf.freeMessage = none
  else conf.freeMessage = none

/-- The message reaches a parsing function of such a subsystem. -/
def Exposed (nullAtEnd : Bool) (subsystems : List (SubsystemMessageConf σ μ δ))
    (buf : List Byte) (w : World σ μ δ) : Prop :=
  ∃ conf msgIdx parsingFunc tid, ((tokens comma buf)[0]?).bind parseTransactionId = some tid ∧
    subsystemOf subsystems (tokens comma buf) = some conf ∧
    msgIdxOf conf (tokens comma buf) = some msgIdx ∧ parserOf conf msgIdx = some parsingFunc ∧
    (allocOf conf msgIdx w).1.isSome ∧
    Unguarded conf (payloadOk parsingFunc msgIdx tid (restOf nullAtEnd buf)
      (allocOf conf msgIdx w)) w

omit [DecidableEq μ] in
theorem giveBack_error_iff (conf : SubsystemMessageConf σ μ δ) (msg : μ) (w : World σ μ δ)
    (calls : List (Call μ)) :
    (∃ fault calls', giveBack conf msg w calls = .error (fault, calls')) ↔
      conf.freeMessage = none := by
  unfold giveBack
  cases conf.freeMessage <;> simp

/-- With a function to allocate, the calls that can go wrong are those behind the parser. -/
theorem handOver_error_iff {conf : SubsystemMessageConf σ μ δ}
    {alloc : ℕ → σ → Option (μ × Message δ) × σ} (halloc : conf.allocMessage = some alloc)
    (msgIdx : ℕ) (parsingFunc : Message δ → Option (List Byte) → σ → Bool × σ) (tid : ℕ)
    (save : Option (List Byte)) (w : World σ μ δ) :
    (∃ fault calls, handOver conf msgIdx parsingFunc tid save w = .error (fault, calls)) ↔
      (allocOf conf msgIdx w).1.isSome ∧
      Unguarded conf (payloadOk parsingFunc msgIdx tid save (allocOf conf msgIdx w)) w := by
  obtain ⟨block, env, hres⟩ : ∃ b e, alloc msgIdx w.env = (b, e) := ⟨_, _, rfl⟩
  have hallocOf : allocOf conf msgIdx w = (block, env) := by rw [allocOf, halloc, ← hres]
  rw [hallocOf]
  rcases block with _ | ⟨msg, content⟩
  · simp [handOver, halloc, hres]
  obtain ⟨accepted, env', hparse⟩ : ∃ b e,
    parsingFunc ⟨msgIdx, tid, content.data⟩ save env = (b, e) := ⟨_, _, rfl⟩
  have hok : payloadOk parsingFunc msgIdx tid save (some (msg, content), env) = accepted := by
    simp [payloadOk, hparse]
  rw [hok]
  simp only [handOver, halloc, hres, hparse, Option.isSome_some, true_and]
  cases accepted with
  | false => exact giveBack_error_iff _ _ _ _
  | true =>
    cases hq : conf.incomingMsgQueue with
    | none => simp [Unguarded, hq]
    | some q =>
      cases hfull : (w.mailboxes q).full with
      | true =>
        have hroom : roomOf conf w = false := by simp [roomOf, hq, hfull]
        have hboth : Unguarded conf true w ↔ conf.freeMessage = none := by
          simp [Unguarded, hq, hroom]
        rw [hboth]
        simp only [Mailbox.write, hfull, if_true, Bool.not_false]
        exact giveBack_error_iff _ _ _ _
      | false => simp [Mailbox.write, hfull, Unguarded, hq, roomOf]

omit [DecidableEq μ] in
/-- The transmit worker frees only messages that were in a queue. -/
theorem checkOutgoingQueue_no_error (buf : Vector Byte n) (taken : ℕ)
    {subsystems : List (SubsystemMessageConf σ μ δ)} {ctx : TxWorkerContext σ μ δ}
    (hlegal : ∀ conf ∈ subsystems, Legal conf ctx.toWorld) (fault : Fault)
    (calls : List (Call μ)) :
    checkOutgoingQueue buf taken subsystems ctx ≠ some (.error (fault, calls)) := by
  have hsend (name : List Byte) (item : Item μ) (code : ℤ) (ctx' : TxWorkerContext σ μ δ) :
      sendError buf name item code ctx' ≠ some (.error (fault, calls)) := by
    unfold sendError
    cases processOutgoingErrMessage buf name code <;> simp
  unfold checkOutgoingQueue
  rcases ctx.errMsgQueue.read with _ | ⟨code, mailbox⟩
  swap
  · exact hsend _ _ _ _
  rcases firstReady SubsystemMessageConf.outgoingErrQueue Mailbox.read ctx.errMailboxes
    subsystems with _ | ⟨conf, q, code, mailbox⟩
  swap
  · exact hsend _ _ _ _
  rcases hmsg : firstReady SubsystemMessageConf.outgoingMsgQueue Mailbox.read ctx.mailboxes
    subsystems with _ | ⟨conf, q, msg, mailbox⟩
  · simp
  obtain ⟨hconf, hq, hread⟩ := firstReady_eq_some hmsg
  have hfree : conf.freeMessage.isSome := by
    by_contra hnone
    have hempty := ((hlegal conf hconf).free (by simpa using hnone)).2 q hq
    rw [(Mailbox.read_eq_some hread).1] at hempty
    cases hempty
  simp only [sendMessage]
  generalize { ctx.toWorld with mailboxes := Function.update ctx.mailboxes q mailbox } = w
  cases hr : formatMessage buf conf (w.messages msg) w.env with
  | none => simp [processOutgoingMessage, hr]
  | some r =>
    obtain ⟨w', made, hrun, -⟩ := processOutgoingMessage_finished taken hfree hr
    simp [hrun]

/-- A registry that keeps to the contract is safe exactly when the message does not lead to
one of the calls that are not guarded. -/
theorem null_uses_iff (nullAtEnd : Bool) {subsystems : List (SubsystemMessageConf σ μ δ)}
    {buf : List Byte} {ctx : TxWorkerContext σ μ δ}
    (hlegal : ∀ conf ∈ subsystems, Legal conf ctx.toWorld)
    (htid : (((tokens comma buf)[0]?).bind parseTransactionId).isSome) :
    NoNullUse nullAtEnd subsystems buf ctx ↔ ¬ Exposed nullAtEnd subsystems buf ctx.toWorld := by
  have houtgoing (n : ℕ) (txBuf : Vector Byte n) (taken : ℕ) (fault : Fault)
      (calls : List (Call μ)) :=
    checkOutgoingQueue_no_error txBuf taken hlegal fault calls
  have htoks : tokens comma buf ≠ [] := by
    intro hnil
    simp [hnil] at htid
  rcases lookup_found_or_rejected nullAtEnd subsystems buf ctx.toWorld htoks with
    ⟨conf, msgIdx, parsingFunc, tid, hf⟩ | ⟨code, hlook, -⟩
  · obtain ⟨handler, hget, hparse⟩ := Option.bind_eq_some_iff.mp hf.hasParser
    obtain ⟨alloc, halloc⟩ : ∃ alloc, conf.allocMessage = some alloc := by
      rw [← Option.isSome_iff_exists]
      by_contra hnone
      obtain ⟨name, -, hfind⟩ := Option.bind_eq_some_iff.mp hf.hasSubsystem
      have hnull := (hlegal conf (List.mem_of_find?_eq_some hfind)).alloc (by simpa using hnone)
        handler (List.mem_of_getElem? hget)
      rw [hnull] at hparse
      cases hparse
    have hexposed : Exposed nullAtEnd subsystems buf ctx.toWorld ↔
        ∃ fault calls,
          processIncomingMessage nullAtEnd subsystems buf ctx.toWorld = .error (fault, calls) := by
      simp only [processIncomingMessage, hf.looked, handOver_error_iff halloc]
      constructor
      · rintro ⟨conf', msgIdx', parsingFunc', tid', htid', hconf', hmsg', hparser', hrest⟩
        rw [hf.hasTid] at htid'
        cases htid'
        rw [hf.hasSubsystem] at hconf'
        cases hconf'
        rw [hf.hasMsgIdx] at hmsg'
        cases hmsg'
        rw [hf.hasParser] at hparser'
        cases hparser'
        exact hrest
      · intro hrest
        exact ⟨conf, msgIdx, parsingFunc, tid, hf.hasTid, hf.hasSubsystem, hf.hasMsgIdx,
          hf.hasParser, hrest⟩
    rw [hexposed]
    constructor
    · rintro hsafe ⟨fault, calls, herror⟩
      exact hsafe.incoming fault calls herror
    · intro hno
      exact ⟨fun fault calls herror => hno ⟨fault, calls, herror⟩, houtgoing⟩
  · refine iff_of_true ⟨?_, houtgoing⟩ ?_
    · intro fault calls
      simp [processIncomingMessage, hlook]
    · rintro ⟨conf, msgIdx, parsingFunc, tid, -, hconf, hmsg, hparser, halloc, -⟩
      have hreached : ParserReached subsystems buf ctx.toWorld :=
        ⟨htid, conf, msgIdx, hconf, hmsg, by rw [hparser]; rfl, halloc⟩
      exact hreached.found nullAtEnd code hlook

end Receive

section TestRegistry

def receiveOnly (queue : Option ℕ) : SubsystemMessageConf (List ℕ) ℕ Unit :=
  ⟨ascii "RX", [⟨ascii "SET", some fakeParse, none⟩], queue, none, none, some fakeAlloc, none⟩

def receiveContext : TxWorkerContext (List ℕ) ℕ Unit :=
  ⟨fakeWorld, fun _ => ⟨10, []⟩⟩

theorem receiveOnly_legal (queue : Option ℕ) :
    ∀ conf ∈ [receiveOnly queue], Legal conf receiveContext.toWorld := by
  intro conf hconf
  rw [List.mem_singleton.mp hconf]
  refine ⟨by simp [receiveOnly], ?_⟩
  intro _
  exact ⟨by simp [receiveOnly], by simp [receiveOnly]⟩

theorem null_uses_of_receiver :
    NoNullUse true [receiveOnly (some 0)] (ascii "1,RX,SET,7" ++ [0]) receiveContext ↔
      ¬ Exposed true [receiveOnly (some 0)] (ascii "1,RX,SET,7" ++ [0]) receiveContext.toWorld :=
  null_uses_iff true (receiveOnly_legal (some 0)) (by decide)

/-- A payload that is refused leads to a NULL function, an accepted one to a NULL queue. -/
theorem receive_only_uses_null :
    (∀ conf ∈ [receiveOnly (some 0)], Legal conf receiveContext.toWorld) ∧
      (∀ conf ∈ [receiveOnly none], Legal conf receiveContext.toWorld) ∧
      processIncomingMessage true [receiveOnly (some 0)] (ascii "1,RX,SET" ++ [0]) fakeWorld =
        .error (.nullFunction, [.alloc 0 (some 4), .parse none false,
          .scheduled messageParsingError]) ∧
      processIncomingMessage true [receiveOnly none] (ascii "1,RX,SET,7" ++ [0]) fakeWorld =
        .error (.nullQueue, [.alloc 0 (some 4), .parse (some (ascii "7")) true]) :=
  ⟨receiveOnly_legal (some 0), receiveOnly_legal none, by rfl, by rfl⟩

end TestRegistry

end Ratfist.NullCallbacks
