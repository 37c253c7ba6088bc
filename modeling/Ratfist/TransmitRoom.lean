import Ratfist.SentLine

/-!
The transmit worker with `room` free bytes in the transmit buffer. Of a message's frame the
buffer takes what fits; the dispatcher reports a frame that was cut, or could not be built, in
the next call. Two calls after a message was queued the line tells how it went.
-/
namespace Ratfist.TransmitRoom

open CString CheckedArray Constants FrameRoundTrip Subsystem Routing Transmit QueueScan
  TransmitQueue OutgoingFrames FieldText SentLine

variable {n m : ℕ} {σ μ δ : Type} {subsystems : List (SubsystemMessageConf σ μ δ)}

/-- What the buffer takes of the write of a call; which bytes are written does not depend on
that. -/
def accepted (buf : Vector Byte n) (room : ℕ) (subsystems : List (SubsystemMessageConf σ μ δ))
    (ctx : TxWorkerContext σ μ δ) : ℕ :=
  match checkOutgoingQueue buf 0 subsystems ctx with
  | some (.ok (_, _, calls)) => min room (Call.writes calls).flatten.length
  | _ => 0

/-- One call of `check_outgoing_queue` and the bytes that get to the line. -/
def transmit (subsystems : List (SubsystemMessageConf σ μ δ)) (call : Vector Byte n × ℕ)
    (ctx : TxWorkerContext σ μ δ) : Option (TxWorkerContext σ μ δ × List Byte) :=
  let taken := accepted call.1 call.2 subsystems ctx
  match checkOutgoingQueue call.1 taken subsystems ctx with
  | some (.ok (ctx, item, calls)) => some (ctx, lineBytes taken item calls)
  | _ => none

def written (r : Except ℤ (List Byte)) : List Byte := r.toOption.toList.flatten

def afterMessage (ctx : TxWorkerContext σ μ δ) (q : ℕ) (mailbox : Mailbox μ) (msg : μ)
    (free : μ → Message δ → σ → σ) (failed : Option ℤ) : TxWorkerContext σ μ δ :=
  { ctx with
    mailboxes := Function.update ctx.mailboxes q mailbox
    env := free msg (ctx.messages msg) ctx.env
    errMsgQueue := failed.elim ctx.errMsgQueue fun code => (ctx.errMsgQueue.write code).2 }

/-- A call that takes a message. -/
theorem message_transmitted (buf : Vector Byte n) (room : ℕ) {ctx : TxWorkerContext σ μ δ}
    {conf : SubsystemMessageConf σ μ δ} {free : μ → Message δ → σ → σ} {q : ℕ} {msg : μ}
    {mailbox : Mailbox μ} (herrors : ErrorsEmpty subsystems ctx)
    (hready : firstReady SubsystemMessageConf.outgoingMsgQueue Mailbox.read ctx.mailboxes
      subsystems = some (conf, q, msg, mailbox)) (hfree : conf.freeMessage = some free)
    {r : Except ℤ (List Byte)}
    (hr : formatMessage buf conf (ctx.messages msg) ctx.env = some r) :
    transmit subsystems (buf, room) ctx = some
      (afterMessage ctx q mailbox msg free (scheduledCode (min room (written r).length) r),
        (written r).take room) := by
  have hown : ctx.errMsgQueue.read = none := Mailbox.read_eq_none.mpr herrors.1
  have hsub : firstReady SubsystemMessageConf.outgoingErrQueue Mailbox.read ctx.errMailboxes
      subsystems = none := firstReady_eq_none.mpr fun q hq =>
    Mailbox.read_eq_none.mpr (herrors.2 q hq)
  have hcheck (taken : ℕ) : checkOutgoingQueue buf taken subsystems ctx =
      some (.ok (afterMessage ctx q mailbox msg free (scheduledCode taken r), some (.message q msg),
        callsFor taken r ++ [.free msg])) := by
    have hcall := processOutgoingMessage_eq taken
      (w := { ctx.toWorld with mailboxes := Function.update ctx.mailboxes q mailbox }) hfree hr
    simp only [checkOutgoingQueue, hown, hsub, hready, sendMessage, hcall,
      Option.bind_eq_bind, Option.bind_some]
    rfl
  have haccepted : accepted buf room subsystems ctx = min room (written r).length := by
    simp only [accepted, hcheck 0, writes_callsFor]
    rfl
  simp only [transmit, haccepted, hcheck, lineBytes, writes_callsFor]
  cases r with
  | error code => simp [written, Except.toOption]
  | ok chars => simp [written, Except.toOption, List.take_eq_take_iff]

/-- The text of an error of the dispatcher, if its frame fits into the message buffer. -/
def reported (n : ℕ) (code : ℤ) : Option (List Byte) :=
  (some (errorText (ascii "DISPATCHER") code)).filter fun text => (frame text).length < n

/-- A call that takes an error of the dispatcher. -/
theorem ownError_transmitted (hn : 1 < n) (call : Vector Byte n × ℕ)
    {ctx : TxWorkerContext σ μ δ} {code : ℤ} {mailbox : Mailbox ℤ}
    (hread : ctx.errMsgQueue.read = some (code, mailbox)) :
    transmit subsystems call ctx = some
      ({ ctx with errMsgQueue := mailbox }, (reported n code).toList.flatMap frame) := by
  have hcheck (taken : ℕ) : checkOutgoingQueue call.1 taken subsystems ctx =
      some (.ok ({ ctx with errMsgQueue := mailbox }, some (.ownError code),
        ((reported n code).map frame).toList.map .written)) := by
    have hsent := errMessage_sent hn call.1 (ascii "DISPATCHER") code
    simp only [checkOutgoingQueue, hread, sendError, hsent, Option.bind_eq_bind, Option.bind_some]
    rfl
  simp only [transmit, hcheck, lineBytes]
  cases reported n code <;> simp [Call.writes]

theorem idle_transmitted (call : Vector Byte n × ℕ) {ctx : TxWorkerContext σ μ δ}
    (hempty : AllEmpty subsystems ctx) : transmit subsystems call ctx = some (ctx, []) := by
  obtain ⟨⟨hown, hsub⟩, hmsg⟩ := hempty
  have hown := Mailbox.read_eq_none.mpr hown
  have hsub : firstReady SubsystemMessageConf.outgoingErrQueue Mailbox.read ctx.errMailboxes
      subsystems = none := firstReady_eq_none.mpr fun q hq =>
    Mailbox.read_eq_none.mpr (hsub q hq)
  have hmsg : firstReady SubsystemMessageConf.outgoingMsgQueue Mailbox.read ctx.mailboxes
      subsystems = none := firstReady_eq_none.mpr fun q hq =>
    Mailbox.read_eq_none.mpr (hmsg q hq)
  have hcheck (taken : ℕ) : checkOutgoingQueue call.1 taken subsystems ctx =
      some (.ok (ctx, none, [])) := by
    simp only [checkOutgoingQueue, hown, hsub, hmsg]
  simp only [transmit, hcheck, lineBytes, Call.writes]
  rfl

/-! One message and the error it may come to, in two calls. -/

def lineFor (room : ℕ) (r : Except ℤ (List Byte)) : List Byte :=
  (written r).take room ++ (scheduledCode (min room (written r).length) r).elim []
    fun code => frame (errorText (ascii "DISPATCHER") code)

variable {conf : SubsystemMessageConf σ μ δ} {free : μ → Message δ → σ → σ} {q : ℕ} {msg : μ}
  {r : Except ℤ (List Byte)}

/-- Everything is empty afterwards, whatever has become of the message. -/
theorem two_calls (hn : 1 < n) (call call' : Vector Byte n × ℕ)
    {ctx : TxWorkerContext σ μ δ} (herrors : ErrorsEmpty [conf] ctx)
    (hcapacity : 0 < ctx.errMsgQueue.capacity)
    (hqueue : conf.outgoingMsgQueue = some q) (hitems : (ctx.mailboxes q).items = [msg])
    (hfree : conf.freeMessage = some free)
    (hr : formatMessage call.1 conf (ctx.messages msg) ctx.env = some r)
    (hfits : ∀ code, scheduledCode (min call.2 (written r).length) r = some code →
      (frame (errorText (ascii "DISPATCHER") code)).length < n) :
    ∃ ctx₁ line₁ line₂, transmit [conf] call ctx = some (ctx₁, line₁) ∧
      transmit [conf] call' ctx₁ = some
        (afterMessage ctx q { ctx.mailboxes q with items := [] } msg free none, line₂) ∧
      line₁ ++ line₂ = lineFor call.2 r := by
  have hready : firstReady SubsystemMessageConf.outgoingMsgQueue Mailbox.read ctx.mailboxes
      [conf] = some (conf, q, msg, { ctx.mailboxes q with items := [] }) := by
    simp [firstReady, hqueue, Mailbox.read, hitems]
  have hfirst := message_transmitted call.1 call.2 herrors hready hfree hr
  cases hfailed : scheduledCode (min call.2 (written r).length) r with
  | none =>
    rw [hfailed] at hfirst
    refine ⟨_, _, [], hfirst, idle_transmitted call' ⟨herrors, ?_⟩, ?_⟩
    · rintro q' ⟨conf', hconf', hq'⟩
      obtain rfl := List.mem_singleton.mp hconf'
      rw [hqueue] at hq'
      cases hq'
      simp [afterMessage]
    · simp [lineFor, hfailed]
  | some code =>
    rw [hfailed] at hfirst
    have hbox : ctx.errMsgQueue = ⟨ctx.errMsgQueue.capacity, []⟩ := by
      rw [← herrors.1]
    have hread : (ctx.errMsgQueue.write code).2.read = some (code, ctx.errMsgQueue) := by
      rw [hbox]
      simp [Mailbox.write, Mailbox.full, Mailbox.read, Nat.ne_of_gt hcapacity]
    refine ⟨_, _, _, hfirst, ownError_transmitted hn call' hread, ?_⟩
    have hreported : reported n code = some (errorText (ascii "DISPATCHER") code) :=
      Option.filter_some_pos (by simpa using hfits code hfailed)
    simp [lineFor, hfailed, hreported]

/-! What a client hears of a reply. -/

/-- What formatting comes to for a text whose first fields fit. -/
def formatted (n : ℕ) (reply : List Byte) : Except ℤ (List Byte) :=
  if n ≤ 1 + reply.length then .error messageFormattingError
  else if n ≤ (frame reply).length then .error messageTooLongError
  else .ok (frame reply)

def heardReply (n room : ℕ) (reply : List Byte) : List Byte :=
  if n ≤ 1 + reply.length then errorText (ascii "DISPATCHER") messageFormattingError
  else if n ≤ (frame reply).length then errorText (ascii "DISPATCHER") messageTooLongError
  else if room < (frame reply).length then errorText (ascii "DISPATCHER") txBufferFull
  else reply

theorem formatMessage_reply {good : σ → Prop}
    {payloadText : MessageHandler σ δ → Message δ → σ → Option (List Byte)} (hn : 1 < n)
    (buf : Vector Byte n) (hspoken : Spoken good payloadText subsystems)
    (hconf : conf ∈ subsystems) {msg : Message δ} {env : σ} (henv : good env)
    (hlead : ∀ handler ∈ conf.messageHandlers,
      1 + (messagePrefix conf handler msg).length < n) {reply : List Byte}
    (hreply : messageText payloadText conf msg env = some reply) :
    formatMessage buf conf msg env = some (formatted n reply) := by
  unfold messageText at hreply
  cases hget : conf.messageHandlers[msg.type]? with
  | none => simp [hget] at hreply
  | some handler =>
    cases hser : handler.serializationFunc with
    | none => simp [hget, hser] at hreply
    | some f =>
      have hspells := hspoken.spells conf hconf msg handler f hget hser env henv
      have hroom := hlead handler (List.mem_of_getElem? hget)
      simp only [hget, hser, Option.isSome_some, if_true] at hreply
      obtain ⟨payload, hpay, rfl⟩ := Option.map_eq_some_iff.mp hreply
      rw [hpay] at hspells
      obtain ⟨hne, -, hf⟩ := hspells
      obtain ⟨output, len, hrun, hbound, hfits, hlong⟩ :=
        hf (n - (1 + (messagePrefix conf handler msg).length)) (by omega)
      have hlen : (messagePrefix conf handler msg ++ payload).length =
          (messagePrefix conf handler msg).length + payload.length := List.length_append
      by_cases htext : payload.length < n - (1 + (messagePrefix conf handler msg).length)
      · obtain ⟨rfl, hbegins⟩ := hfits htext
        have hshort : ¬ n ≤ 1 + (messagePrefix conf handler msg ++ payload).length := by omega
        rw [formatMessage_text hn buf hget hser hne hroom hrun hbound fun _ => hbegins, formatted,
          if_neg hshort]
      · have hminus := hlong (Nat.le_of_not_lt htext)
        rw [formatMessage_refused hn buf hget hser hroom hrun hbound (by omega), formatted,
          if_pos (by omega)]

/-- The errors that a reply can come to fit into any message buffer. -/
theorem failure_fits (hn : 250 ≤ n) (taken : ℕ) {reply : List Byte} {code : ℤ}
    (h : scheduledCode taken (formatted n reply) = some code) :
    Clean (errorText (ascii "DISPATCHER") code) ∧
      5 ≤ (errorText (ascii "DISPATCHER") code).length ∧
      (frame (errorText (ascii "DISPATCHER") code)).length < n := by
  have hcodes : ∀ code ∈ [messageFormattingError, messageTooLongError, txBufferFull],
      (frame (errorText (ascii "DISPATCHER") code)).length < 250 := by decide
  have hcode : code ∈ [messageFormattingError, messageTooLongError, txBufferFull] := by
    unfold formatted at h
    split_ifs at h
    · cases h
      simp
    · cases h
      simp
    · simp only [scheduledCode] at h
      split_ifs at h
      cases h
      simp
  obtain ⟨hclean, hlen⟩ := errorText_clean (show Clean (cstr (ascii "DISPATCHER")) by decide) code
  exact ⟨hclean, hlen, Nat.lt_of_lt_of_le (hcodes code hcode) hn⟩

/-- The error that a reply comes to with `room` bytes in the transmit buffer. -/
def failed (n room : ℕ) (reply : List Byte) : Option ℤ :=
  scheduledCode (min room (written (formatted n reply)).length) (formatted n reply)

theorem heardReply_eq (n room : ℕ) (reply : List Byte) :
    heardReply n room reply =
      (failed n room reply).elim reply fun code => errorText (ascii "DISPATCHER") code := by
  unfold failed heardReply formatted
  split_ifs with hlong hframe hroom
  · rfl
  · rfl
  · have htaken : min room (frame reply).length ≠ (frame reply).length := by omega
    simp [written, scheduledCode, Except.toOption, htaken]
  · have htaken : min room (frame reply).length = (frame reply).length := by omega
    simp [written, scheduledCode, Except.toOption, htaken]

/-- The line of one call carries the reply if nothing has failed, and nothing else. -/
theorem written_heard (hnm : n ≤ m) (room : ℕ) {reply : List Byte} (hclean : Clean reply)
    (hlen : 5 ≤ reply.length) :
    ∃ sent : List (Sent m), (written (formatted n reply)).take room = sent.flatMap Sent.bytes ∧
      sent.filterMap Sent.payload? = if (failed n room reply).isNone then [reply] else [] := by
  unfold failed formatted
  by_cases hlong : n ≤ 1 + reply.length
  · rw [if_pos hlong]
    exact ⟨[], by simp [written, Except.toOption], rfl⟩
  by_cases hframe : n ≤ (frame reply).length
  · rw [if_neg hlong, if_pos hframe]
    exact ⟨[], by simp [written, Except.toOption], rfl⟩
  rw [if_neg hlong, if_neg hframe]
  obtain ⟨first, hbytes, hpayload⟩ := sent_of_text hnm hclean hlen (Nat.lt_of_not_le hframe) room
  refine ⟨[first], by simp [written, Except.toOption, hbytes], ?_⟩
  by_cases hroom : room < (frame reply).length
  · have htaken : min room (frame reply).length ≠ (frame reply).length := by omega
    rw [Option.filter_some_neg (by simpa using hroom)] at hpayload
    simp [written, scheduledCode, Except.toOption, htaken, hpayload]
  · have htaken : min room (frame reply).length = (frame reply).length := by omega
    rw [Option.filter_some_pos (by simpa using hroom)] at hpayload
    simp [written, scheduledCode, Except.toOption, htaken, hpayload]

/-- The line of a call that takes an error. -/
theorem reported_heard (hnm : n ≤ m) (code : ℤ) :
    ∃ sent : List (Sent m), (reported n code).toList.flatMap frame = sent.flatMap Sent.bytes ∧
      sent.filterMap Sent.payload? = (reported n code).toList := by
  cases hreported : reported n code with
  | none => exact ⟨[], rfl, rfl⟩
  | some text =>
    obtain ⟨htext, hfits⟩ := Option.filter_eq_some_iff.mp hreported
    cases htext
    obtain ⟨hclean, hlen⟩ :=
      errorText_clean (show Clean (cstr (ascii "DISPATCHER")) by decide) code
    obtain ⟨sent, hbytes, hpayload⟩ := sent_of_text hnm hclean hlen (by simpa using hfits)
      (frame (errorText (ascii "DISPATCHER") code)).length
    rw [List.take_length] at hbytes
    rw [Option.filter_some_pos (by simp)] at hpayload
    exact ⟨[sent], by simp [hbytes], by simp [hpayload]⟩

/-- The line of the two calls carries the reply or the error it has come to, and nothing else. -/
theorem reply_heard (hn : 250 ≤ n) (hnm : n ≤ m) (room : ℕ) {reply : List Byte}
    (hclean : Clean reply) (hlen : 5 ≤ reply.length) :
    ∃ sent : List (Sent m), lineFor room (formatted n reply) = sent.flatMap Sent.bytes ∧
      sent.filterMap Sent.payload? = [heardReply n room reply] := by
  obtain ⟨sent, hbytes, hpayload⟩ := written_heard (n := n) hnm room hclean hlen
  rw [heardReply_eq]
  unfold lineFor
  rw [hbytes]
  change ∃ sent' : List (Sent m), _ ++ (failed n room reply).elim [] _ = _ ∧ _
  cases hfailed : failed n room reply with
  | none =>
    rw [hfailed] at hpayload
    exact ⟨sent, by simp, hpayload⟩
  | some code =>
    rw [hfailed] at hpayload
    obtain ⟨-, -, hfits⟩ := failure_fits hn _ hfailed
    obtain ⟨sent', hbytes', hpayload'⟩ := reported_heard (n := n) hnm code
    have hreported : reported n code = some (errorText (ascii "DISPATCHER") code) :=
      Option.filter_some_pos (by simpa using hfits)
    rw [hreported] at hbytes' hpayload'
    refine ⟨sent ++ sent', ?_, ?_⟩
    · simpa using hbytes'
    · rw [List.filterMap_append, hpayload, hpayload']
      rfl

end Ratfist.TransmitRoom
