import Ratfist.ClientView
import Ratfist.SpinnerWorker
import Ratfist.TransmitRoom

/-!
Conversations: a client sends a request, waits, and hears the reply. The receive worker, the
spinner's worker and the transmit worker take their turns, over memory that all three share.
From one quiet state to the next the program does what the client's view of the channel says.
-/
namespace Ratfist.Conversation

open CString CheckedArray Constants Assembler FrameScan FrameRoundTrip Subsystem Routing
  RoutingOutcomes Transmit TransmitQueue SpinnerMessages SpinnerChannel SpinnerPools FieldText
  SentLine PlanReadBack ReceivedStream RequestRoundTrip SpinnerWorker TransmitRoom ClientView Runs

variable {F : Type} {n : ℕ}

/-- No message is under way, and there are blocks for a request and its reply. -/
structure Quiet (w : World (Memory n F) ℕ DataPtr) : Prop where
  tidy : Tidy w
  msgs : 2 ≤ w.env.msgPool.length
  data : ∀ pool, 2 ≤ (w.env.dataPool pool).length
  incoming : (w.mailboxes 0).items = [] ∧ 0 < (w.mailboxes 0).capacity
  outgoing : (w.mailboxes 1).items = [] ∧ 0 < (w.mailboxes 1).capacity
  errors : w.errMsgQueue.items = [] ∧ 0 < w.errMsgQueue.capacity
  good : GoodPayloads w.env

structure Restored (w w' : World (Memory n F) ℕ DataPtr) : Prop where
  msgPool : w'.env.msgPool.Perm w.env.msgPool
  dataPool : ∀ pool, (w'.env.dataPool pool).Perm (w.env.dataPool pool)
  mailboxes : w'.mailboxes = w.mailboxes
  errors : w'.errMsgQueue = w.errMsgQueue

theorem Restored.trans {w w' w'' : World (Memory n F) ℕ DataPtr} (h : Restored w w')
    (h' : Restored w' w'') : Restored w w'' where
  msgPool := h'.msgPool.trans h.msgPool
  dataPool pool := (h'.dataPool pool).trans (h.dataPool pool)
  mailboxes := h'.mailboxes.trans h.mailboxes
  errors := h'.errors.trans h.errors

theorem Restored.quiet {w w' : World (Memory n F) ℕ DataPtr} (h : Restored w w') (hw : Quiet w)
    (hgood : GoodPayloads w'.env) : Quiet w' where
  tidy := by
    refine ⟨h.msgPool.nodup_iff.mpr hw.tidy.msgs, ?_, ?_⟩
    · intro pool
      exact (h.dataPool pool).nodup_iff.mpr (hw.tidy.data pool)
    · intro pool d hd
      exact hw.tidy.typed pool d ((h.dataPool pool).mem_iff.mp hd)
  msgs := by rw [h.msgPool.length_eq]; exact hw.msgs
  data pool := by rw [(h.dataPool pool).length_eq]; exact hw.data pool
  incoming := by rw [h.mailboxes]; exact hw.incoming
  outgoing := by rw [h.mailboxes]; exact hw.outgoing
  errors := by rw [h.errors]; exact hw.errors
  good := hgood

def front (pool : DataPool) (data : DataPtr) (pool' : DataPool) : List DataPtr :=
  if pool' = pool then [data] else []

theorem freed {msg : ℕ} {content : Message DataPtr} {pool : DataPool}
    (hpool : dataPoolOf content.type = some pool) (mem : Memory n F) :
    spinnerFreeMessage msg content mem = { mem with
      msgPool := msg :: mem.msgPool
      dataPool := fun pool' => front pool content.data pool' ++ mem.dataPool pool' } := by
  simp only [spinnerFreeMessage, hpool, Memory.setDataPool]
  congr 1
  funext pool'
  by_cases hp : pool' = pool
  · subst hp
    simp [front]
  · simp [front, hp]

theorem dropWrapper_eq {w : World (Memory n F) ℕ DataPtr} {msg : ℕ} {pool : DataPool}
    (hpool : dataPoolOf (w.messages msg).type = some pool) :
    dropWrapper msg w = { w with env := { shared w with
      msgPool := msg :: w.env.msgPool
      dataPool := fun pool' =>
        front pool (w.messages msg).data pool' ++ w.env.dataPool pool' } } := by
  rw [dropWrapper, freed hpool]
  rfl

theorem request_taken {w w' : World (Memory n F) ℕ DataPtr} {req : ℕ}
    {request : ℕ × Request F} (hw : Quiet w) (h : Arrived w w' req request) :
    ∃ mailbox, (w'.mailboxes 0).read = some (req, mailbox) ∧
      Function.update w'.mailboxes 0 mailbox = w.mailboxes := by
  refine ⟨w.mailboxes 0, ?_, ?_⟩
  · rw [h.queue, hw.incoming.1]
    simp only [Mailbox.read, List.nil_append]
    rw [← hw.incoming.1]
  · funext q
    by_cases hq : q = 0
    · subst hq
      rw [Function.update_self]
    · rw [Function.update_of_ne hq, h.mailboxes q hq]

/-! The reply on its block. -/

section Filled

variable {mem : Memory n F} {msg : ℕ} {payload : SpinnerMessage n F}

theorem setPayload_pools (mem : Memory n F) (msg : ℕ) (payload : SpinnerMessage n F) :
    (mem.setPayload msg payload).msgPool = mem.msgPool ∧
      (mem.setPayload msg payload).dataPool = mem.dataPool := by
  cases payload <;> exact ⟨rfl, rfl⟩

theorem setPayload_good (hmem : GoodPayloads mem) (hpayload : Proper payload) :
    GoodPayloads (mem.setPayload msg payload) := by
  obtain ⟨hplans, hsmalls⟩ := hmem
  cases payload with
  | spinPlanReply data =>
    exact ⟨(Function.forall_update_iff mem.plans
      fun _ (plan : SpinPlanData n F) => plan.planLegCount.toNat ≤ n).mpr
        ⟨hpayload, fun i _ => hplans i⟩, hsmalls⟩
  | spinStateReply data => exact ⟨hplans, goodSmalls_update hsmalls hpayload⟩
  | returnValue data => exact ⟨hplans, goodSmalls_update hsmalls hpayload⟩
  | _ => exact hpayload.elim

/-- The handler of a reply writes what the payload says. -/
theorem spinnerText_said (text : F → List Byte) {reply : Reply} {c : Channel F} {block : Block n F}
    (hfill : reply.fill c block = some payload)
    (handler : MessageHandler (Memory n F) DataPtr) (tid : ℕ) {data : DataPtr}
    (hdata : (mem.messages msg).data = data) :
    spinnerText text handler ⟨reply.msgType, tid, data⟩ (mem.setPayload msg payload) =
      saidBy text payload := by
  cases reply with
  | spinPlanReply =>
    obtain ⟨plan, -, rfl⟩ := Option.map_eq_some_iff.mp hfill
    simp [spinnerText, Reply.msgType, saidBy, Memory.setPayload, hdata]
  | spinStateReply =>
    cases hfill
    simp [spinnerText, Reply.msgType, saidBy, Memory.setPayload, hdata, planReply, stateReply]
  | returnVal v =>
    cases hfill
    simp [spinnerText, Reply.msgType, saidBy, Memory.setPayload, hdata, planReply, stateReply,
      retVal]

/-- A reply is written into the block of its kind and into no other. -/
theorem fill_plans {reply : Reply} {c : Channel F} {block : Block n F} {tid : ℕ} {data : DataPtr}
    {pool : DataPool} (hfill : reply.fill c block = some payload)
    (hmsg : mem.messages msg = ⟨reply.msgType, tid, data⟩)
    (hpool : dataPoolOf reply.msgType = some pool) {i : ℕ} (hi : pool = .plans → i ≠ data.idx) :
    (mem.setPayload msg payload).plans i = mem.plans i := by
  cases reply with
  | spinPlanReply =>
    obtain ⟨plan, -, rfl⟩ := Option.map_eq_some_iff.mp hfill
    cases hpool
    simp [Memory.setPayload, hmsg, Function.update_of_ne (hi rfl)]
  | spinStateReply =>
    cases hfill
    rfl
  | returnVal v =>
    cases hfill
    rfl

theorem fill_smalls {reply : Reply} {c : Channel F} {block : Block n F} {tid : ℕ} {data : DataPtr}
    {pool : DataPool} (hfill : reply.fill c block = some payload)
    (hmsg : mem.messages msg = ⟨reply.msgType, tid, data⟩)
    (hpool : dataPoolOf reply.msgType = some pool) {i : ℕ} (hi : pool = .smalls → i ≠ data.idx) :
    (mem.setPayload msg payload).smalls i = mem.smalls i := by
  cases reply with
  | spinPlanReply =>
    obtain ⟨plan, -, rfl⟩ := Option.map_eq_some_iff.mp hfill
    rfl
  | spinStateReply =>
    cases hfill
    cases hpool
    simp [Memory.setPayload, hmsg, Function.update_of_ne (hi rfl)]
  | returnVal v =>
    cases hfill
    cases hpool
    simp [Memory.setPayload, hmsg, Function.update_of_ne (hi rfl)]

end Filled

def replyName : Reply → List Byte
  | .spinPlanReply => ascii "PLAN_REPLY"
  | .spinStateReply => ascii "STATE_REPLY"
  | .returnVal _ => ascii "RET_VAL"

section Served

variable [Zero F] {libc : Libc F} {text : F → List Byte} {stale : (room : ℕ) → Vector Byte room}

omit [Zero F] in
theorem reply_handler (libc : Libc F) (text : F → List Byte)
    (stale : (room : ℕ) → Vector Byte room) (reply : Reply) : ∃ f,
    (spinnerConf (n := n) libc (spinnerSerializers text stale)).messageHandlers[reply.msgType]? =
      some ⟨replyName reply, none, some f⟩ := by
  cases reply <;> exact ⟨_, rfl⟩

theorem reply_text {mem : Memory n F} {tid : ℕ} {reply : Reply} {data : DataPtr} (o : Output F)
    (hsaid : ∀ handler, spinnerText text handler ⟨reply.msgType, tid, data⟩ mem =
      some ((fieldsOf text o reply).tail.flatMap (comma :: ·))) :
    messageText (spinnerText text) (spinnerConf libc (spinnerSerializers text stale))
        ⟨reply.msgType, tid, data⟩ mem =
      some (joined comma (decimal tid :: ascii "SPINNER" :: fieldsOf text o reply)) := by
  obtain ⟨f, hget⟩ := reply_handler (n := n) libc text stale reply
  have hname : cstr (ascii "SPINNER") = ascii "SPINNER" := by decide
  have hreply : cstr (replyName reply) = replyName reply := by cases reply <;> rfl
  have hfields : fieldsOf text o reply = replyName reply :: (fieldsOf text o reply).tail := by
    cases reply <;> rfl
  simp only [messageText, hget, Option.isSome_some, if_true, hsaid, Option.map_some, messagePrefix,
    hreply]
  rw [hfields, joined_cons, List.flatMap_cons, List.flatMap_cons, ← hname]
  simp [spinnerConf, hname]

/-- A reply has been queued on a block of either kind. -/
structure Queued (libc : Libc F) (text : F → List Byte) (stale : (room : ℕ) → Vector Byte room)
    (w w' : World (Memory n F) ℕ DataPtr) (msg : ℕ) (pool : DataPool) (tid : ℕ)
    (reply : List Byte) : Prop extends Took pool w w' msg where
  mailboxes : w'.mailboxes = Function.update w.mailboxes 1
    ⟨(w.mailboxes 1).capacity, (w.mailboxes 1).items ++ [msg]⟩
  errors : w'.errMsgQueue = w.errMsgQueue
  type : dataPoolOf (w'.messages msg).type = some pool
  transactionId : (w'.messages msg).transactionId = tid
  good : GoodPayloads w'.env
  text : messageText (spinnerText text) (spinnerConf libc (spinnerSerializers text stale))
    (w'.messages msg) w'.env = some reply

/-- The block of a reply behind its wrapper: it has its type and id, and a payload. -/
structure Wrapped (w : World (Memory n F) ℕ DataPtr) (msg type tid : ℕ) (data : DataPtr)
    (mem : Memory n F) : Prop where
  messages : mem.messages = Function.update w.messages msg ⟨type, tid, data⟩
  msgPool : w.env.msgPool = msg :: mem.msgPool
  dataPool : ∀ pool', w.env.dataPool pool' = front data.pool data pool' ++ mem.dataPool pool'
  plans : mem.plans = w.env.plans
  smalls : mem.smalls = w.env.smalls

omit [Zero F] in
theorem alloc_wrapped {w : World (Memory n F) ℕ DataPtr} {msg type : ℕ} {rest : List ℕ}
    {data : DataPtr} {more : List DataPtr} (hmsg : w.env.msgPool = msg :: rest)
    (hpool : dataPoolOf type = some data.pool) (hdata : w.env.dataPool data.pool = data :: more)
    (tid : ℕ) :
    ∃ mem, spinnerAllocMessage type (shared w) = (some (msg, ⟨type, 0, data⟩), mem) ∧
      Wrapped w msg type tid data
        (mem.setMessage msg { mem.messages msg with transactionId := tid }) := by
  have hmsg' : (shared w).msgPool = msg :: rest := hmsg
  have hdata' : (shared w).dataPool data.pool = data :: more := hdata
  refine ⟨(({ shared w with msgPool := rest } : Memory n F).setDataPool data.pool more).setMessage
    msg ⟨type, 0, data⟩, by simp only [spinnerAllocMessage, hmsg', hpool, hdata'], ?_⟩
  refine ⟨?_, hmsg, ?_, rfl, rfl⟩
  · simp [Memory.setMessage, Memory.setDataPool, shared]
  · intro pool'
    by_cases hp : pool' = data.pool
    · subst hp
      simp [front, hdata, Memory.setMessage, Memory.setDataPool]
    · simp [front, hp, Memory.setMessage, Memory.setDataPool, shared]

omit [Zero F] in
/-- With a payload in it the wrapped block is a message of its own. -/
theorem Wrapped.took {w w' : World (Memory n F) ℕ DataPtr} {msg tid : ℕ} {data : DataPtr}
    {reply : Reply} {mem : Memory n F} (h : Wrapped w msg reply.msgType tid data mem)
    (hpool : dataPoolOf reply.msgType = some data.pool) {c : Channel F}
    {payload : SpinnerMessage n F} (hfill : reply.fill c (mem.block msg) = some payload)
    (hw' : w' = { withMemory w (mem.setPayload msg payload) with mailboxes := w'.mailboxes }) :
    w'.messages msg = ⟨reply.msgType, tid, data⟩ ∧ Took data.pool w w' msg := by
  obtain ⟨hsame, hsame'⟩ := setPayload_pools mem msg payload
  have hcontent : mem.messages msg = ⟨reply.msgType, tid, data⟩ := by
    rw [h.messages, Function.update_self]
  have hmessages : w'.messages = Function.update w.messages msg ⟨reply.msgType, tid, data⟩ := by
    rw [hw', ← h.messages]
    exact setPayload_messages mem msg payload
  have hmsg : w'.messages msg = ⟨reply.msgType, tid, data⟩ := by
    rw [hmessages, Function.update_self]
  have hidx : (w'.messages msg).data = data := by rw [hmsg]
  refine ⟨hmsg, by rw [hidx], ?_, ?_, ?_, ?_, ?_⟩
  · rw [h.msgPool, ← hsame, hw']
    rfl
  · intro pool'
    rw [hidx, h.dataPool, ← hsame', hw']
    rfl
  · intro m hm
    rw [hmessages, Function.update_of_ne hm]
  · intro i hi
    rw [hidx] at hi
    rw [← h.plans, ← fill_plans hfill hcontent hpool hi, hw']
    rfl
  · intro i hi
    rw [hidx] at hi
    rw [← h.smalls, ← fill_smalls hfill hcontent hpool hi, hw']
    rfl

theorem sendReply_queued (hn : rustPlanLegs ≤ n) (libc : Libc F) (text : F → List Byte)
    (stale : (room : ℕ) → Vector Byte room) {c : Channel F} {o : Output F} (hc : Shown c o)
    (tid : ℕ) (reply : Reply) {w : World (Memory n F) ℕ DataPtr} {msg : ℕ} {rest : List ℕ}
    {pool : DataPool} {data : DataPtr} {more : List DataPtr} (hmsg : w.env.msgPool = msg :: rest)
    (hpool : dataPoolOf reply.msgType = some pool) (hdata : w.env.dataPool pool = data :: more)
    (hkind : data.pool = pool) (hgood : GoodPayloads w.env)
    (houtgoing : (w.mailboxes 1).items.length < (w.mailboxes 1).capacity) :
    ∃ w', sendReply c tid reply w = some w' ∧ Queued libc text stale w w' msg pool tid
      (joined comma (decimal tid :: ascii "SPINNER" :: fieldsOf text o reply)) := by
  subst hkind
  obtain ⟨mem, halloc, hwrapped⟩ := alloc_wrapped hmsg hpool hdata tid
  obtain ⟨named, hnamed⟩ : ∃ named, mem.setMessage msg
      { mem.messages msg with transactionId := tid } = named := ⟨_, rfl⟩
  rw [hnamed] at hwrapped
  have hgood' : GoodPayloads named := by
    rw [GoodPayloads, hwrapped.plans, hwrapped.smalls]
    exact hgood
  obtain ⟨payload, hfill, hproper, hsaid⟩ := fill_shown hn text hc reply
    (named.block msg) (hgood'.2 _)
  have hwrite : ((w.mailboxes 1).write msg).2 =
      ⟨(w.mailboxes 1).capacity, (w.mailboxes 1).items ++ [msg]⟩ := by
    simp [Mailbox.write, Mailbox.full, Nat.not_le_of_lt houtgoing]
  obtain ⟨w', hw'⟩ : ∃ w', { withMemory w (named.setPayload msg payload) with
    mailboxes := Function.update w.mailboxes 1
      ⟨(w.mailboxes 1).capacity, (w.mailboxes 1).items ++ [msg]⟩ } = w' := ⟨_, rfl⟩
  have hparts : w' = { withMemory w (named.setPayload msg payload) with
    mailboxes := w'.mailboxes } := by rw [← hw']
  obtain ⟨hcontent, htook⟩ := hwrapped.took hpool hfill hparts
  have henv : w'.env = named.setPayload msg payload := by rw [← hw']; rfl
  refine ⟨w', ?_, htook, by rw [← hw'], by rw [← hw']; rfl, ?_, ?_, ?_, ?_⟩
  · simp only [sendReply, halloc, hnamed, hfill, Option.bind_eq_bind, Option.bind_some, ← hw',
      ← hwrite]
    rfl
  · rw [hcontent]
    exact hpool
  · rw [hcontent]
  · rw [henv]
    exact setPayload_good hgood' hproper
  · rw [hcontent, henv]
    refine reply_text o fun handler => ?_
    have hmessages : named.messages msg = ⟨reply.msgType, tid, data⟩ := by
      rw [hwrapped.messages, Function.update_self]
    rw [spinnerText_said text hfill handler tid (by rw [hmessages]), hsaid]

structure Pending (libc : Libc F) (text : F → List Byte) (stale : (room : ℕ) → Vector Byte room)
    (w w' : World (Memory n F) ℕ DataPtr) (msg : ℕ) (tid : ℕ) (reply : List Byte) : Prop where
  mailboxes : w'.mailboxes = Function.update w.mailboxes 1 ⟨(w.mailboxes 1).capacity, [msg]⟩
  errors : w'.errMsgQueue = w.errMsgQueue
  transactionId : (w'.messages msg).transactionId = tid
  restored : Restored w { w' with
    env := spinnerFreeMessage msg (w'.messages msg) w'.env, mailboxes := w.mailboxes }
  good : GoodPayloads w'.env
  text : messageText (spinnerText text) (spinnerConf libc (spinnerSerializers text stale))
    (w'.messages msg) w'.env = some reply

omit [Zero F] in
theorem Queued.pending {w w₁ w₂ : World (Memory n F) ℕ DataPtr} {req msg tid : ℕ}
    {request : ℕ × Request F} {pool : DataPool} {reply : List Byte} (hw : Quiet w)
    (harr : Arrived w w₁ req request)
    (h : Queued libc text stale { w₁ with mailboxes := w.mailboxes } w₂ msg pool tid reply) :
    Pending libc text stale w (dropWrapper req w₂) msg tid reply := by
  obtain ⟨tid', req'⟩ := request
  obtain ⟨hfresh, -⟩ := harr.taken hw.tidy
  have hne : req ≠ msg := by
    rintro rfl
    exact hfresh (by rw [h.msgPool]; exact List.mem_cons_self)
  have hcontent : w₂.messages req = w₁.messages req := h.messages req hne
  have htype : dataPoolOf (w₂.messages req).type = some req'.pool := by
    rw [hcontent, harr.carries.1]
    exact Request.dataPoolOf_type req'
  have hmailboxes := h.mailboxes
  simp only [hw.outgoing.1, List.nil_append] at hmailboxes
  rw [dropWrapper_eq htype]
  constructor
  · exact hmailboxes
  · rw [← harr.errors]
    exact h.errors
  · exact h.transactionId
  · constructor
    · simp only [freed h.type]
      rw [harr.msgPool, h.msgPool]
      exact List.Perm.swap _ _ _
    · intro pool'
      have hdata := h.dataPool pool'
      simp only at hdata
      simp only [freed h.type, hcontent]
      rw [harr.dataPool pool', hdata]
      exact List.perm_append_comm_assoc _ _ _
    · rfl
    · rw [← harr.errors]
      exact h.errors
  · exact h.good
  · exact h.text

/-- One call of the spinner's worker on the request that has arrived. -/
theorem request_served (hn : rustPlanLegs ≤ n) (libc : Libc F) (text : F → List Byte)
    (stale : (room : ℕ) → Vector Byte room) {w w₁ : World (Memory n F) ℕ DataPtr}
    {req tid : ℕ} {request : Request F} {channels : Channels F} {o : Output F} (hw : Quiet w)
    (harr : Arrived w w₁ req (tid, request)) (hc : Shown (channel0 channels) o) :
    (o.answer text (tid, request) = none ∧ spinnerCommLoop channels w₁ = none) ∨
      (o.answer text (tid, request) = some (o, none) ∧
        ∃ w', spinnerCommLoop channels w₁ = some (channels, w') ∧ Restored w w' ∧
          GoodPayloads w'.env) ∨
      ∃ o' channels' reply w' msg, o.answer text (tid, request) = some (o', some reply) ∧
        spinnerCommLoop channels w₁ = some (channels', w') ∧ Shown (channel0 channels') o' ∧
        Pending libc text stale w w' msg tid reply := by
  obtain ⟨mailbox, hread, hmailboxes⟩ := request_taken hw harr
  obtain ⟨htype, htid, -, read, hmsg, has⟩ := harr.carries
  have hmsg : messageOf (shared { w₁ with mailboxes := w.mailboxes }) req = some read := hmsg
  have hfree : dataPoolOf (w₁.messages req).type = some request.pool := by
    rw [htype]
    exact Request.dataPoolOf_type request
  rcases handleMessage_shown hn text hc has tid with ⟨hanswer, hhandle⟩ | ⟨hanswer, hhandle⟩ |
    ⟨o', channels', reply, hanswer, hhandle, hc'⟩
  · refine Or.inl ⟨hanswer, ?_⟩
    simp only [spinnerCommLoop, hread, hmailboxes, hmsg, hhandle]
    rfl
  · refine Or.inr (Or.inl ⟨hanswer, dropWrapper req { w₁ with mailboxes := w.mailboxes },
      ?_, ?_, ?_⟩)
    · simp only [spinnerCommLoop, hread, hmailboxes, hmsg, hhandle]
      rfl
    · rw [dropWrapper_eq (w := { w₁ with mailboxes := w.mailboxes }) hfree]
      constructor
      · rw [harr.msgPool]
      · intro pool'
        rw [harr.dataPool pool']
        exact List.Perm.refl _
      · rfl
      · exact harr.errors
    · rw [dropWrapper_eq (w := { w₁ with mailboxes := w.mailboxes }) hfree]
      exact harr.good hw.good
  · obtain ⟨pool, hpool⟩ := reply_pool reply
    have hmsgs := hw.msgs
    have hdatas := hw.data pool
    rw [harr.msgPool, List.length_cons] at hmsgs
    rw [harr.dataPool pool, List.length_append] at hdatas
    obtain ⟨msg, rest, hrest⟩ := List.exists_cons_of_length_pos
      (show 0 < w₁.env.msgPool.length by omega)
    obtain ⟨data, more, hmore⟩ := List.exists_cons_of_length_pos
      (show 0 < (w₁.env.dataPool pool).length by split_ifs at hdatas <;> simp at hdatas <;> omega)
    obtain ⟨w₂, hsend, hqueued⟩ := sendReply_queued hn libc text stale hc' tid reply
      (w := { w₁ with mailboxes := w.mailboxes }) hrest hpool hmore
      (hw.tidy.typed pool data (by rw [harr.dataPool pool, hmore]; simp)) (harr.good hw.good)
      (by rw [hw.outgoing.1]; exact hw.outgoing.2)
    refine Or.inr (Or.inr ⟨o', channels', _, dropWrapper req w₂, msg, hanswer, ?_, hc',
      hqueued.pending hw harr⟩)
    simp only [spinnerCommLoop, hread, hmailboxes, hmsg, htid, hhandle, hsend,
      Option.bind_eq_bind, Option.bind_some]

end Served

/-! Turn by turn. -/

/-- A request with what comes in on the line for it, and what the transmit worker meets when it
is called twice: stale bytes on its stack and room in the transmit buffer. -/
structure Turn (b : Board) (F : Type) where
  request : ℕ × Request F
  sent : List (Sent b.bspMaxMessageLength)
  calls : (Vector Byte b.bspMaxMessageLength × ℕ) × (Vector Byte b.bspMaxMessageLength × ℕ)

structure Station (b : Board) (F : Type) where
  rx : RxWorkerContext b.bspMaxMessageLength (Result (Memory b.maxSpinPlanLegs F) ℕ DataPtr)
  channels : Channels F
  errMailboxes : ℕ → Mailbox ℤ
  line : List Byte

variable {b : Board} [Zero F] (libc : Libc F) (text : F → List Byte)
  (stale : (room : ℕ) → Vector Byte room)
  (scribble : Vector Byte b.bspMaxMessageLength → Vector Byte b.bspMaxMessageLength)

/-- The receive worker until the line is silent, one call of `spinner_comm_loop` and two of
`check_outgoing_queue`. -/
def turnStep (t : Turn b F) (s : Station b F) : Option (Station b F) := do
  let subsystems := [spinnerConf libc (spinnerSerializers text stale)]
  let rx ← runs (receiveByte libc.nullAtEnd subsystems scribble) (t.sent.flatMap Sent.bytes) s.rx
  let (w, made) ← rx.subsystems.toOption
  let (channels, w) ← spinnerCommLoop s.channels w
  let (tx, line₁) ← transmit subsystems t.calls.1 ⟨w, s.errMailboxes⟩
  let (tx, line₂) ← transmit subsystems t.calls.2 tx
  some ⟨{ rx with subsystems := .ok (tx.toWorld, made) }, channels, tx.errMailboxes,
    s.line ++ (line₁ ++ line₂)⟩

def heard : List (Turn b F) → Output F → Option (Output F × List (List Byte))
  | [], o => some (o, [])
  | t :: turns, o => do
    let (o, reply) ← o.answer text t.request
    let (o, later) ← heard turns o
    some (o, (reply.map (heardReply b.bspMaxMessageLength t.calls.1.2)).toList ++ later)

/-- The frames of a turn carry its request, once and in full. -/
structure Asked (t : Turn b F) : Prop where
  writable : t.request.2.Writable libc text b.maxSpinPlanLegs
  transactionId : t.request.1 ≤ ulongMax
  sent : t.sent.filterMap Sent.payload? = [t.request.2.payload text t.request.1]

structure Ready (s : Station b F) (w : World (Memory b.maxSpinPlanLegs F) ℕ DataPtr)
    (o : Output F) : Prop where
  receiving : ∃ scan, Refines s.rx scan
  world : ∃ made, s.rx.subsystems = .ok (w, made)
  quiet : Quiet w
  noErrors : (s.errMailboxes 2).items = []
  shown : Shown (channel0 s.channels) o

section Turns

variable {libc text stale scribble} {t : Turn b F} {s : Station b F}
  {w : World (Memory b.maxSpinPlanLegs F) ℕ DataPtr} {o : Output F}

theorem turn_received (stale : (room : ℕ) → Vector Byte room)
    (scribble : Vector Byte b.bspMaxMessageLength → Vector Byte b.bspMaxMessageLength)
    (ht : Asked libc text t) (hs : Ready s w o) :
    ∃ rx w' made req scan, runs (receiveByte libc.nullAtEnd
        [spinnerConf libc (spinnerSerializers text stale)] scribble)
        (t.sent.flatMap Sent.bytes) s.rx = some rx ∧
      Refines rx scan ∧ rx.subsystems = .ok (w', made) ∧ Arrived w w' req t.request := by
  obtain ⟨scan, hscan⟩ := hs.receiving
  obtain ⟨made, hworld⟩ := hs.world
  have hquiet := hs.quiet
  have hn : b.maxSpinPlanLegs < 2 ^ 32 := by cases b <;> decide
  obtain ⟨rx, hrun, hrefines, hsame⟩ := receive_run libc.nullAtEnd
    [spinnerConf libc (spinnerSerializers text stale)] scribble hscan (t.sent.flatMap Sent.bytes)
  obtain ⟨msg, rest, hmsg⟩ := List.exists_cons_of_length_pos
    (show 0 < w.env.msgPool.length by have := hquiet.msgs; omega)
  obtain ⟨data, more, hdata⟩ := List.exists_cons_of_length_pos
    (show 0 < (w.env.dataPool t.request.2.pool).length by
      have := hquiet.data t.request.2.pool; omega)
  have hpool : data.pool = t.request.2.pool :=
    hquiet.tidy.typed _ data (by rw [hdata]; exact List.mem_cons_self)
  obtain ⟨hitems, hcapacity⟩ := hquiet.incoming
  obtain ⟨w', calls, hone, -, harrived⟩ := request_arrives (spinnerSerializers text stale) hn
    ht.writable ht.transactionId hmsg hdata hpool (by rw [hitems]; exact hcapacity)
  refine ⟨rx, w', made ++ calls, msg, _, hrun, hrefines, ?_, harrived⟩
  rw [hsame, hworld, scan_sent, ht.sent]
  simp only [List.map_cons, List.map_nil, List.foldl_cons, List.foldl_nil, outcome, route, hone]

omit [Zero F] in
theorem prefix_fits {n : ℕ} (hn : 250 ≤ n) {legs : ℕ} (libc : Libc F)
    (ser : SpinnerPools.Serializers legs F) {msg : Message DataPtr}
    (htid : msg.transactionId ≤ ulongMax) :
    ∀ handler ∈ (spinnerConf libc ser).messageHandlers,
      1 + (messagePrefix (spinnerConf libc ser) handler msg).length < n := by
  intro handler hhandler
  have hdigits : (decimal msg.transactionId).length ≤ 10 := by
    rw [decimal, List.length_map, Nat.length_toDigits_le_iff (by decide) (by decide)]
    unfold ulongMax at htid
    omega
  have hname : (cstr (spinnerConf libc ser).subsystemName).length = 7 := rfl
  have hall : ∀ name ∈ [ascii "SET_PLAN", ascii "GET_PLAN", ascii "PLAN_REPLY",
      ascii "SET_STATE", ascii "GET_STATE", ascii "STATE_REPLY", ascii "RET_VAL"],
      (cstr name).length ≤ 11 := by decide
  have hmsg := hall _ (List.mem_map_of_mem (f := MessageHandler.messageName) hhandler)
  simp only [messagePrefix, List.length_append, List.length_cons, hname]
  omega

omit [Zero F] in
/-- The transmit worker's two calls on a reply. -/
theorem turn_transmitted (htext : ∀ x, Clean (text x)) {w' : World (Memory b.maxSpinPlanLegs F) ℕ
    DataPtr} {msg tid : ℕ} {reply : List Byte} (htid : tid ≤ ulongMax) (hw : Quiet w)
    (h : Pending libc text stale w w' msg tid reply) {errMailboxes : ℕ → Mailbox ℤ}
    (hnone : (errMailboxes 2).items = []) (t : Turn b F) :
    ∃ tx₁ line₁ line₂ w₂, transmit [spinnerConf libc (spinnerSerializers text stale)] t.calls.1
        ⟨w', errMailboxes⟩ = some (tx₁, line₁) ∧
      transmit [spinnerConf libc (spinnerSerializers text stale)] t.calls.2 tx₁ =
        some (⟨w₂, errMailboxes⟩, line₂) ∧
      Restored w w₂ ∧ GoodPayloads w₂.env ∧
      line₁ ++ line₂ = lineFor t.calls.1.2 (formatted b.bspMaxMessageLength reply) := by
  have hn : 250 ≤ b.bspMaxMessageLength := by cases b <;> decide
  have hspoken : Spoken _ _ [spinnerConf (n := b.maxSpinPlanLegs) libc _] :=
    spinner_spoken libc htext stale
  have hformat := formatMessage_reply (show 1 < b.bspMaxMessageLength by omega) t.calls.1.1 hspoken
    (List.mem_singleton_self _) h.good
    (prefix_fits hn libc _ (by rw [h.transactionId]; exact htid)) h.text
  have hempty : w.mailboxes 1 = ⟨(w.mailboxes 1).capacity, []⟩ := by rw [← hw.outgoing.1]
  have hbox : w'.mailboxes 1 = ⟨(w.mailboxes 1).capacity, [msg]⟩ := by
    rw [h.mailboxes, Function.update_self]
  have hback : Function.update w'.mailboxes 1 { w'.mailboxes 1 with items := [] } =
      w.mailboxes := by
    rw [hbox, h.mailboxes, Function.update_idem, ← hempty, Function.update_eq_self]
  have herrors : ErrorsEmpty [spinnerConf libc (spinnerSerializers text stale)]
      (⟨w', errMailboxes⟩ : TxWorkerContext (Memory b.maxSpinPlanLegs F) ℕ DataPtr) := by
    refine ⟨by rw [h.errors]; exact hw.errors.1, ?_⟩
    rintro q ⟨conf, hconf, hq⟩
    obtain rfl := List.mem_singleton.mp hconf
    cases hq
    exact hnone
  obtain ⟨tx₁, line₁, line₂, hfirst, hsecond, hline⟩ := two_calls
    (show 1 < b.bspMaxMessageLength by omega) t.calls.1 t.calls.2 herrors
    (by rw [h.errors]; exact hw.errors.2) rfl (by rw [hbox]) rfl hformat
    (fun code hcode => (failure_fits hn _ hcode).2.2)
  refine ⟨tx₁, line₁, line₂, { w' with
    env := spinnerFreeMessage msg (w'.messages msg) w'.env
    mailboxes := w.mailboxes }, hfirst, ?_, h.restored, ?_, hline⟩
  · rw [hsecond, ← hback]
    rfl
  · obtain ⟨hplans, hsmalls⟩ := h.good
    simp only [spinnerFreeMessage]
    cases dataPoolOf (w'.messages msg).type with
    | none => exact ⟨hplans, hsmalls⟩
    | some pool => exact ⟨hplans, hsmalls⟩

/-- Step lemma: one turn, from one quiet state to the next. -/
theorem turn_taken (stale : (room : ℕ) → Vector Byte room)
    (scribble : Vector Byte b.bspMaxMessageLength → Vector Byte b.bspMaxMessageLength) {m : ℕ}
    (hm : b.bspMaxMessageLength ≤ m) (htext : ∀ x, Clean (text x))
    (ht : Asked libc text t) (hs : Ready s w o) :
    (o.answer text t.request = none ∧ turnStep libc text stale scribble t s = none) ∨
      ∃ o' reply s' w', o.answer text t.request = some (o', reply) ∧
        turnStep libc text stale scribble t s = some s' ∧ Ready s' w' o' ∧ Restored w w' ∧
        ∃ sent : List (Sent m), s'.line = s.line ++ sent.flatMap Sent.bytes ∧
          sent.filterMap Sent.payload? =
            (reply.map (heardReply b.bspMaxMessageLength t.calls.1.2)).toList := by
  have hn : 250 ≤ b.bspMaxMessageLength := by cases b <;> decide
  have hspoken : Spoken _ _ [spinnerConf (n := b.maxSpinPlanLegs) libc _] :=
    spinner_spoken libc htext stale
  obtain ⟨rx, w₁, made, req, scan, hrun, hrefines, hworld, harrived⟩ :=
    turn_received stale scribble ht hs
  have hreceived : rx.subsystems.toOption = some (w₁, made) := by rw [hworld]; rfl
  rcases request_served (SpinnerHistory.rustPlanLegs_le b) libc text stale hs.quiet harrived
    hs.shown with ⟨hanswer, hserve⟩ | ⟨hanswer, w', hserve, hrestored, hgood⟩ |
    ⟨o', channels', reply, w', msg, hanswer, hserve, hshown, hpending⟩
  · refine Or.inl ⟨hanswer, ?_⟩
    simp only [turnStep, hrun, hreceived, hserve, Option.bind_eq_bind, Option.bind_some,
      Option.bind_none]
  · have hquiet := hrestored.quiet hs.quiet hgood
    have hempty : AllEmpty [spinnerConf libc (spinnerSerializers text stale)]
        (⟨w', s.errMailboxes⟩ : TxWorkerContext (Memory b.maxSpinPlanLegs F) ℕ DataPtr) := by
      refine ⟨⟨hquiet.errors.1, ?_⟩, ?_⟩
      all_goals
        rintro q ⟨conf, hconf, hq⟩
        obtain rfl := List.mem_singleton.mp hconf
        cases hq
      · exact hs.noErrors
      · exact hquiet.outgoing.1
    refine Or.inr ⟨o, none, ⟨{ rx with subsystems := .ok (w', made) }, s.channels, s.errMailboxes,
      s.line⟩, w', hanswer, ?_, ⟨⟨scan, hrefines⟩, ⟨made, rfl⟩, hquiet, hs.noErrors,
      hs.shown⟩, hrestored, [], ?_, rfl⟩
    · simp only [turnStep, hrun, hreceived, hserve, idle_transmitted _ hempty, Option.bind_eq_bind,
        Option.bind_some, List.append_nil]
    · simp
  · obtain ⟨tx₁, line₁, line₂, w₂, hfirst, hsecond, hrestored, hgood, hline⟩ :=
      turn_transmitted htext ht.transactionId hs.quiet hpending hs.noErrors t
    obtain ⟨hclean, hlen⟩ := messageText_clean hspoken (List.mem_singleton_self _) hpending.good
      hpending.text
    obtain ⟨sent, hbytes, hheard⟩ := reply_heard hn hm t.calls.1.2 hclean hlen
    refine Or.inr ⟨o', some reply, ⟨{ rx with subsystems := .ok (w₂, made) }, channels',
      s.errMailboxes, s.line ++ (line₁ ++ line₂)⟩, w₂, hanswer, ?_, ⟨⟨scan, hrefines⟩, ⟨made, rfl⟩,
      hrestored.quiet hs.quiet hgood, hs.noErrors, hshown⟩, hrestored, sent, ?_, hheard⟩
    · simp only [turnStep, hrun, hreceived, hserve, hfirst, hsecond, Option.bind_eq_bind,
        Option.bind_some]
    · simp only [hline, hbytes]

/-- Run lemma. -/
theorem turns_taken (stale : (room : ℕ) → Vector Byte room)
    (scribble : Vector Byte b.bspMaxMessageLength → Vector Byte b.bspMaxMessageLength) {m : ℕ}
    (hm : b.bspMaxMessageLength ≤ m) (htext : ∀ x, Clean (text x))
    {turns : List (Turn b F)} (hturns : ∀ t ∈ turns, Asked libc text t) (hs : Ready s w o) :
    (heard text turns o = none ∧ runs (turnStep libc text stale scribble) turns s = none) ∨
      ∃ o' replies s' w', heard text turns o = some (o', replies) ∧
        runs (turnStep libc text stale scribble) turns s = some s' ∧ Ready s' w' o' ∧
        Restored w w' ∧ ∃ sent : List (Sent m), s'.line = s.line ++ sent.flatMap Sent.bytes ∧
          sent.filterMap Sent.payload? = replies := by
  induction turns generalizing s w o with
  | nil =>
    exact Or.inr ⟨o, [], s, w, rfl, rfl, hs, ⟨.refl _, fun _ => .refl _, rfl, rfl⟩, [], by simp,
      rfl⟩
  | cons t turns ih =>
    rcases turn_taken stale scribble hm htext
      (hturns t List.mem_cons_self) hs with ⟨hanswer, hstep⟩ |
      ⟨o₁, reply, s₁, w₁, hanswer, hstep, hs₁, hrestored, sent, hline, hsent⟩
    · exact Or.inl ⟨by simp [heard, hanswer], by simp [runs, hstep]⟩
    rcases ih (fun t' ht' => hturns t' (List.mem_cons_of_mem t ht')) hs₁ with ⟨hlater, hrun⟩ |
      ⟨o₂, replies, s₂, w₂, hlater, hrun, hs₂, hrestored', sent', hline', hsent'⟩
    · exact Or.inl ⟨by simp [heard, hanswer, hlater], by simp [runs, hstep, hrun]⟩
    · refine Or.inr ⟨o₂,
        (reply.map (heardReply b.bspMaxMessageLength t.calls.1.2)).toList ++ replies,
        s₂, w₂, by simp [heard, hanswer, hlater], by simp [runs, hstep, hrun], hs₂,
        hrestored.trans hrestored', sent ++ sent', ?_, ?_⟩
      · rw [hline', hline, List.flatMap_append, List.append_assoc]
      · rw [List.filterMap_append, hsent, hsent']

/-- A conversation of any length, heard by the receive worker of another board in whatever state
that is: the replies are those of the client's view, in order, each in full or as the error that
it has come to; requests to other channels are not answered; all blocks are back afterwards. Only
where the view has no answer does the program not get to the end. -/
theorem conversation_heard (b b' : Board) (hb : b.bspMaxMessageLength ≤ b'.bspMaxMessageLength)
    (libc : Libc F) {text : F → List Byte} (htext : ∀ x, Clean (text x))
    (stale : (room : ℕ) → Vector Byte room)
    (scribble : Vector Byte b.bspMaxMessageLength → Vector Byte b.bspMaxMessageLength)
    {turns : List (Turn b F)} (hturns : ∀ t ∈ turns, Asked libc text t) {s : Station b F}
    {w : World (Memory b.maxSpinPlanLegs F) ℕ DataPtr} {o : Output F} (hs : Ready s w o)
    (hline : s.line = []) {ρ : Type}
    (process : Vector Byte b'.bspMaxMessageLength → ρ → Vector Byte b'.bspMaxMessageLength × ρ)
    {client : RxWorkerContext b'.bspMaxMessageLength ρ} {scan : Scan}
    (hclient : Refines client scan) :
    match heard text turns o with
    | none => runs (turnStep libc text stale scribble) turns s = none
    | some (o', replies) => ∃ s' w' client',
        runs (turnStep libc text stale scribble) turns s = some s' ∧ Ready s' w' o' ∧
        Restored w w' ∧ feed process client s'.line =
          some (client', replies.map fun text => .delivered (text ++ [0])) := by
  rcases turns_taken stale scribble hb htext hturns hs with
    ⟨hnone, hrun⟩ | ⟨o', replies, s', w', hsome, hrun, hs', hrestored, sent, hbytes, hsent⟩
  · rw [hnone]
    exact hrun
  · obtain ⟨client', hfeed, -⟩ := feed_refines process client scan hclient s'.line
    rw [hsome]
    refine ⟨s', w', client', hrun, hs', hrestored, ?_⟩
    rw [hfeed, hbytes, hline, List.nil_append, scan_sent, hsent]

end Turns

section Client

/-- After `spinner_init` and `dispatcher_init`, with memory in which no reply is too long. -/
theorem ready_initial (b : Board) (queues : SpinnerSystem.Queues b)
    (buf : Vector Byte b.bspMaxMessageLength) (messages : ℕ → Message DataPtr)
    (plans : ℕ → SpinPlanData b.maxSpinPlanLegs F) (smalls : ℕ → SmallSizeMsgData F)
    {w : World (Memory b.maxSpinPlanLegs F) ℕ DataPtr}
    (henv : w.env = (SpinnerSystem.initial b messages plans smalls).mem)
    (hgood : GoodPayloads w.env) (hincoming : w.mailboxes 0 = ⟨queues.incoming, []⟩)
    (houtgoing : w.mailboxes 1 = ⟨queues.outgoing, []⟩)
    (herrors : w.errMsgQueue.items = [] ∧ 0 < w.errMsgQueue.capacity)
    {errMailboxes : ℕ → Mailbox ℤ} (hnone : (errMailboxes 2).items = []) :
    Ready (F := F) ⟨dispatcherInit buf (.ok (w, [])), initialChannels, errMailboxes, []⟩ w
      ⟨.stopped, []⟩ := by
  have hin := queues.incoming_slots
  have hout := queues.outgoing_slots
  refine ⟨⟨_, refines_init (by cases b <;> decide) buf _⟩, ⟨[], rfl⟩, ?_, hnone, shown_initial⟩
  refine ⟨⟨?_, ?_, ?_⟩, ?_, ?_, ?_, ?_, herrors, hgood⟩
  · rw [henv]
    exact List.nodup_range
  · intro pool
    rw [henv]
    have hinj (pool : DataPool) : Function.Injective (DataPtr.mk pool) :=
      fun i j h => by cases h; rfl
    cases pool <;> exact List.nodup_range.map (hinj _)
  · intro pool d hd
    rw [henv] at hd
    cases pool <;> obtain ⟨i, -, rfl⟩ := List.mem_map.mp hd <;> rfl
  · rw [henv, SpinnerSystem.initial, List.length_range]
    cases b <;> decide
  · intro pool
    rw [henv]
    cases pool <;> simp only [SpinnerSystem.initial, List.length_map, List.length_range] <;>
      cases b <;> decide
  · rw [hincoming]
    refine ⟨rfl, Nat.lt_of_lt_of_le ?_ hin⟩
    cases b <;> decide
  · rw [houtgoing]
    refine ⟨rfl, Nat.lt_of_lt_of_le ?_ hout⟩
    cases b <;> decide

/-- Three turns on the requests of `clientLine`; the transmit buffer has room for ten bytes when
the second reply is written. -/
def clientTurns : List (Turn .stm32f072discovery ℕ) :=
  let call (room : ℕ) : Vector Byte 250 × ℕ := (Vector.replicate 250 0, room)
  List.zipWith3 (fun request sent room => ⟨request, sent, call room, call 0⟩) clientRequests
    [clientLine.take 2, (clientLine.drop 2).take 1, clientLine.drop 3] [250, 10, 250]

example : (heard decimal clientTurns ⟨.stopped, []⟩).map Prod.snd =
    some [ascii "7,SPINNER,RET_VAL,0", ascii "DISPATCHER,ERROR,-9"] := by
  decide +kernel

theorem clientTurns_asked : ∀ t ∈ clientTurns, Asked wholeNumbers decimal t := by
  have hwritable := clientRequests_writable .stm32f072discovery
  intro t ht
  simp only [clientTurns, clientRequests, clientLine, List.zipWith3, List.take, List.drop,
    List.mem_cons, List.not_mem_nil, or_false] at ht
  rcases ht with rfl | rfl | rfl
  · obtain ⟨hreq, htid⟩ := hwritable (7, .setPlan 0 [⟨100, 50⟩, ⟨0, 7⟩]) (by simp [clientRequests])
    exact ⟨hreq, htid, rfl⟩
  · obtain ⟨hreq, htid⟩ := hwritable (8, .setState 0 true) (by simp [clientRequests])
    exact ⟨hreq, htid, rfl⟩
  · obtain ⟨hreq, htid⟩ := hwritable (9, .getPlan 255) (by simp [clientRequests])
    exact ⟨hreq, htid, rfl⟩

def startWorld : World (Memory Board.stm32f072discovery.maxSpinPlanLegs ℕ) ℕ DataPtr :=
  ⟨(SpinnerSystem.initial .stm32f072discovery (fun _ => ⟨0, 0, ⟨.smalls, 0⟩⟩)
      (fun _ => ⟨0, 0, Vector.replicate _ ⟨0, 0⟩⟩) (fun _ => ⟨0, 0, 0, 0, 0⟩)).mem,
    fun _ => ⟨0, 0, ⟨.smalls, 0⟩⟩, fun _ => ⟨9, []⟩, ⟨9, []⟩⟩

theorem client_conversation :
    match heard decimal clientTurns ⟨.stopped, []⟩ with
    | none => runs (turnStep wholeNumbers decimal zeros id) clientTurns
        ⟨dispatcherInit (Vector.replicate _ 0) (.ok (startWorld, [])), initialChannels,
          fun _ => ⟨9, []⟩, []⟩ = none
    | some (o', replies) => ∃ s' w' client',
        runs (turnStep wholeNumbers decimal zeros id) clientTurns
          ⟨dispatcherInit (Vector.replicate _ 0) (.ok (startWorld, [])), initialChannels,
            fun _ => ⟨9, []⟩, []⟩ = some s' ∧ Ready s' w' o' ∧ Restored startWorld w' ∧
        feed (fun buf (u : Unit) => (buf, u))
          (dispatcherInit (Vector.replicate Board.stm32f411discovery.bspMaxMessageLength 0) ())
          s'.line = some (client', replies.map fun text => .delivered (text ++ [0])) :=
  conversation_heard .stm32f072discovery .stm32f411discovery (by decide) wholeNumbers clean_decimal
    zeros id clientTurns_asked
    (ready_initial .stm32f072discovery ⟨9, 9, by decide, by decide⟩ _ _ _ _ rfl
      ⟨fun _ => show (0 : UInt32).toNat ≤ 20 by decide,
        fun _ => show (0 : UInt32).toNat < Serializers.spinStateLut.length by decide⟩ rfl rfl
      ⟨rfl, show 0 < 9 by decide⟩ rfl) rfl _ (refines_init (by decide) _ ())

end Client

end Ratfist.Conversation
