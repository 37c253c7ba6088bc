import Ratfist.Conversation
import Ratfist.Network

/-!
The spinner's memory behind the network of queues: which block is where, what the queued blocks
hold, and one lemma for each thing that the workers do to them.
-/
namespace Ratfist.NetworkMemory

open CString CheckedArray Constants Assembler FrameScan FrameRoundTrip Subsystem Routing
  RoutingOutcomes Transmit TransmitQueue SpinnerMessages SpinnerChannel SpinnerPools FieldText
  NumberFields SetPlanParsing RequestParsing SentLine PlanReadBack ReceivedStream RequestRoundTrip
  MessageReading SpinnerWorker TransmitRoom ClientView Conversation Network Runs

variable {F : Type} {n : ℕ}

/-! The blocks that are under way. -/

def held (w : World (Memory n F) ℕ DataPtr) (live : List ℕ) : List DataPtr :=
  live.map fun msg => (w.messages msg).data

/-- Every block is in its pool or with one live message. -/
structure Blocks (L : Limits) (w : World (Memory n F) ℕ DataPtr) (live : List ℕ) : Prop where
  msgs : (w.env.msgPool ++ live).Nodup
  data : (w.env.dataPool .plans ++ (w.env.dataPool .smalls ++ held w live)).Nodup
  typed : ∀ pool, ∀ d ∈ w.env.dataPool pool, d.pool = pool
  known : ∀ msg ∈ live, dataPoolOf (w.messages msg).type = some (w.messages msg).data.pool
  msgCount : w.env.msgPool.length + live.length = L.msgs
  dataCount : ∀ pool, (w.env.dataPool pool).length +
    live.countP (fun msg => (w.messages msg).data.pool = pool) = L.data pool

section Blocks

variable {L : Limits} {w w' : World (Memory n F) ℕ DataPtr} {live live' : List ℕ} {msg : ℕ}

theorem Blocks.perm (h : Blocks L w live) (hperm : live.Perm live') : Blocks L w live' where
  msgs := (hperm.append_left _).nodup_iff.mp h.msgs
  data := (((hperm.map _).append_left _).append_left _).nodup_iff.mp h.data
  typed := h.typed
  known msg hmsg := h.known msg (hperm.mem_iff.mpr hmsg)
  msgCount := by rw [← hperm.length_eq]; exact h.msgCount
  dataCount pool := by rw [← hperm.countP_eq]; exact h.dataCount pool

theorem Blocks.congr (h : Blocks L w live) (hmsgPool : w'.env.msgPool = w.env.msgPool)
    (hdataPool : w'.env.dataPool = w.env.dataPool) (hmessages : w'.messages = w.messages) :
    Blocks L w' live where
  msgs := by rw [hmsgPool]; exact h.msgs
  data := by rw [hdataPool, held, hmessages]; exact h.data
  typed := by rw [hdataPool]; exact h.typed
  known := by rw [hmessages]; exact h.known
  msgCount := by rw [hmsgPool]; exact h.msgCount
  dataCount := by rw [hdataPool, hmessages]; exact h.dataCount

/-- The blocks of a live message are not in the pools. -/
theorem Blocks.apart (h : Blocks L w live) (hmsg : msg ∈ live) :
    msg ∉ w.env.msgPool ∧ ∀ pool, (w.messages msg).data ∉ w.env.dataPool pool := by
  have hheld : (w.messages msg).data ∈ held w live := List.mem_map_of_mem hmsg
  refine ⟨fun hin => (List.disjoint_of_nodup_append h.msgs) hin hmsg, ?_⟩
  intro pool hin
  have hright := (List.nodup_append'.mp h.data).2.1
  cases pool with
  | plans =>
    exact (List.disjoint_of_nodup_append h.data) hin (List.mem_append_right _ hheld)
  | smalls => exact (List.disjoint_of_nodup_append hright) hin hheld

theorem Blocks.took {pool : DataPool} (h : Blocks L w live) (ht : Took pool w w' msg)
    (hknown : dataPoolOf (w'.messages msg).type = some pool) : Blocks L w' (msg :: live) := by
  have hfresh : ∀ m ∈ live, m ≠ msg := by
    rintro m hm rfl
    exact (h.apart hm).1 (by rw [ht.msgPool]; exact List.mem_cons_self)
  have hsame : ∀ m ∈ live, w'.messages m = w.messages m :=
    fun m hm => ht.messages m (hfresh m hm)
  have hheld : held w' live = held w live := by
    refine List.map_congr_left fun m hm => ?_
    rw [hsame m hm]
  refine ⟨?_, ?_, ?_, ?_, ?_, ?_⟩
  · have hmsgs := h.msgs
    rw [ht.msgPool] at hmsgs
    exact List.perm_middle.nodup_iff.mpr hmsgs
  · have hdata := h.data
    rw [ht.dataPool .plans, ht.dataPool .smalls] at hdata
    refine (List.Perm.nodup_iff ?_).mpr hdata
    rw [show held w' (msg :: live) = (w'.messages msg).data :: held w' live from rfl, hheld]
    refine List.perm_iff_count.mpr fun d => ?_
    cases pool <;> simp only [List.count_append, List.count_cons, if_true, if_false,
      List.count_nil, reduceCtorEq] <;> omega
  · intro pool' d hd
    refine h.typed pool' d ?_
    rw [ht.dataPool pool']
    exact List.mem_append_right _ hd
  · intro m hm
    rcases List.mem_cons.mp hm with rfl | hm
    · rw [hknown, ht.kind]
    · rw [hsame m hm]
      exact h.known m hm
  · have hcount := h.msgCount
    rw [ht.msgPool, List.length_cons] at hcount
    rw [List.length_cons]
    omega
  · intro pool'
    have hcount := h.dataCount pool'
    have hlive : live.countP (fun m => (w'.messages m).data.pool = pool') =
        live.countP (fun m => (w.messages m).data.pool = pool') := by
      refine List.countP_congr fun m hm => ?_
      rw [hsame m hm]
    rw [ht.dataPool pool'] at hcount
    rw [List.countP_cons, hlive, ht.kind]
    by_cases hp : pool' = pool
    · subst hp
      simp only [if_true, List.length_append, List.length_singleton] at hcount
      simp only [decide_true, if_true]
      omega
    · simp only [hp, if_false, List.nil_append] at hcount
      simp only [Ne.symm hp, decide_false, Bool.false_eq_true, if_false]
      exact hcount

/-- A live message is given back. -/
theorem Blocks.free (h : Blocks L w (msg :: live)) {env : Memory n F}
    (henv : env.msgPool = msg :: w.env.msgPool ∧ ∀ pool, env.dataPool pool =
      front (w.messages msg).data.pool (w.messages msg).data pool ++ w.env.dataPool pool) :
    Blocks L { w with env := env } live := by
  obtain ⟨hmsgPool, hdataPool⟩ := henv
  refine ⟨?_, ?_, ?_, ?_, ?_, ?_⟩
  · rw [hmsgPool]
    exact List.perm_middle.nodup_iff.mp h.msgs
  · refine (List.Perm.nodup_iff ?_).mpr h.data
    simp only [hdataPool, held, List.map_cons, front]
    refine List.perm_iff_count.mpr fun d => ?_
    cases (w.messages msg).data.pool <;> simp only [List.count_append, List.count_cons, if_true,
      if_false, List.count_nil, reduceCtorEq] <;> omega
  · intro pool d hd
    simp only [hdataPool, front] at hd
    rcases List.mem_append.mp hd with hd | hd
    · split_ifs at hd with hp
      · rw [List.mem_singleton.mp hd, hp]
      · exact absurd hd List.not_mem_nil
    · exact h.typed pool d hd
  · exact fun m hm => h.known m (List.mem_cons_of_mem msg hm)
  · have hcount := h.msgCount
    rw [List.length_cons] at hcount
    simp only [hmsgPool, List.length_cons]
    omega
  · intro pool
    have hcount := h.dataCount pool
    rw [List.countP_cons] at hcount
    simp only [hdataPool, front, List.length_append]
    by_cases hp : pool = (w.messages msg).data.pool
    · simp only [hp, if_true, List.length_singleton, decide_true] at hcount ⊢
      omega
    · simp only [hp, Ne.symm hp, if_false, List.length_nil, decide_false, Bool.false_eq_true]
        at hcount ⊢
      omega

end Blocks

/-! The network behind the memory. -/

section Mirror

variable (libc : Libc F) (text : F → List Byte) (stale : (room : ℕ) → Vector Byte room)

structure Told (w : World (Memory n F) ℕ DataPtr) (msg : ℕ) (reply : DataPool × List Byte) :
    Prop where
  kind : (w.messages msg).data.pool = reply.1
  type : dataPoolOf (w.messages msg).type = some reply.1
  transactionId : (w.messages msg).transactionId ≤ ulongMax
  text : messageText (spinnerText text) (spinnerConf libc (spinnerSerializers text stale))
    (w.messages msg) w.env = some reply.2

/-- The queues hold blocks with the requests and replies of the network. -/
structure InQueues (L : Limits) (w : World (Memory n F) ℕ DataPtr) (s : Net F)
    (reqs msgs : List ℕ) : Prop where
  good : GoodPayloads w.env
  incoming : w.mailboxes 0 = ⟨L.incoming, reqs⟩
  outgoing : (w.mailboxes 1).items = msgs ∧ L.msgs ≤ (w.mailboxes 1).capacity + 1
  errors : w.errMsgQueue = ⟨L.errors, s.errors⟩
  carries : List.Forall₂ (Carries w) reqs s.waiting
  ids : ∀ req ∈ s.waiting, req.1 ≤ ulongMax
  tells : List.Forall₂ (Told libc text stale w) msgs s.replies

/-- The same, and no other blocks are under way. -/
structure Mirrors (L : Limits) (w : World (Memory n F) ℕ DataPtr) (s : Net F)
    (reqs msgs : List ℕ) : Prop extends InQueues libc text stale L w s reqs msgs where
  blocks : Blocks L w (reqs ++ msgs)

variable {libc text stale} {L : Limits} {w w' : World (Memory n F) ℕ DataPtr} {s : Net F}
  {reqs msgs live : List ℕ} {msg : ℕ} {reply : DataPool × List Byte}

theorem spinnerText_congr (text : F → List Byte) {mem mem' : Memory n F} {msg : Message DataPtr}
    (hknown : dataPoolOf msg.type = some msg.data.pool)
    (hplans : msg.data.pool = .plans → mem'.plans msg.data.idx = mem.plans msg.data.idx)
    (hsmalls : msg.data.pool = .smalls → mem'.smalls msg.data.idx = mem.smalls msg.data.idx)
    (handler : MessageHandler (Memory n F) DataPtr) :
    spinnerText text handler msg mem' = spinnerText text handler msg mem := by
  unfold spinnerText
  by_cases hplan : msg.type = planReply
  · have hpool : msg.data.pool = .plans := by
      rw [hplan] at hknown
      exact (Option.some.inj hknown).symm
    rw [if_pos hplan, if_pos hplan, hplans hpool]
  by_cases hstate : msg.type = stateReply
  · have hpool : msg.data.pool = .smalls := by
      rw [hstate] at hknown
      exact (Option.some.inj hknown).symm
    rw [if_neg hplan, if_neg hplan, if_pos hstate, if_pos hstate, hsmalls hpool]
  by_cases hret : msg.type = retVal
  · have hpool : msg.data.pool = .smalls := by
      rw [hret] at hknown
      exact (Option.some.inj hknown).symm
    rw [if_neg hplan, if_neg hplan, if_neg hstate, if_neg hstate, if_pos hret, if_pos hret,
      hsmalls hpool]
  · rw [if_neg hplan, if_neg hplan, if_neg hstate, if_neg hstate, if_neg hret, if_neg hret]

/-- A queued reply stays as it is while other blocks are written to. -/
theorem Told.untouched (h : Told libc text stale w msg reply) (hw : Untouched w w')
    (hmsg : msg ∉ w.env.msgPool) (hdata : ∀ pool, (w.messages msg).data ∉ w.env.dataPool pool) :
    Told libc text stale w' msg reply := by
  have hsame := hw.messages msg hmsg
  have hptr : (w.messages msg).data = ⟨(w.messages msg).data.pool, (w.messages msg).data.idx⟩ := rfl
  have hknown : dataPoolOf (w.messages msg).type = some (w.messages msg).data.pool := by
    rw [h.kind]
    exact h.type
  have htext (handler : MessageHandler (Memory n F) DataPtr) :
      spinnerText text handler (w.messages msg) w'.env =
        spinnerText text handler (w.messages msg) w.env := by
    refine spinnerText_congr text hknown ?_ ?_ handler
    · intro hpool
      refine hw.plans _ ?_
      rw [← hpool]
      exact hdata _
    · intro hpool
      refine hw.smalls _ ?_
      rw [← hpool]
      exact hdata _
  refine ⟨by rw [hsame]; exact h.kind, by rw [hsame]; exact h.type,
    by rw [hsame]; exact h.transactionId, ?_⟩
  rw [← h.text, hsame]
  unfold messageText
  simp only [htext]

theorem carries_untouched {waiting : List (TaggedRequest F)} (hblocks : Blocks L w live)
    (hw : Untouched w w') (hlive : ∀ m ∈ reqs, m ∈ live)
    (h : List.Forall₂ (Carries w) reqs waiting) : List.Forall₂ (Carries w') reqs waiting := by
  refine ((List.forall₂_and_left _ _).mpr ⟨hlive, h⟩).imp fun m req ⟨hm, hcarries⟩ => ?_
  obtain ⟨hmsg, hdata⟩ := hblocks.apart hm
  exact hcarries.untouched hw hmsg (hdata _)

theorem told_untouched {replies : List (DataPool × List Byte)} (hblocks : Blocks L w live)
    (hw : Untouched w w') (hlive : ∀ m ∈ msgs, m ∈ live)
    (h : List.Forall₂ (Told libc text stale w) msgs replies) :
    List.Forall₂ (Told libc text stale w') msgs replies := by
  refine ((List.forall₂_and_left _ _).mpr ⟨hlive, h⟩).imp fun m reply ⟨hm, htold⟩ => ?_
  obtain ⟨hmsg, hdata⟩ := hblocks.apart hm
  exact htold.untouched hw hmsg hdata

theorem countP_of_forall₂ {α β : Type} {r : α → β → Prop} {p : α → Bool} {q : β → Bool}
    {l : List α} {l' : List β} (h : List.Forall₂ r l l') (hpq : ∀ a b, r a b → p a = q b) :
    l.countP p = l'.countP q := by
  induction h with
  | nil => rfl
  | cons hab _ ih => rw [List.countP_cons, List.countP_cons, ih, hpq _ _ hab]

/-- The network knows whether there are blocks. -/
theorem Mirrors.hasBlocks_iff (h : Mirrors libc text stale L w s reqs msgs) (pool : DataPool) :
    s.hasBlocks L pool = true ↔ w.env.msgPool ≠ [] ∧ w.env.dataPool pool ≠ [] := by
  have hreqs := h.carries.length_eq
  have hmsgs := h.tells.length_eq
  have hmsgCount := h.blocks.msgCount
  have hdataCount := h.blocks.dataCount pool
  have hwaiting : reqs.countP (fun m => (w.messages m).data.pool = pool) =
      s.waiting.countP fun r => r.2.pool = pool :=
    countP_of_forall₂ h.carries fun m req hm => by rw [hm.2.2.1]
  have hreplies : msgs.countP (fun m => (w.messages m).data.pool = pool) =
      s.replies.countP fun r => r.1 = pool :=
    countP_of_forall₂ h.tells fun m reply hm => by rw [hm.kind]
  rw [List.length_append] at hmsgCount
  rw [List.countP_append, hwaiting, hreplies] at hdataCount
  rw [Net.hasBlocks, decide_eq_true_iff, ← List.length_pos_iff, ← List.length_pos_iff]
  omega

theorem Mirrors.report (h : Mirrors libc text stale L w s reqs msgs) (code : ℤ) :
    Mirrors libc text stale L (w.scheduleErrMessage code) (s.report L code) reqs msgs := by
  have huntouched : Untouched w (w.scheduleErrMessage code) :=
    ⟨fun _ _ => rfl, fun _ _ => rfl, fun _ _ => rfl⟩
  refine ⟨⟨h.good, h.incoming, h.outgoing, ?_, ?_, ?_, ?_⟩, h.blocks.congr rfl rfl rfl⟩
  · simp only [World.scheduleErrMessage, h.errors, Mailbox.write, Mailbox.full, Net.report]
    by_cases hroom : s.errors.length < L.errors
    · simp [hroom, Nat.not_le_of_lt hroom]
    · simp [hroom, Nat.le_of_not_lt hroom]
  · rw [Net.report_waiting]
    exact carries_untouched h.blocks huntouched (fun m hm => List.mem_append_left _ hm) h.carries
  · rw [Net.report_waiting]
    exact h.ids
  · rw [Net.report_replies]
    exact told_untouched h.blocks huntouched (fun m hm => List.mem_append_right _ hm) h.tells

/-- Blocks that are not under way have been written to, and the queues are as before. -/
theorem InQueues.moved (h : InQueues libc text stale L w s reqs msgs) (hblocks : Blocks L w live)
    (hlive : ∀ m ∈ reqs ++ msgs, m ∈ live) (hw : Untouched w w') (hgood : GoodPayloads w'.env)
    (hmailboxes : w'.mailboxes = w.mailboxes) (herrors : w'.errMsgQueue = w.errMsgQueue) :
    InQueues libc text stale L w' s reqs msgs where
  good := hgood
  incoming := by rw [hmailboxes]; exact h.incoming
  outgoing := by rw [hmailboxes]; exact h.outgoing
  errors := by rw [herrors]; exact h.errors
  carries :=
    carries_untouched hblocks hw (fun m hm => hlive m (List.mem_append_left _ hm)) h.carries
  ids := h.ids
  tells := told_untouched hblocks hw (fun m hm => hlive m (List.mem_append_right _ hm)) h.tells

/-- Without blocks for it an allocation changes nothing. -/
theorem alloc_none {mem : Memory n F} {type : ℕ} {pool : DataPool}
    (hpool : dataPoolOf type = some pool) (h : ¬ (mem.msgPool ≠ [] ∧ mem.dataPool pool ≠ [])) :
    spinnerAllocMessage type mem = (none, mem) := by
  rcases hmsg : mem.msgPool with _ | ⟨msg, rest⟩
  · simp only [spinnerAllocMessage, hmsg]
  · have hdata : mem.dataPool pool = [] := by
      by_contra hne
      exact h ⟨by simp [hmsg], hne⟩
    simp only [spinnerAllocMessage, hmsg, hpool, hdata]
    rw [← hmsg]

/-- Blocks are taken for a payload that is refused, and given back. -/
theorem Mirrors.returned (h : Mirrors libc text stale L w s reqs msgs) {pool : DataPool}
    {env : Memory n F} {messages : ℕ → Message DataPtr}
    (htook : Took pool w ⟨env, messages, w.mailboxes, w.errMsgQueue⟩ msg)
    (hknown : dataPoolOf (messages msg).type = some pool)
    (hgood : GoodPayloads w.env → GoodPayloads env) :
    Mirrors libc text stale L ⟨spinnerFreeMessage msg (messages msg) env, messages, w.mailboxes,
      w.errMsgQueue⟩ s reqs msgs := by
  have hlive := h.blocks.took htook hknown
  have huntouched := htook.untouched
  have hkind : (messages msg).data.pool = pool := htook.kind
  rw [freed hknown]
  exact ⟨h.toInQueues.moved h.blocks (fun _ hm => hm)
    ⟨huntouched.messages, huntouched.plans, huntouched.smalls⟩ (hgood h.good) rfl rfl,
    (show Blocks L ⟨{ env with
      msgPool := msg :: env.msgPool
      dataPool := fun pool' => front pool (messages msg).data pool' ++ env.dataPool pool' },
      messages, w.mailboxes, w.errMsgQueue⟩ (reqs ++ msgs) from
        hlive.free ⟨rfl, fun _ => by rw [hkind]⟩)⟩

/-- Without blocks for it a request is dropped, and the peer is told. -/
theorem Mirrors.outOfBlocks (h : Mirrors libc text stale L w s reqs msgs) {req : Request F}
    (hblocks : ¬ s.hasBlocks L req.pool = true) (tid : ℕ) (save : Option (List Byte)) :
    ∃ w' calls, handOver (spinnerConf libc (spinnerSerializers text stale)) req.type
        (req.parser libc) tid save w = .ok (w', calls) ∧
      Mirrors libc text stale L w' (s.report L memAllocError) reqs msgs := by
  have hnone := alloc_none (Request.dataPoolOf_type req) fun hboth =>
    hblocks ((h.hasBlocks_iff req.pool).mpr hboth)
  have halloc : (spinnerConf libc (spinnerSerializers (n := n) text stale)).allocMessage =
      some spinnerAllocMessage := rfl
  exact ⟨_, _, by simp only [handOver, halloc, hnone]; rfl, h.report memAllocError⟩

/-- With blocks for it a request gets the next one of either kind. -/
theorem Mirrors.nextBlocks (h : Mirrors libc text stale L w s reqs msgs) {pool : DataPool}
    (hblocks : s.hasBlocks L pool = true) :
    ∃ msg rest data more, w.env.msgPool = msg :: rest ∧ w.env.dataPool pool = data :: more ∧
      data.pool = pool := by
  obtain ⟨hmsgs, hdatas⟩ := (h.hasBlocks_iff pool).mp hblocks
  obtain ⟨msg, rest, hmsg⟩ := List.exists_cons_of_ne_nil hmsgs
  obtain ⟨data, more, hdata⟩ := List.exists_cons_of_ne_nil hdatas
  exact ⟨msg, rest, data, more, hmsg, hdata,
    h.blocks.typed pool data (by rw [hdata]; exact List.mem_cons_self)⟩

section Arrive

variable {tid : ℕ} {req : Request F} {save : Option (List Byte)} {rest : List ℕ} {data : DataPtr}
  {more : List DataPtr}

theorem update_known (w : World (Memory n F) ℕ DataPtr) :
    dataPoolOf (Function.update w.messages msg ⟨req.type, tid, data⟩ msg).type =
      some req.pool := by
  rw [Function.update_self]
  exact Request.dataPoolOf_type req

/-- A payload that has the type of the request and is refused: its blocks go back. -/
theorem Mirrors.misread (hn : n < 2 ^ 32) (h : Mirrors libc text stale L w s reqs msgs)
    (hmisread : req.Misread libc n (savedTokens comma save)) (hmsg : w.env.msgPool = msg :: rest)
    (hdata : w.env.dataPool req.pool = data :: more) (hkind : data.pool = req.pool) (tid : ℕ) :
    ∃ w' calls, handOver (spinnerConf libc (spinnerSerializers text stale)) req.type
        (req.parser libc) tid save w = .ok (w', calls) ∧
      Mirrors libc text stale L w' (s.report L messageParsingError) reqs msgs := by
  have halloc : (spinnerConf libc (spinnerSerializers (n := n) text stale)).allocMessage =
      some spinnerAllocMessage := rfl
  have hfree : (spinnerConf libc (spinnerSerializers (n := n) text stale)).freeMessage =
      some spinnerFreeMessage := rfl
  obtain ⟨env, hres, htook, hgood⟩ := request_took libc hn req tid save hmsg hdata hkind
  obtain ⟨env', hparse⟩ : ∃ env', req.parser libc ⟨req.type, tid, data⟩ save env =
      (false, env') := ⟨_, Prod.ext (parser_misreads hmisread req.type tid data env) rfl⟩
  rw [hparse] at htook hgood
  exact ⟨_, _, by
    simp only [handOver, halloc, hres, hparse, Bool.not_false, if_true, giveBack, hfree]
    rfl, (h.returned htook (update_known w) hgood).report messageParsingError⟩

/-- A request that has been read and finds its queue full: its blocks go back. -/
theorem Mirrors.queueFull (hn : n < 2 ^ 32) (h : Mirrors libc text stale L w s reqs msgs)
    (hread : req.ReadFrom libc n (savedTokens comma save)) (hmsg : w.env.msgPool = msg :: rest)
    (hdata : w.env.dataPool req.pool = data :: more) (hkind : data.pool = req.pool) (tid : ℕ)
    (hslot : ¬ s.waiting.length < L.incoming) :
    ∃ w' calls, handOver (spinnerConf libc (spinnerSerializers text stale)) req.type
        (req.parser libc) tid save w = .ok (w', calls) ∧
      Mirrors libc text stale L w' (s.report L messageRoutingError) reqs msgs := by
  have halloc : (spinnerConf libc (spinnerSerializers (n := n) text stale)).allocMessage =
      some spinnerAllocMessage := rfl
  have hfree : (spinnerConf libc (spinnerSerializers (n := n) text stale)).freeMessage =
      some spinnerFreeMessage := rfl
  have hqueue : (spinnerConf libc (spinnerSerializers (n := n) text stale)).incomingMsgQueue =
      some 0 := rfl
  have hlen := h.carries.length_eq
  have hfull : (w.mailboxes 0).full = true := by
    simp only [h.incoming, Mailbox.full, decide_eq_true_iff]
    omega
  obtain ⟨env, env', hres, hparse, hstored⟩ := request_stored hn hread tid hmsg hdata hkind
  have hreturned := h.returned hstored.toTook (update_known w) hstored.good
  exact ⟨_, _, by
    simp only [handOver, halloc, hres, hparse, Bool.not_true, Bool.false_eq_true, if_false,
      hqueue, Mailbox.write, hfull, if_true, Bool.not_false, giveBack, hfree]
    rfl, hreturned.report messageRoutingError⟩

/-- A request that has been read into blocks of its own and queued. -/
theorem Mirrors.queued (h : Mirrors libc text stale L w s reqs msgs) (htid : tid ≤ ulongMax)
    (hstored : Stored w w' msg (tid, req)) (hmailboxes : w'.mailboxes = w.mailboxes)
    (hknown : dataPoolOf (w'.messages msg).type = some req.pool) :
    Mirrors libc text stale L { w' with
        mailboxes := Function.update w'.mailboxes 0 ⟨L.incoming, reqs ++ [msg]⟩ }
      { s with waiting := s.waiting ++ [(tid, req)] } (reqs ++ [msg]) msgs := by
  have huntouched := hstored.toTook.untouched
  refine ⟨⟨hstored.good h.good, ?_, ?_, ?_, ?_, ?_, ?_⟩, ?_⟩
  · simp
  · simpa [hmailboxes] using h.outgoing
  · exact hstored.errors.trans h.errors
  · exact List.rel_append (carries_untouched h.blocks huntouched
      (fun m hm => List.mem_append_left _ hm) h.carries) (.cons hstored.carries .nil)
  · intro r hr
    rcases List.mem_append.mp hr with hr | hr
    · exact h.ids r hr
    · rw [List.mem_singleton.mp hr]
      exact htid
  · exact told_untouched h.blocks
      ⟨huntouched.messages, huntouched.plans, huntouched.smalls⟩
      (fun m hm => List.mem_append_right _ hm) h.tells
  · refine ((h.blocks.took hstored.toTook hknown).perm ?_).congr rfl rfl rfl
    rw [List.append_assoc]
    exact List.perm_middle.symm

/-- A request that has been read and finds a slot. -/
theorem Mirrors.queueSlot (hn : n < 2 ^ 32) (h : Mirrors libc text stale L w s reqs msgs)
    (hread : req.ReadFrom libc n (savedTokens comma save)) (hmsg : w.env.msgPool = msg :: rest)
    (hdata : w.env.dataPool req.pool = data :: more) (hkind : data.pool = req.pool)
    (htid : tid ≤ ulongMax) (hslot : s.waiting.length < L.incoming) :
    ∃ w' calls, handOver (spinnerConf libc (spinnerSerializers text stale)) req.type
        (req.parser libc) tid save w = .ok (w', calls) ∧
      Mirrors libc text stale L w' { s with waiting := s.waiting ++ [(tid, req)] }
        (reqs ++ [msg]) msgs := by
  have halloc : (spinnerConf libc (spinnerSerializers (n := n) text stale)).allocMessage =
      some spinnerAllocMessage := rfl
  have hqueue : (spinnerConf libc (spinnerSerializers (n := n) text stale)).incomingMsgQueue =
      some 0 := rfl
  have hlen := h.carries.length_eq
  have hroom : (w.mailboxes 0).full = false := by
    simp only [h.incoming, Mailbox.full, decide_eq_false_iff_not]
    omega
  obtain ⟨env, env', hres, hparse, hstored⟩ := request_stored hn hread tid hmsg hdata hkind
  have hsent := handOver_sent (req.parser libc) req.type tid save w halloc hres hparse hqueue
    hroom
  rw [h.incoming] at hsent
  exact ⟨_, _, hsent, h.queued htid hstored rfl (update_known w)⟩

end Arrive

/-- A request, or a payload that has its type and is refused. -/
theorem Mirrors.handedOver (hn : n < 2 ^ 32) (h : Mirrors libc text stale L w s reqs msgs)
    {tid : ℕ} {req : Request F} {save : Option (List Byte)}
    {arrival : Arrival F} (htid : tid ≤ ulongMax)
    (hread : req.ReadFrom libc n (savedTokens comma save) ∧ arrival = .request (tid, req) ∨
      req.Misread libc n (savedTokens comma save) ∧ arrival = .malformed req.pool) :
    ∃ w' calls reqs', handOver (spinnerConf libc (spinnerSerializers text stale)) req.type
        (req.parser libc) tid save w = .ok (w', calls) ∧
      Mirrors libc text stale L w' (s.arrive L arrival) reqs' msgs := by
  by_cases hblocks : s.hasBlocks L req.pool = true
  swap
  · obtain ⟨w', calls, hcall, h'⟩ := h.outOfBlocks hblocks tid save
    have harrive : s.arrive L arrival = s.report L memAllocError := by
      rcases hread with ⟨-, rfl⟩ | ⟨-, rfl⟩ <;> simp only [Net.arrive, if_neg hblocks]
    rw [harrive]
    exact ⟨w', calls, reqs, hcall, h'⟩
  obtain ⟨msg, rest, data, more, hmsg, hdata, hkind⟩ := h.nextBlocks hblocks
  rcases hread with ⟨hread, rfl⟩ | ⟨hmisread, rfl⟩
  · simp only [Net.arrive, if_pos hblocks]
    by_cases hslot : s.waiting.length < L.incoming
    · obtain ⟨w', calls, hcall, h'⟩ := h.queueSlot hn hread hmsg hdata hkind htid hslot
      rw [if_pos hslot]
      exact ⟨w', calls, reqs ++ [msg], hcall, h'⟩
    · obtain ⟨w', calls, hcall, h'⟩ := h.queueFull hn hread hmsg hdata hkind tid hslot
      rw [if_neg hslot]
      exact ⟨w', calls, reqs, hcall, h'⟩
  · obtain ⟨w', calls, hcall, h'⟩ := h.misread hn hmisread hmsg hdata hkind tid
    simp only [Net.arrive, if_pos hblocks]
    exact ⟨w', calls, reqs, hcall, h'⟩

/-- The request that has been served is given back. -/
theorem InQueues.dropped {req : ℕ} (h : InQueues libc text stale L w s reqs msgs)
    (hblocks : Blocks L w (req :: (reqs ++ msgs))) :
    Mirrors libc text stale L (dropWrapper req w) s reqs msgs := by
  have hknown := hblocks.known req List.mem_cons_self
  rw [dropWrapper_eq hknown]
  exact ⟨h.moved hblocks (fun _ hm => List.mem_cons_of_mem req hm)
    ⟨fun _ _ => rfl, fun _ _ => rfl, fun _ _ => rfl⟩ h.good rfl rfl,
    hblocks.free ⟨rfl, fun _ => rfl⟩⟩

theorem sendEvent_pool {c c' : Channel F} {event : SpinnerEvent n F} {reply : Reply}
    (h : c.sendEvent event = some (c', reply)) :
    event = .getPlan ∧ dataPoolOf reply.msgType = some .plans ∨
      event ≠ .getPlan ∧ dataPoolOf reply.msgType = some .smalls := by
  rcases Channel.sendEvent_cases h with ⟨data, rfl, -, -, rfl⟩ | ⟨data, rfl, -, -, rfl⟩ |
    ⟨rfl, -, rfl⟩ | ⟨rfl, -, rfl⟩ | ⟨-, rfl, ⟨data, rfl, -⟩ | ⟨data, rfl, -⟩⟩
  · exact Or.inr ⟨nofun, rfl⟩
  · exact Or.inr ⟨nofun, rfl⟩
  · exact Or.inl ⟨rfl, rfl⟩
  · exact Or.inr ⟨nofun, rfl⟩
  · exact Or.inr ⟨nofun, rfl⟩
  · exact Or.inr ⟨nofun, rfl⟩

/-- The reply to a request is from the pool of its kind. -/
theorem reply_kind {req : Request F} {read : SpinnerMessage n F}
    (hread : req.ReadAs read) {channels channels' : Channels F} {c : Channel F} {reply : Reply}
    (h : handleMessage channels read = some (channels', some (c, reply))) :
    dataPoolOf reply.msgType = some (replyPool req) := by
  rcases handleMessage_cases h with ⟨-, hnone, -⟩ | ⟨event, c', reply', hevent, hsend, -, hsent⟩
  · cases hnone
  cases hsent
  have hpool := sendEvent_pool hsend
  cases req with
  | setPlan ch legs =>
    cases read with
    | setSpinPlan data =>
      obtain rfl : SpinnerEvent.setPlan data = event := congrArg Prod.snd (Option.some.inj hevent)
      simpa [replyPool] using hpool
    | _ => exact hread.elim
  | getPlan ch =>
    cases read with
    | getSpinPlan data =>
      obtain rfl : SpinnerEvent.getPlan = event := congrArg Prod.snd (Option.some.inj hevent)
      simpa [replyPool] using hpool
    | _ => exact hread.elim
  | setState ch running =>
    cases read with
    | setSpinState data =>
      obtain rfl : SpinnerEvent.setState data = event := congrArg Prod.snd (Option.some.inj hevent)
      simpa [replyPool] using hpool
    | _ => exact hread.elim
  | getState ch =>
    cases read with
    | getSpinState data =>
      obtain rfl : SpinnerEvent.getState = event := congrArg Prod.snd (Option.some.inj hevent)
      simpa [replyPool] using hpool
    | _ => exact hread.elim

/-- The reply to the request that is being served, on blocks of its own or not at all. -/
theorem InQueues.replied [Zero F] (hn : rustPlanLegs ≤ n) {req : ℕ}
    (h : InQueues libc text stale L w s reqs msgs)
    (hblocks : Blocks L w (req :: (reqs ++ msgs))) {c : Channel F} {o : Output F}
    (hc : Shown c o) {tid : ℕ} (htid : tid ≤ ulongMax) {reply : Reply} {pool : DataPool}
    (hpool : dataPoolOf reply.msgType = some pool) {said : List Byte}
    (hsaid : said = joined comma (decimal tid :: ascii "SPINNER" :: fieldsOf text o reply))
    {hasBlocks : Bool}
    (hhas : hasBlocks = true ↔ w.env.msgPool ≠ [] ∧ w.env.dataPool pool ≠ []) :
    ∃ w' msgs', sendReply c tid reply w = some w' ∧
      Mirrors libc text stale L (dropWrapper req w')
        { s with replies := if hasBlocks then s.replies ++ [(pool, said)] else s.replies }
        reqs msgs' := by
  cases hasBlocks with
  | false =>
    have hnot : ¬ ((shared w).msgPool ≠ [] ∧ (shared w).dataPool pool ≠ []) :=
      fun hboth => by simpa using hhas.mpr hboth
    have halloc := alloc_none hpool hnot
    refine ⟨withMemory w (shared w), msgs, by simp only [sendReply, halloc], ?_⟩
    exact InQueues.dropped (h.moved hblocks (fun _ hm => List.mem_cons_of_mem req hm)
      ⟨fun _ _ => rfl, fun _ _ => rfl, fun _ _ => rfl⟩ h.good rfl rfl) (hblocks.congr rfl rfl rfl)
  | true =>
    obtain ⟨hmsgs, hdatas⟩ := hhas.mp rfl
    obtain ⟨msg, rest, hmsg⟩ := List.exists_cons_of_ne_nil hmsgs
    obtain ⟨data, more, hdata⟩ := List.exists_cons_of_ne_nil hdatas
    have hcount := hblocks.msgCount
    have houtgoing := h.outgoing
    rw [hmsg, List.length_cons, List.length_cons, List.length_append] at hcount
    obtain ⟨w', hsend, hqueued⟩ := sendReply_queued hn libc text stale hc tid reply hmsg hpool hdata
      (hblocks.typed _ data (by rw [hdata]; exact List.mem_cons_self)) h.good
      (by rw [houtgoing.1]; omega)
    rw [← hsaid] at hqueued
    have htook := hblocks.took hqueued.toTook hqueued.type
    have huntouched := hqueued.toTook.untouched
    refine ⟨w', msgs ++ [msg], hsend, InQueues.dropped ?_ (htook.perm ?_)⟩
    · refine ⟨hqueued.good, ?_, ?_, ?_, ?_, h.ids, ?_⟩
      · rw [hqueued.mailboxes, Function.update_of_ne (by decide)]
        exact h.incoming
      · rw [hqueued.mailboxes, Function.update_self]
        exact ⟨by rw [houtgoing.1], houtgoing.2⟩
      · rw [hqueued.errors]
        exact h.errors
      · exact carries_untouched hblocks huntouched
          (fun m hm => List.mem_cons_of_mem req (List.mem_append_left _ hm)) h.carries
      · refine List.rel_append (told_untouched hblocks huntouched
          (fun m hm => List.mem_cons_of_mem req (List.mem_append_right _ hm)) h.tells)
          (.cons ⟨hqueued.kind, hqueued.type, ?_, hqueued.text⟩ .nil)
        rw [hqueued.transactionId]
        exact htid
    · rw [← List.append_assoc]
      exact (List.Perm.swap _ _ _).trans ((List.perm_append_singleton msg _).symm.cons req)

/-- One call of the spinner's worker. -/
theorem Mirrors.serve [Zero F] (hn : rustPlanLegs ≤ n)
    (h : Mirrors libc text stale L w s reqs msgs) {channels : Channels F}
    (hc : Shown (channel0 channels) s.output) :
    (s.serve L text = none ∧ spinnerCommLoop channels w = none) ∨
      ∃ s' channels' w' reqs' msgs', s.serve L text = some s' ∧
        spinnerCommLoop channels w = some (channels', w') ∧
        Shown (channel0 channels') s'.output ∧ Mirrors libc text stale L w' s' reqs' msgs' := by
  have hcarries := h.carries
  cases hwaiting : s.waiting with
  | nil =>
    rw [hwaiting, List.forall₂_nil_right_iff] at hcarries
    subst hcarries
    refine Or.inr ⟨s, channels, w, [], msgs, ?_, ?_, hc, h⟩
    · simp only [Net.serve, hwaiting]
    · simp [spinnerCommLoop, h.incoming, Mailbox.read]
  | cons request waiting =>
    obtain ⟨tid, request⟩ := request
    rw [hwaiting, List.forall₂_cons_right_iff] at hcarries
    obtain ⟨req, reqs', ⟨-, htid, -, read, hmsg, has⟩, hrest, rfl⟩ := hcarries
    have hids := h.ids
    rw [hwaiting, List.forall_mem_cons] at hids
    have hread : (w.mailboxes 0).read = some (req, ⟨L.incoming, reqs'⟩) := by
      rw [h.incoming]
      rfl
    obtain ⟨w₁, hw₁⟩ : ∃ w₁, ({ w with
      mailboxes := Function.update w.mailboxes 0 ⟨L.incoming, reqs'⟩ } :
        World (Memory n F) ℕ DataPtr) = w₁ := ⟨_, rfl⟩
    have hblocks : Blocks L w₁ (req :: (reqs' ++ msgs)) := by
      rw [← hw₁]
      exact h.blocks.congr rfl rfl rfl
    have hqueues (o : Output F) : InQueues libc text stale L w₁
        { s with waiting := waiting, output := o } reqs' msgs := by
      rw [← hw₁]
      refine ⟨h.good, ?_, ?_, h.errors, hrest, hids.2, ?_⟩
      · simp
      · simpa using h.outgoing
      · exact told_untouched h.blocks ⟨fun _ _ => rfl, fun _ _ => rfl, fun _ _ => rfl⟩
          (fun m hm => List.mem_append_right _ hm) h.tells
    have hmsg₁ : messageOf (shared w₁) req = some read := by
      rw [← hw₁]
      exact hmsg
    have hloop : spinnerCommLoop channels w = (handleMessage channels read).bind fun handled =>
        handled.2.elim (some (handled.1, dropWrapper req w₁)) fun reply =>
          (sendReply reply.1 tid reply.2 w₁).map fun w => (handled.1, dropWrapper req w) := by
      simp only [spinnerCommLoop, hread, hw₁, hmsg₁]
      rcases handleMessage channels read with _ | ⟨channels', _ | ⟨c, reply⟩⟩
      · rfl
      · rfl
      · simp only [Option.bind_eq_bind, Option.bind_some, Option.elim_some, htid]
        cases sendReply c tid reply w₁ <;> rfl
    rcases handleMessage_shown hn text hc has tid with ⟨hanswer, hhandle⟩ | ⟨hanswer, hhandle⟩ |
      ⟨o', channels', reply, hanswer, hhandle, hc'⟩
    · refine Or.inl ⟨?_, ?_⟩
      · simp only [Net.serve, hwaiting, hanswer, Option.map_none]
      · rw [hloop, hhandle, Option.bind_none]
    · refine Or.inr ⟨{ s with waiting := waiting }, channels, _, reqs', msgs, ?_, ?_, hc,
        (hqueues s.output).dropped hblocks⟩
      · simp [Net.serve, hwaiting, hanswer, Net.reply]
      · rw [hloop, hhandle]
        rfl
    · have hhas := h.hasBlocks_iff (replyPool request)
      obtain ⟨w₂, msgs', hsend, hmirrors⟩ := (hqueues o').replied hn hblocks hc' hids.1
        (reply_kind has hhandle) rfl (by rw [← hw₁]; exact hhas)
      refine Or.inr ⟨_, channels', _, reqs', msgs', ?_, ?_, hc', hmirrors⟩
      · simp [Net.serve, hwaiting, hanswer, Net.reply]
      · rw [hloop, hhandle]
        simp [hsend]

/-- A reply has been taken from its queue, and its blocks are back in their pools. -/
theorem Mirrors.taken (h : Mirrors libc text stale L w s reqs (msg :: msgs))
    {replies : List (DataPool × List Byte)} (hreplies : s.replies = reply :: replies)
    (heard : List (List Byte)) :
    Mirrors libc text stale L ⟨spinnerFreeMessage msg (w.messages msg) w.env, w.messages,
        Function.update w.mailboxes 1 ⟨(w.mailboxes 1).capacity, msgs⟩, w.errMsgQueue⟩
      { s with replies := replies, heard := heard } reqs msgs := by
  have hlive : Blocks L w (msg :: (reqs ++ msgs)) := h.blocks.perm List.perm_middle
  have hknown := hlive.known msg List.mem_cons_self
  have htells := h.tells
  rw [hreplies, List.forall₂_cons] at htells
  have huntouched {env : Memory n F} {mailboxes : ℕ → Mailbox ℕ}
      (hplans : env.plans = w.env.plans) (hsmalls : env.smalls = w.env.smalls) :
      Untouched w ⟨env, w.messages, mailboxes, w.errMsgQueue⟩ :=
    ⟨fun _ _ => rfl, fun _ _ => by rw [hplans], fun _ _ => by rw [hsmalls]⟩
  rw [freed hknown]
  refine ⟨⟨h.good, ?_, ?_, h.errors, ?_, h.ids, ?_⟩, ?_⟩
  · simpa using h.incoming
  · simpa using h.outgoing.2
  · exact carries_untouched hlive (huntouched rfl rfl)
      (fun m hm => List.mem_cons_of_mem msg (List.mem_append_left _ hm)) h.carries
  · exact told_untouched hlive (huntouched rfl rfl)
      (fun m hm => List.mem_cons_of_mem msg (List.mem_append_right _ hm)) htells.2
  · exact (hlive.free ⟨rfl, fun _ => rfl⟩).congr rfl rfl rfl

section Transmit

variable {m m' : ℕ} {call : Vector Byte m × ℕ} {errMailboxes : ℕ → Mailbox ℤ}

variable (libc text stale L w s reqs) in
/-- A call of the transmit worker is the network's, and the line carries what is heard. -/
def Transmits (m' : ℕ) (call : Vector Byte m × ℕ) (errMailboxes : ℕ → Mailbox ℤ) : Prop :=
  ∃ w' msgs' line, TransmitRoom.transmit
      [spinnerConf libc (spinnerSerializers text stale)] call ⟨w, errMailboxes⟩ =
        some (⟨w', errMailboxes⟩, line) ∧
    Mirrors libc text stale L w' (s.transmit L call.2) reqs msgs' ∧
    ∃ sent : List (Sent m'), line = sent.flatMap Sent.bytes ∧
      (s.transmit L call.2).heard = s.heard ++ sent.filterMap Sent.payload?

/-- A scheduled error goes out before any message. -/
theorem Mirrors.transmitError (hm : 1 < m) (hmm' : m ≤ m') (hframe : L.frame = m)
    (h : Mirrors libc text stale L w s reqs msgs) {code : ℤ} {errors : List ℤ}
    (herrors : s.errors = code :: errors) :
    Transmits libc text stale L w s reqs m' call errMailboxes := by
  subst hframe
  have hread : w.errMsgQueue.read = some (code, ⟨L.errors, errors⟩) := by
    rw [h.errors, herrors]
    rfl
  obtain ⟨sent, hbytes, hpayload⟩ := reported_heard (n := L.frame) hmm' code
  refine ⟨_, msgs, _, ownError_transmitted hm call hread, ?_, sent, hbytes, ?_⟩
  · simp only [Net.transmit, herrors]
    refine ⟨⟨h.good, h.incoming, h.outgoing, rfl, h.carries, h.ids, ?_⟩,
      h.blocks.congr rfl rfl rfl⟩
    exact told_untouched h.blocks ⟨fun _ _ => rfl, fun _ _ => rfl, fun _ _ => rfl⟩
      (fun m hm => List.mem_append_right _ hm) h.tells
  · simp only [Net.transmit, herrors, hpayload]

theorem Mirrors.errorsEmpty (h : Mirrors libc text stale L w s reqs msgs) (herrors : s.errors = [])
    (hnone : (errMailboxes 2).items = []) :
    ErrorsEmpty [spinnerConf libc (spinnerSerializers text stale)]
      (⟨w, errMailboxes⟩ : TxWorkerContext (Memory n F) ℕ DataPtr) := by
  refine ⟨by rw [h.errors, herrors], ?_⟩
  rintro q ⟨conf, hconf, hq⟩
  obtain rfl := List.mem_singleton.mp hconf
  cases hq
  exact hnone

/-- Without errors and replies the worker goes to sleep. -/
theorem Mirrors.transmitIdle (h : Mirrors libc text stale L w s reqs msgs)
    (herrors : s.errors = []) (hreplies : s.replies = []) (hnone : (errMailboxes 2).items = []) :
    Transmits libc text stale L w s reqs m' call errMailboxes := by
  have htells := h.tells
  rw [hreplies, List.forall₂_nil_right_iff] at htells
  subst htells
  have hidle : AllEmpty [spinnerConf libc (spinnerSerializers text stale)]
      (⟨w, errMailboxes⟩ : TxWorkerContext (Memory n F) ℕ DataPtr) := by
    refine ⟨h.errorsEmpty herrors hnone, ?_⟩
    rintro q ⟨conf, hconf, hq⟩
    obtain rfl := List.mem_singleton.mp hconf
    cases hq
    exact h.outgoing.1
  refine ⟨w, [], [], idle_transmitted call hidle, ?_, [], rfl, ?_⟩
  · simp only [Net.transmit, herrors, hreplies]
    exact h
  · simp [Net.transmit, herrors, hreplies]

/-- What a reply's call leaves: its blocks are free, and a reply cut off or too long is
reported. -/
theorem Mirrors.replied {replies : List (DataPool × List Byte)}
    (h : Mirrors libc text stale L w s reqs (msg :: msgs)) (hreplies : s.replies = reply :: replies)
    (failure : Option ℤ) :
    Mirrors libc text stale L { w with
      env := spinnerFreeMessage msg (w.messages msg) w.env
      mailboxes := Function.update w.mailboxes 1 ⟨(w.mailboxes 1).capacity, msgs⟩
      errMsgQueue := failure.elim w.errMsgQueue fun code => (w.errMsgQueue.write code).2 }
      (failure.elim { s with replies := replies, heard := s.heard ++ [reply.2] }
        fun code => Net.report L code { s with replies := replies }) reqs msgs := by
  cases failure with
  | none => exact h.taken hreplies _
  | some code => exact (h.taken hreplies s.heard).report code

/-- Without errors the first reply goes out. -/
theorem Mirrors.transmitReply (hm : 250 ≤ m) (hmm' : m ≤ m') (hframe : L.frame = m)
    (htext : ∀ x, Clean (text x)) (h : Mirrors libc text stale L w s reqs msgs)
    (herrors : s.errors = []) {replies : List (DataPool × List Byte)}
    (hreplies : s.replies = reply :: replies) (hnone : (errMailboxes 2).items = []) :
    Transmits libc text stale L w s reqs m' call errMailboxes := by
  subst hframe
  obtain ⟨pool, reply⟩ := reply
  have hspoken : Spoken _ _ [spinnerConf (n := n) libc _] := spinner_spoken libc htext stale
  have hconf := List.mem_singleton_self (spinnerConf (n := n) libc (spinnerSerializers text stale))
  have hqueue : (spinnerConf (n := n) libc (spinnerSerializers text stale)).outgoingMsgQueue =
    some 1 := rfl
  have htells := h.tells
  rw [hreplies, List.forall₂_cons_right_iff] at htells
  obtain ⟨msg, msgs', htold, -, rfl⟩ := htells
  have hready : QueueScan.firstReady SubsystemMessageConf.outgoingMsgQueue Mailbox.read
      w.mailboxes [spinnerConf (n := n) libc (spinnerSerializers text stale)] = some
        (spinnerConf libc (spinnerSerializers text stale), 1, msg,
          ⟨(w.mailboxes 1).capacity, msgs'⟩) := by
    simp [QueueScan.firstReady, hqueue, Mailbox.read, h.outgoing.1]
  have hformat := formatMessage_reply (show 1 < L.frame by omega) call.1 hspoken hconf h.good
    (prefix_fits hm libc _ htold.transactionId) htold.text
  have hcall := message_transmitted call.1 call.2 (h.errorsEmpty herrors hnone) hready rfl hformat
  obtain ⟨hclean, hlen⟩ := messageText_clean hspoken hconf h.good htold.text
  obtain ⟨sent, hbytes, hpayload⟩ := written_heard (n := L.frame) hmm' call.2 hclean hlen
  have hnet : s.transmit L call.2 = (failed L.frame call.2 reply).elim
      { s with replies := replies, heard := s.heard ++ [reply] }
      fun code => Net.report L code { s with replies := replies } := by
    simp only [Net.transmit, herrors, hreplies]
  refine ⟨_, msgs', _, hcall, ?_, sent, hbytes, ?_⟩
  · rw [hnet]
    exact h.replied hreplies (failed L.frame call.2 reply)
  · rw [hnet, hpayload]
    cases failed L.frame call.2 reply with
    | none => rfl
    | some code => simp

/-- One call of the transmit worker. -/
theorem Mirrors.transmit (hm : 250 ≤ m) (hmm' : m ≤ m') (hframe : L.frame = m)
    (htext : ∀ x, Clean (text x)) (h : Mirrors libc text stale L w s reqs msgs)
    (call : Vector Byte m × ℕ) (hnone : (errMailboxes 2).items = []) :
    Transmits libc text stale L w s reqs m' call errMailboxes := by
  cases herrors : s.errors with
  | cons code errors => exact h.transmitError (by omega) hmm' hframe herrors
  | nil =>
    cases hreplies : s.replies with
    | nil => exact h.transmitIdle herrors hreplies hnone
    | cons reply replies => exact h.transmitReply hm hmm' hframe htext herrors hreplies hnone

end Transmit

/-- The receive worker's events, one after the other. -/
theorem Mirrors.arrivals (hn : n < 2 ^ 32) (h : Mirrors libc text stale L w s reqs msgs)
    {events : List RxEvent} {coming : List (Arrival F)}
    (hcoming : events.map (readArrival libc n) = coming.map some) (before : List (Call ℕ)) :
    ∃ w' calls reqs', events.foldl (outcome libc.nullAtEnd
        [spinnerConf libc (spinnerSerializers text stale)]) (.ok (w, before)) = .ok (w', calls) ∧
      Mirrors libc text stale L w' (coming.foldl (Net.arrive L) s) reqs' msgs := by
  induction events generalizing w s reqs before coming with
  | nil =>
    rw [List.map_eq_nil_iff.mp hcoming.symm]
    exact ⟨w, before, reqs, rfl, h⟩
  | cons event events ih =>
    obtain ⟨arrival, coming, rfl⟩ : ∃ a later, coming = a :: later := by
      cases coming with
      | nil => cases hcoming
      | cons a later => exact ⟨a, later, rfl⟩
    rw [List.map_cons, List.map_cons, List.cons.injEq] at hcoming
    obtain ⟨hread, hlater⟩ := hcoming
    obtain ⟨w₁, made, reqs₁, hone, h₁⟩ : ∃ w₁ made reqs₁,
        outcome libc.nullAtEnd [spinnerConf libc (spinnerSerializers text stale)]
          (.ok (w, before)) event = .ok (w₁, made) ∧
        Mirrors libc text stale L w₁ (s.arrive L arrival) reqs₁ msgs := by
      cases event with
      | scheduled code =>
        cases hread
        exact ⟨_, _, reqs, rfl, h.report code⟩
      | delivered msg =>
        rcases lookup_read hread (spinnerSerializers text stale) with ⟨code, hlookup, rfl⟩ |
          ⟨req, tid, save, hlookup, htid, harrival⟩
        · refine ⟨w.scheduleErrMessage code, before ++ [.scheduled code], reqs, ?_,
            h.report code⟩
          simp only [outcome, route, processIncomingMessage, hlookup]
        · obtain ⟨w₁, made, reqs₁, hrun, h₁⟩ := h.handedOver hn htid harrival
          exact ⟨w₁, before ++ made, reqs₁,
            by simp only [outcome, route, processIncomingMessage, hlookup, hrun], h₁⟩
    rw [List.foldl_cons, List.foldl_cons, hone]
    exact ih h₁ hlater made

end Mirror

end Ratfist.NetworkMemory
