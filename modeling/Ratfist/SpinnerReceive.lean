import Ratfist.SpinnerSystem
import Ratfist.RoutingOutcomes

/-!
The receive worker on spinner frames, twice: `process_incoming_message` with the
spinner's callbacks, and the steps of the worker with other tasks in between. Taken in
one go, the steps do what the function does; the message structs that the dispatcher
sees and those in the spinner's pool are the same.
-/
namespace Ratfist.SpinnerReceive

open CString Subsystem Routing RoutingOutcomes SpinnerMessages SpinnerPools SpinnerSystem Runs
open ReceiveWorker (RxRequest)

variable {F : Type} {n : ℕ} {b : Constants.Board}

section Lookup

variable {σ μ δ : Type} {subsystems : List (SubsystemMessageConf σ μ δ)}
  {conf : SubsystemMessageConf σ μ δ} {msgIdx tid tid' : ℕ}
  {parsingFunc : Message δ → Option (List Byte) → σ → Bool × σ} {save save' : Option (List Byte)}

theorem findHandler_found {subsystemName msgName : List Byte}
    (h : findHandler subsystems tid subsystemName msgName save =
      .found conf msgIdx parsingFunc tid' save') :
    conf ∈ subsystems ∧ parserOf conf msgIdx = some parsingFunc := by
  unfold findHandler at h
  cases hconf : subsystems.find? (fun conf => strcmpEq subsystemName conf.subsystemName) with
  | none => simp [hconf] at h
  | some conf' =>
    simp only [hconf] at h
    cases hidx : conf'.messageHandlers.findIdx? (fun h => strcmpEq msgName h.messageName) with
    | none => simp [hidx] at h
    | some i =>
      simp only [hidx] at h
      cases hparser : (conf'.messageHandlers[i]?).bind MessageHandler.parsingFunc with
      | none => simp [hparser] at h
      | some p =>
        simp only [hparser] at h
        cases h
        exact ⟨List.mem_of_find?_eq_some hconf, hparser⟩

theorem lookup_found {nullAtEnd : Bool} {buf : List Byte}
    (h : lookup nullAtEnd subsystems buf = .found conf msgIdx parsingFunc tid save) :
    conf ∈ subsystems ∧ parserOf conf msgIdx = some parsingFunc := by
  rw [lookup_eq] at h
  cases htoks : tokens comma buf with
  | nil => simp [htoks] at h
  | cons idStr names =>
    simp only [htoks] at h
    cases htid : parseTransactionId idStr with
    | none => simp [htid] at h
    | some tid' =>
      simp only [htid] at h
      rcases names with _ | ⟨subsystemName, _ | ⟨msgName, more⟩⟩
      · cases h
      · cases h
      · exact findHandler_found h

end Lookup

section Receive

variable {libc : Libc F} {ser : Serializers n F} {queues : Queues b}

theorem parser_pool {msgIdx : ℕ}
    {parsingFunc : Message DataPtr → Option (List Byte) → Memory n F → Bool × Memory n F}
    (h : parserOf (spinnerConf libc ser) msgIdx = some parsingFunc) :
    ∃ pool, dataPoolOf msgIdx = some pool := by
  obtain ⟨handler, hget, -⟩ := Option.bind_eq_some_iff.mp h
  obtain ⟨hlt, -⟩ := List.getElem?_eq_some_iff.mp hget
  have hall : ∀ i : Fin 7, (dataPoolOf i).isSome := by decide
  exact Option.isSome_iff_exists.mp (hall ⟨msgIdx, hlt⟩)

section Steps

variable (libc : Libc F) (ser : Serializers n F) (queues : Queues b) (buf : List Byte)

/-- An allocation without interruption. -/
theorem alloc_reaches {s : State n F} (req : RxRequest) {pool : DataPool}
    (hpool : dataPoolOf req.msgIdx = some pool)
    (htyped : ∀ d ∈ s.mem.dataPool pool, d.pool = pool) :
    Reaches (rxStep libc ser queues buf) { s with rx := .alloc req .takeMsg }
      { s with
        mem := (spinnerAllocMessage req.msgIdx s.mem).2
        rx := (spinnerAllocMessage req.msgIdx s.mem).1.elim .idle fun block =>
          .parse req block.1 } := by
  rcases hmsg : s.mem.msgPool with _ | ⟨ret, msgPool⟩
  · have hnull : spinnerAllocMessage req.msgIdx s.mem = (none, s.mem) := by
      simp [spinnerAllocMessage, hmsg]
    rw [hnull]
    exact .single (l := 0) (by simp [rxStep, ReceiveWorker.rxStep, allocStep, hmsg])
  have htake : Reaches (rxStep libc ser queues buf) { s with rx := .alloc req .takeMsg }
      { s with mem := { s.mem with msgPool := msgPool }, rx := .alloc req (.takeData ret) } :=
    .single (l := ret) (by simp [rxStep, ReceiveWorker.rxStep, allocStep, hmsg])
  refine htake.trans ?_
  rcases hdata : s.mem.dataPool pool with _ | ⟨data, rest⟩
  · have hnull : spinnerAllocMessage req.msgIdx s.mem = (none, s.mem) := by
      simp only [spinnerAllocMessage, hmsg, hpool, hdata]
      rw [← hmsg]
    rw [hnull]
    refine ⟨[0, 0], ?_⟩
    simp [runs, rxStep, ReceiveWorker.rxStep, allocStep, hpool, hdata, ← hmsg]
  · have hptr : (⟨pool, data.idx⟩ : DataPtr) = data := by
      rw [← htyped data (by simp [hdata])]
    have hdone : spinnerAllocMessage req.msgIdx s.mem =
        (some (ret, ⟨req.msgIdx, 0, data⟩), (({ s.mem with msgPool := msgPool } :
          Memory n F).setDataPool pool rest).setMessage ret ⟨req.msgIdx, 0, data⟩) := by
      simp only [spinnerAllocMessage, hmsg, hpool, hdata]
    rw [hdone]
    exact .single (l := data.idx) (by
      simp [rxStep, ReceiveWorker.rxStep, allocStep, hpool, hdata, hptr])

/-- A release without interruption. -/
theorem free_reaches (s : State n F) (msg : ℕ) {pool : DataPool}
    (hpool : dataPoolOf (s.mem.messages msg).type = some pool) :
    Reaches (rxStep libc ser queues buf) { s with rx := .free (.giveData msg) }
      { s with
        mem := spinnerFreeMessage msg (s.mem.messages msg) s.mem
        rx := .idle } := by
  refine ⟨[0, 0], ?_⟩
  simp [runs, rxStep, ReceiveWorker.rxStep, freeStep, hpool, spinnerFreeMessage, Memory.setDataPool]

theorem send_step (s : State n F) (mem : Memory n F) (msg : ℕ) :
    rxStep libc ser queues buf 0 { s with mem := mem, rx := .send msg } =
      some (if s.incoming.length < queues.incoming then
        { s with mem := mem, incoming := s.incoming ++ [msg], rx := .idle }
      else { s with mem := mem, rx := .free (.giveData msg) }) := by
  simp only [rxStep, ReceiveWorker.rxStep, pools_freeEntry]
  split_ifs <;> rfl

end Steps

/-! The function leaves the message structs to the dispatcher. -/

theorem spinnerAllocMessage_messages (msgTypeId : ℕ) (mem : Memory n F)
    (messages : ℕ → Message DataPtr) :
    spinnerAllocMessage msgTypeId { mem with messages := messages } =
      ((spinnerAllocMessage msgTypeId mem).1, { (spinnerAllocMessage msgTypeId mem).2 with
        messages := (spinnerAllocMessage msgTypeId mem).1.elim messages fun block =>
          Function.update messages block.1 block.2 }) := by
  obtain ⟨_ | ⟨ret, msgPool⟩, dataPool, _, plans, smalls⟩ := mem
  · rfl
  unfold spinnerAllocMessage
  cases dataPoolOf msgTypeId with
  | none => rfl
  | some pool =>
    simp only
    rcases dataPool pool with _ | ⟨data, rest⟩ <;> rfl

theorem spinnerFreeMessage_messages (msg : ℕ) (content : Message DataPtr) (mem : Memory n F)
    (messages : ℕ → Message DataPtr) :
    spinnerFreeMessage msg content { mem with messages := messages } =
      { spinnerFreeMessage msg content mem with messages := messages } := by
  unfold spinnerFreeMessage
  cases dataPoolOf content.type <;> rfl

theorem parser_messages {msgIdx : ℕ}
    {parsingFunc : Message DataPtr → Option (List Byte) → Memory n F → Bool × Memory n F}
    (h : parserOf (spinnerConf libc ser) msgIdx = some parsingFunc) (content : Message DataPtr)
    (save : Option (List Byte)) (mem : Memory n F) (messages : ℕ → Message DataPtr) :
    parsingFunc content save { mem with messages := messages } =
      ((parsingFunc content save mem).1,
        { (parsingFunc content save mem).2 with messages := messages }) := by
  obtain ⟨handler, hget, hparse⟩ := Option.bind_eq_some_iff.mp h
  have hmem : handler ∈ msgHandlers libc ser := List.mem_of_getElem? hget
  simp only [msgHandlers, List.mem_cons, List.not_mem_nil, or_false] at hmem
  rcases hmem with rfl | rfl | rfl | rfl | rfl | rfl | rfl <;> cases hparse <;> rfl

/-- What the dispatcher shares with the spinner when the receive worker has nothing to do. -/
structure Shows (queues : Queues b) (w : World (Memory n F) ℕ DataPtr) (s : State n F) :
    Prop where
  mem : s.mem = { w.env with messages := w.messages }
  incoming : w.mailboxes 0 = ⟨queues.incoming, s.incoming⟩
  idle : s.rx = .idle

structure SameBut (s s' : State n F) : Prop where
  outgoing : s'.outgoing = s.outgoing
  channels : s'.channels = s.channels
  comm : s'.comm = s.comm
  tx : s'.tx = s.tx
  calls : s'.calls = s.calls

/-- After the parsing function: the message goes into the queue or back to its pool. -/
theorem handOver_reaches (buf : List Byte) {s : State n F} {w w' : World (Memory n F) ℕ DataPtr}
    {calls : List (Call ℕ)} {msgIdx tid msg : ℕ} {pool : DataPool} {save : Option (List Byte)}
    {parsingFunc : Message DataPtr → Option (List Byte) → Memory n F → Bool × Memory n F}
    {content : Message DataPtr} {env env' : Memory n F} {parsed : Bool}
    (hpool : dataPoolOf msgIdx = some pool)
    (hincoming : w.mailboxes 0 = ⟨queues.incoming, s.incoming⟩)
    (hres : spinnerAllocMessage msgIdx w.env = (some (msg, content), env))
    (hparse : parsingFunc ⟨msgIdx, tid, content.data⟩ save env = (parsed, env'))
    (h : handOver (spinnerConf libc ser) msgIdx parsingFunc tid save w = .ok (w', calls)) :
    ∃ s', Reaches (rxStep libc ser queues buf)
        { s with
          mem := { env' with
            messages := Function.update w.messages msg ⟨msgIdx, tid, content.data⟩ }
          rx := if parsed then .send msg else .free (.giveData msg) } s' ∧
      Shows queues w' s' ∧ SameBut s s' := by
  have halloc : (spinnerConf libc ser).allocMessage = some spinnerAllocMessage := rfl
  have hfree : (spinnerConf libc ser).freeMessage = some spinnerFreeMessage := rfl
  have hqueue : (spinnerConf libc ser).incomingMsgQueue = some 0 := rfl
  have hback := free_reaches libc ser queues buf { s with mem := { env' with
    messages := Function.update w.messages msg ⟨msgIdx, tid, content.data⟩ } } msg
    (by simpa using hpool)
  simp only [Function.update_self, spinnerFreeMessage_messages] at hback
  have hsend := send_step libc ser queues buf s
    { env' with messages := Function.update w.messages msg ⟨msgIdx, tid, content.data⟩ } msg
  cases parsed with
  | false =>
    simp only [handOver, halloc, hres, hparse, Bool.not_false, if_true, giveBack, hfree] at h
    cases h
    refine ⟨_, hback, ⟨?_, hincoming, rfl⟩, rfl, rfl, rfl, rfl, rfl⟩
    simp [World.scheduleErrMessage]
  | true =>
    simp only [handOver, halloc, hres, hparse, Bool.not_true, Bool.false_eq_true, if_false, hqueue,
      hincoming, Mailbox.write, Mailbox.full, decide_eq_true_eq] at h
    by_cases hroom : s.incoming.length < queues.incoming
    · have hnot : ¬ queues.incoming ≤ s.incoming.length := by omega
      simp only [hnot, if_false, Bool.not_true, Bool.false_eq_true] at h
      cases h
      rw [if_pos hroom] at hsend
      exact ⟨_, .single hsend, ⟨rfl, by simp, rfl⟩, rfl, rfl, rfl, rfl, rfl⟩
    · have hfull : queues.incoming ≤ s.incoming.length := by omega
      simp only [hfull, if_true, Bool.not_false, giveBack, hfree] at h
      cases h
      rw [if_neg hroom] at hsend
      refine ⟨_, .trans (.single hsend) hback, ⟨?_, hincoming, rfl⟩, rfl, rfl, rfl, rfl, rfl⟩
      simp [World.scheduleErrMessage]

/-- `process_incoming_message` is the worker's steps without interruption. -/
theorem receive_refines {buf : List Byte} {s : State n F} {w w' : World (Memory n F) ℕ DataPtr}
    {calls : List (Call ℕ)} (hs : Shows queues w s)
    (htyped : ∀ pool, ∀ d ∈ s.mem.dataPool pool, d.pool = pool)
    (h : processIncomingMessage libc.nullAtEnd [spinnerConf libc ser] buf w = .ok (w', calls)) :
    ∃ s', Reaches (rxStep libc ser queues buf) s s' ∧ Shows queues w' s' ∧ SameBut s s' := by
  unfold processIncomingMessage at h
  cases hlook : lookup libc.nullAtEnd [spinnerConf libc ser] buf with
  | nullString => simp [hlook] at h
  | rejected code =>
    simp only [hlook] at h
    cases h
    exact ⟨s, .refl s, ⟨hs.mem, hs.incoming, hs.idle⟩, rfl, rfl, rfl, rfl, rfl⟩
  | found conf msgIdx parsingFunc tid save =>
    simp only [hlook] at h
    obtain ⟨hconf, hparser⟩ := lookup_found hlook
    obtain rfl := List.mem_singleton.mp hconf
    obtain ⟨pool, hpool⟩ := parser_pool hparser
    have hstart : Reaches (rxStep libc ser queues buf) s
        { s with rx := .alloc ⟨msgIdx, tid, save⟩ .takeMsg } :=
      .single (l := 0) (by simp [rxStep, ReceiveWorker.rxStep, hs.idle, hlook])
    have halloc := hstart.trans (alloc_reaches libc ser queues buf ⟨msgIdx, tid, save⟩
      hpool (htyped pool))
    simp only [hs.mem, spinnerAllocMessage_messages] at halloc
    rcases hres : spinnerAllocMessage msgIdx w.env with ⟨_ | ⟨msg, content⟩, env⟩
    · have hfunc : (spinnerConf libc ser).allocMessage = some spinnerAllocMessage := rfl
      simp only [handOver, hfunc, hres] at h
      cases h
      simp only [hres] at halloc
      exact ⟨_, halloc, ⟨rfl, hs.incoming, rfl⟩, rfl, rfl, rfl, rfl, rfl⟩
    simp only [hres, Option.elim_some] at halloc
    rcases hparse : parsingFunc ⟨msgIdx, tid, content.data⟩ save env with ⟨parsed, env'⟩
    obtain ⟨s', hrest, hshows, hsame⟩ :=
      handOver_reaches buf hpool hs.incoming hres hparse h
    refine ⟨s', halloc.trans (.trans (.single (l := 0) ?_) hrest), hshows, hsame⟩
    have hparse' := parser_messages hparser ⟨msgIdx, tid, content.data⟩ save env
      (Function.update w.messages msg ⟨msgIdx, tid, content.data⟩)
    rw [hparse] at hparse'
    have hfunc : ((spinnerConf libc ser).messageHandlers[msgIdx]?).bind
        MessageHandler.parsingFunc = some parsingFunc := hparser
    simp only [rxStep, ReceiveWorker.rxStep, pools_messages, pools_setMessage, pools_freeEntry,
      hfunc, Memory.setMessage, Function.update_self, Function.update_idem, hparse',
      Option.map_some]

end Receive

end Ratfist.SpinnerReceive
