import Ratfist.SpinnerPools
import Ratfist.Runs

/-!
The spinner at work: the dispatcher's receive worker on SPINNER frames, the spinner's
own worker and the dispatcher's transmit worker, each with a position in its code. A
label names the worker that takes the next step and, where a pool is asked for a
block, the block; queue and pool operations are single steps. `calls` is a history
variable: what the calls of `spinner_comm_loop` took and sent, the newest first.
-/
namespace Ratfist.SpinnerSystem

open CString Constants Subsystem Routing SpinnerMessages SpinnerChannel SpinnerPools
open ReceiveWorker (AllocResult)

variable {F : Type} {n : ℕ}

/-- Where `process_incoming_message` stands. -/
abbrev RxPc := ReceiveWorker.RxPc AllocPc FreePc

/-- Where `spinner_comm_loop` stands. From `alloc` on, `c` is the channel that answers
the request `req`; `drop` is the end of the request's wrapper, and after a panic the
worker keeps what it holds. -/
inductive CommPc (F : Type)
  | idle
  | handle (req : ℕ)
  | alloc (req : ℕ) (c : Channel F) (reply : Reply) (pc : AllocPc)
  | fill (req : ℕ) (c : Channel F) (reply : Reply) (msg : ℕ)
  | send (req : ℕ) (msg : ℕ)
  | drop (pc : FreePc)
  | hung (held : List ℕ)
deriving DecidableEq

/-- Where `process_outgoing_message` stands: before or at `free_msg`. -/
inductive TxPc
  | idle
  | send (msg : ℕ)
  | free (pc : FreePc)
deriving DecidableEq, Repr

/-- A call of `spinner_comm_loop`: the request, whether both blocks for a reply could be
taken (`none` if none was tried), and type and transaction id of what went out. -/
structure CommCall where
  msgType : ℕ
  transactionId : ℕ
  channelNum : Option UInt8
  blocks : Option Bool
  sent : List (ℕ × ℕ)
deriving DecidableEq, Repr

structure State (n : ℕ) (F : Type) where
  mem : Memory n F
  incoming : List ℕ
  outgoing : List ℕ
  channels : Channels F
  rx : RxPc
  comm : CommPc F
  tx : TxPc
  calls : List CommCall

/-- How many messages the two queues hold: of the slots of a mailbox at most one is
lost. -/
structure Queues (b : Board) where
  incoming : ℕ
  outgoing : ℕ
  incoming_slots : b.maxInboundMessages - 1 ≤ incoming
  outgoing_slots : b.maxOutboundMessages - 1 ≤ outgoing

/-- `buf` is read when the receive worker has nothing to do, `choice` when a pool is
asked for a block. -/
inductive Label
  | rx (buf : List Byte) (choice : ℕ)
  | comm (choice : ℕ)
  | tx

variable {b : Board} (libc : Libc F) (ser : Serializers n F) (queues : Queues b)

/-- `process_incoming_message` with the spinner as the registered subsystem. -/
def rxStep (buf : List Byte) (choice : ℕ) (s : State n F) : Option (State n F) :=
  (ReceiveWorker.rxStep pools libc.nullAtEnd (spinnerConf libc ser) queues.incoming buf choice
    s.mem s.incoming s.rx).map fun r =>
      { s with mem := r.mem, incoming := r.incoming, rx := r.rx }

/-- `spinner_comm_loop`. The write to the outgoing queue is not checked: when the queue
is full the message is held by nobody afterwards. -/
def commStep (choice : ℕ) (s : State n F) : Option (State n F) :=
  match s.comm with
  | .idle =>
    match s.incoming with
    | [] => some s
    | req :: rest => some { s with incoming := rest, comm := .handle req }
  | .handle req =>
    match messageOf s.mem req with
    | none => some { s with comm := .drop (.giveData req) }
    | some msg =>
      let call : CommCall := ⟨(s.mem.messages req).type, (s.mem.messages req).transactionId,
        msg.event.map Prod.fst, none, []⟩
      let s := { s with calls := call :: s.calls }
      match handleMessage s.channels msg with
      | none => some { s with comm := .hung [req] }
      | some (channels, none) =>
        some { s with channels := channels, comm := .drop (.giveData req) }
      | some (channels, some (c, reply)) =>
        some { s with channels := channels, comm := .alloc req c reply .takeMsg }
  | .alloc req c reply pc =>
    match allocStep reply.msgType choice pc s.mem with
    | none => none
    | some (.going pc, mem) => some { s with mem := mem, comm := .alloc req c reply pc }
    | some (.null, mem) =>
      some { s with
        mem := mem
        comm := .drop (.giveData req)
        calls := List.modifyHead (fun call => { call with blocks := some false }) s.calls }
    | some (.done msg, mem) =>
      some { s with
        mem := mem
        comm := .fill req c reply msg
        calls := List.modifyHead (fun call => { call with blocks := some true }) s.calls }
  | .fill req c reply msg =>
    let transId := (s.mem.messages req).transactionId
    let mem := s.mem.setMessage msg { s.mem.messages msg with transactionId := transId }
    match reply.fill c (mem.block msg) with
    | none => some { s with mem := mem, comm := .hung [req, msg] }
    | some payload => some { s with mem := mem.setPayload msg payload, comm := .send req msg }
  | .send req msg =>
    if s.outgoing.length < queues.outgoing then
      let m := s.mem.messages msg
      some { s with
        outgoing := s.outgoing ++ [msg]
        comm := .drop (.giveData req)
        calls := List.modifyHead (fun call =>
          { call with sent := call.sent ++ [(m.type, m.transactionId)] }) s.calls }
    else some { s with comm := .drop (.giveData req) }
  | .drop pc =>
    match freeStep pc s.mem with
    | none => none
    | some (some pc, mem) => some { s with mem := mem, comm := .drop pc }
    | some (none, mem) => some { s with mem := mem, comm := .idle }
  | .hung _ => none

/-- `check_outgoing_queue` on the spinner's messages. Whatever becomes of the text, the
message goes to `free_msg`. -/
def txStep (s : State n F) : Option (State n F) :=
  match s.tx with
  | .idle =>
    match s.outgoing with
    | [] => some s
    | msg :: rest => some { s with outgoing := rest, tx := .send msg }
  | .send msg => some { s with tx := .free (.giveData msg) }
  | .free pc =>
    match freeStep pc s.mem with
    | none => none
    | some (some pc, mem) => some { s with mem := mem, tx := .free pc }
    | some (none, mem) => some { s with mem := mem, tx := .idle }

def step : Label → State n F → Option (State n F)
  | .rx buf choice => rxStep libc ser queues buf choice
  | .comm choice => commStep queues choice
  | .tx => txStep

/-- `spinner_init`: all blocks are in their pools, with any content. -/
def initial [Zero F] (b : Board) (messages : ℕ → Message DataPtr) (plans : ℕ → SpinPlanData n F)
    (smalls : ℕ → SmallSizeMsgData F) : State n F where
  mem :=
    { msgPool := List.range b.msgStructPoolSize
      dataPool := fun
        | .plans => (List.range b.spinPlanDataMsgPoolSize).map (DataPtr.mk .plans)
        | .smalls => (List.range b.smallSizedMsgPoolSize).map (DataPtr.mk .smalls)
      messages := messages
      plans := plans
      smalls := smalls }
  incoming := []
  outgoing := []
  channels := initialChannels
  rx := .idle
  comm := .idle
  tx := .idle
  calls := []

/-! What each worker can do, with the guards. -/

def RxMove (s s' : State n F) : Prop :=
  ∃ r, ReceiveWorker.RxMove pools (spinnerConf libc ser) queues.incoming s.mem s.incoming s.rx r ∧
    s' = { s with mem := r.mem, incoming := r.incoming, rx := r.rx }

theorem rxStep_move {buf : List Byte} {choice : ℕ} {s s' : State n F}
    (h : rxStep libc ser queues buf choice s = some s') : RxMove libc ser queues s s' := by
  obtain ⟨r, hstep, rfl⟩ := Option.map_eq_some_iff.mp h
  exact ⟨r, ReceiveWorker.rxStep_move hstep, rfl⟩

def commAfterAlloc (req : ℕ) (c : Channel F) (reply : Reply) : AllocResult AllocPc → CommPc F
  | .going pc => .alloc req c reply pc
  | .null => .drop (.giveData req)
  | .done msg => .fill req c reply msg

def noteAlloc : AllocResult AllocPc → List CommCall → List CommCall
  | .going _ => id
  | .null => List.modifyHead fun call => { call with blocks := some false }
  | .done _ => List.modifyHead fun call => { call with blocks := some true }

inductive CommMove (s s' : State n F) : Prop
  | rest (comm : s.comm = .idle) (empty : s.incoming = []) (same : s' = s)
  | receive (comm : s.comm = .idle) (req : ℕ) (rest : List ℕ) (queued : s.incoming = req :: rest)
      (next : s' = { s with incoming := rest, comm := .handle req })
  | unknown (req : ℕ) (comm : s.comm = .handle req) (msg : messageOf s.mem req = none)
      (next : s' = { s with comm := .drop (.giveData req) })
  | panic (req : ℕ) (comm : s.comm = .handle req) (msg : SpinnerMessage n F)
      (read : messageOf s.mem req = some msg) (handled : handleMessage s.channels msg = none)
      (next : s' = { s with
        comm := .hung [req]
        calls := ⟨(s.mem.messages req).type, (s.mem.messages req).transactionId,
          msg.event.map Prod.fst, none, []⟩ :: s.calls })
  | handle (req : ℕ) (comm : s.comm = .handle req) (msg : SpinnerMessage n F)
      (read : messageOf s.mem req = some msg) (channels : Channels F)
      (answer : Option (Channel F × Reply))
      (handled : handleMessage s.channels msg = some (channels, answer))
      (next : s' = { s with
        channels := channels
        comm := answer.elim (.drop (.giveData req)) fun (c, reply) => .alloc req c reply .takeMsg
        calls := ⟨(s.mem.messages req).type, (s.mem.messages req).transactionId,
          msg.event.map Prod.fst, none, []⟩ :: s.calls })
  | alloc (req : ℕ) (c : Channel F) (reply : Reply) (pc : AllocPc)
      (comm : s.comm = .alloc req c reply pc) (choice : ℕ) (res : AllocResult AllocPc)
      (mem : Memory n F) (alloc : allocStep reply.msgType choice pc s.mem = some (res, mem))
      (next : s' = { s with
        mem := mem, comm := commAfterAlloc req c reply res, calls := noteAlloc res s.calls })
  | fill (req : ℕ) (c : Channel F) (reply : Reply) (msg : ℕ) (comm : s.comm = .fill req c reply msg)
      (mem : Memory n F)
      (named : mem = s.mem.setMessage msg { s.mem.messages msg with
        transactionId := (s.mem.messages req).transactionId })
      (payload : Option (SpinnerMessage n F)) (filled : reply.fill c (mem.block msg) = payload)
      (next : s' = { s with
        mem := payload.elim mem (mem.setPayload msg)
        comm := payload.elim (.hung [req, msg]) fun _ => .send req msg })
  | send (req msg : ℕ) (comm : s.comm = .send req msg)
      (room : s.outgoing.length < queues.outgoing)
      (next : s' = { s with
        outgoing := s.outgoing ++ [msg]
        comm := .drop (.giveData req)
        calls := List.modifyHead (fun call => { call with sent := call.sent ++
          [((s.mem.messages msg).type, (s.mem.messages msg).transactionId)] }) s.calls })
  | lost (req msg : ℕ) (comm : s.comm = .send req msg)
      (full : ¬ s.outgoing.length < queues.outgoing)
      (next : s' = { s with comm := .drop (.giveData req) })
  | drop (pc : FreePc) (comm : s.comm = .drop pc) (res : Option FreePc) (mem : Memory n F)
      (free : freeStep pc s.mem = some (res, mem))
      (next : s' = { s with mem := mem, comm := res.elim .idle .drop })

theorem commStep_move {choice : ℕ} {s s' : State n F} (h : commStep queues choice s = some s') :
    CommMove queues s s' := by
  unfold commStep at h
  cases hcomm : s.comm with
  | idle =>
    simp only [hcomm] at h
    cases hq : s.incoming with
    | nil =>
      simp only [hq] at h
      cases h
      exact .rest hcomm hq rfl
    | cons req rest =>
      simp only [hq] at h
      cases h
      exact .receive hcomm req rest hq rfl
  | handle req =>
    simp only [hcomm] at h
    cases hmsg : messageOf s.mem req with
    | none =>
      simp only [hmsg] at h
      cases h
      exact .unknown req hcomm hmsg rfl
    | some msg =>
      simp only [hmsg] at h
      rcases hh : handleMessage s.channels msg with _ | ⟨channels, _ | ⟨c, reply⟩⟩
      · simp only [hh] at h
        cases h
        exact .panic req hcomm msg hmsg hh rfl
      · simp only [hh] at h
        cases h
        exact .handle req hcomm msg hmsg channels none hh rfl
      · simp only [hh] at h
        cases h
        exact .handle req hcomm msg hmsg channels (some (c, reply)) hh rfl
  | alloc req c reply pc =>
    simp only [hcomm] at h
    rcases ha : allocStep reply.msgType choice pc s.mem with _ | ⟨res, mem⟩
    · simp [ha] at h
    · cases res <;> simp only [ha] at h <;> cases h <;>
        exact .alloc req c reply pc hcomm _ _ _ ha rfl
  | fill req c reply msg =>
    simp only [hcomm] at h
    cases hp : reply.fill c ((s.mem.setMessage msg { s.mem.messages msg with
        transactionId := (s.mem.messages req).transactionId }).block msg) with
    | none =>
      simp only [hp] at h
      cases h
      exact .fill req c reply msg hcomm _ rfl none hp rfl
    | some payload =>
      simp only [hp] at h
      cases h
      exact .fill req c reply msg hcomm _ rfl (some payload) hp rfl
  | send req msg =>
    simp only [hcomm] at h
    split_ifs at h with hroom
    · cases h
      exact .send req msg hcomm hroom rfl
    · cases h
      exact .lost req msg hcomm hroom rfl
  | drop pc =>
    simp only [hcomm] at h
    rcases hf : freeStep pc s.mem with _ | ⟨_ | pc', mem⟩
    · simp [hf] at h
    · simp only [hf] at h
      cases h
      exact .drop pc hcomm none mem hf rfl
    · simp only [hf] at h
      cases h
      exact .drop pc hcomm (some pc') mem hf rfl
  | hung blocks => simp [hcomm] at h

inductive TxMove (s s' : State n F) : Prop
  | rest (tx : s.tx = .idle) (empty : s.outgoing = []) (same : s' = s)
  | receive (tx : s.tx = .idle) (msg : ℕ) (rest : List ℕ) (queued : s.outgoing = msg :: rest)
      (next : s' = { s with outgoing := rest, tx := .send msg })
  | send (msg : ℕ) (tx : s.tx = .send msg) (next : s' = { s with tx := .free (.giveData msg) })
  | free (pc : FreePc) (tx : s.tx = .free pc) (res : Option FreePc) (mem : Memory n F)
      (free : freeStep pc s.mem = some (res, mem))
      (next : s' = { s with mem := mem, tx := res.elim .idle .free })

theorem txStep_move {s s' : State n F} (h : txStep s = some s') : TxMove s s' := by
  unfold txStep at h
  cases htx : s.tx with
  | idle =>
    simp only [htx] at h
    cases hq : s.outgoing with
    | nil =>
      simp only [hq] at h
      cases h
      exact .rest htx hq rfl
    | cons msg rest =>
      simp only [hq] at h
      cases h
      exact .receive htx msg rest hq rfl
  | send msg =>
    simp only [htx] at h
    cases h
    exact .send msg htx rfl
  | free pc =>
    simp only [htx] at h
    rcases hf : freeStep pc s.mem with _ | ⟨_ | pc', mem⟩
    · simp [hf] at h
    · simp only [hf] at h
      cases h
      exact .free pc htx none mem hf rfl
    · simp only [hf] at h
      cases h
      exact .free pc htx (some pc') mem hf rfl

end Ratfist.SpinnerSystem
