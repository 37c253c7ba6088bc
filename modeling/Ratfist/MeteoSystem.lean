import Ratfist.MeteoPools
import Ratfist.Runs

/-!
The meteo subsystem at work: the dispatcher's receive worker on METEO frames, the
subsystem's own worker and the dispatcher's transmit worker, each with a position in its
code. A label names the worker that takes the next step, with what comes from outside;
queue and pool operations are single steps. `calls` is a history variable: what became
of the requests taken from the incoming queue, the newest first.
-/
namespace Ratfist.MeteoSystem

open CString Subsystem Routing Serializers MeteoPools
open ReceiveWorker (AllocResult)

variable {F : Type}

/-- Where `process_incoming_message` stands. -/
abbrev RxPc := ReceiveWorker.RxPc AllocPc FreePc

/-- Where `rust_meteo_comm_loop` stands: from `measure` on it has a wrapper around the
request, which `drop` ends. `recover` is the release in `send_msg`. -/
inductive CommPc (F : Type)
  | idle
  | wrap (req : ℕ)
  | measure (req : ℕ)
  | alloc (req : ℕ) (replyType : ℕ) (value : F) (pc : AllocPc)
  | fill (req : ℕ) (replyType : ℕ) (value : F) (msg : ℕ)
  | send (req : ℕ) (msg : ℕ)
  | recover (req : ℕ) (pc : FreePc)
  | sendErr (req : Option ℕ) (err : MeteoError)
  | drop (pc : FreePc)

/-- Where `check_outgoing_queue` stands: before the errors, before the messages, before or
at `free_msg`. -/
inductive TxPc
  | idle
  | messages
  | send (msg : ℕ)
  | free (pc : FreePc)
deriving DecidableEq, Repr

structure Text where
  msgType : ℕ
  transactionId : ℕ
  channel : UInt32
deriving DecidableEq, Repr

/-- What the worker does with the request in the block `req`: the replies it puts into
the outgoing queue, the errors it offers and the message blocks it gives back. -/
structure CommCall where
  req : ℕ
  request : Text
  sent : List Text
  errors : List MeteoError
  given : List ℕ
deriving DecidableEq, Repr

structure State (F : Type) where
  mem : Memory F
  incoming : List ℕ
  outgoing : List ℕ
  errors : List ℤ
  rx : RxPc
  comm : CommPc F
  tx : TxPc
  calls : List CommCall

/-- `[md::message; 20]` and `[MessagePayload; 20]` -/
def poolSize : ℕ := 20

/-- `[*mut md::message; 20]` and `[i32; 20]` -/
def queueSlots : ℕ := 20

/-- How much the three queues hold: of the slots of a mailbox at most one is lost. -/
structure Queues where
  incoming : ℕ
  outgoing : ℕ
  errors : ℕ
  incoming_slots : queueSlots - 1 ≤ incoming
  outgoing_slots : queueSlots - 1 ≤ outgoing
  errors_slots : queueSlots - 1 ≤ errors

/-- What the two sensors return: temperature and pressure, and the light level. -/
structure Measured (F : Type) where
  pressSensor : Except MeteoError (F × F)
  lightSensor : Except MeteoError F

/-- `buf` is read when the receive worker has nothing to do, `choice` when a pool is
asked for a block, `measured` when a sensor is. -/
inductive Label (F : Type)
  | rx (buf : List Byte) (choice : ℕ)
  | comm (choice : ℕ) (measured : Measured F)
  | tx

variable [Zero F] (nullAtEnd : Bool) (fmt : Formatting F)
  (queues : Queues)

/-- `process_incoming_message` with the meteo subsystem as the registered one. -/
def rxStep (buf : List Byte) (choice : ℕ) (s : State F) : Option (State F) :=
  (ReceiveWorker.rxStep pools nullAtEnd (meteoConf fmt) queues.incoming buf choice s.mem s.incoming
    s.rx).map fun r => { s with mem := r.mem, incoming := r.incoming, rx := r.rx }

def noteFree : FreePc → List CommCall → List CommCall
  | .giveMsg msg => List.modifyHead fun call => { call with given := msg :: call.given }
  | .enter _ | .giveData _ => id

def requestChannel (mem : Memory F) (req : ℕ) : UInt32 :=
  (((mem.messages req).data.map mem.payloads).map MessagePayload.channelNumPayload).getD 0

def requestText (mem : Memory F) (req : ℕ) : Text :=
  ⟨(mem.messages req).type, (mem.messages req).transactionId, requestChannel mem req⟩

def replyChannel (mem : Memory F) (msg : ℕ) : UInt32 :=
  (((mem.messages msg).data.map mem.payloads).map fun p => p.stdResponse.channel).getD 0

def replyText (mem : Memory F) (msg : ℕ) : Text :=
  ⟨(mem.messages msg).type, (mem.messages msg).transactionId, replyChannel mem msg⟩

/-- The branches of `process_msg` up to the reply that is to be made. When the light
sensor is not ready the worker sets it up again, and its results are not used. -/
def answer (msgType : ℕ) (measured : Measured F) : Except MeteoError (ℕ × F) :=
  if msgType = getTemperature then measured.pressSensor.map fun (t, _) => (temperatureReply, t)
  else if msgType = getPressure then measured.pressSensor.map fun (_, p) => (pressureReply, p)
  else if msgType = getHumidity then .ok (humidityReply, 0)
  else measured.lightSensor.map fun level => (lightLevelReply, level)

/-- `rust_meteo_comm_loop` with `process_msg`. A pointer that cannot be wrapped is
dropped without a release. -/
def commStep (choice : ℕ) (measured : Measured F) (s : State F) : Option (State F) :=
  match s.comm with
  | .idle =>
    match s.incoming with
    | [] => some s
    | req :: rest =>
      some { s with
        incoming := rest
        comm := .wrap req
        calls := ⟨req, requestText s.mem req, [], [], []⟩ :: s.calls }
  | .wrap req =>
    if (s.mem.messages req).data ≠ none ∧ (s.mem.messages req).type ∈ requestTypes then
      some { s with comm := .measure req }
    else some { s with comm := .sendErr none .invalidMsg }
  | .measure req =>
    match answer (s.mem.messages req).type measured with
    | .error err => some { s with comm := .sendErr (some req) err }
    | .ok (replyType, value) => some { s with comm := .alloc req replyType value .takeMsg }
  | .alloc req replyType value pc =>
    match allocStep replyType choice pc s.mem with
    | none => none
    | some (.going pc, mem) => some { s with mem := mem, comm := .alloc req replyType value pc }
    | some (.null, mem) => some { s with mem := mem, comm := .sendErr (some req) .msgCreation }
    | some (.done msg, mem) => some { s with mem := mem, comm := .fill req replyType value msg }
  | .fill req replyType value msg =>
    match (s.mem.messages msg).data with
    | none => some { s with comm := .sendErr (some req) .msgCreation }
    | some data =>
      if (s.mem.messages msg).type = replyType then
        let transId := (s.mem.messages req).transactionId
        let mem := s.mem.setMessage msg { s.mem.messages msg with transactionId := transId }
        some { s with
          mem := mem.setPayload data { mem.payloads data with
            stdResponse := ⟨requestChannel s.mem req, value⟩ }
          comm := .send req msg }
      else some { s with comm := .sendErr (some req) .msgCreation }
  | .send req msg =>
    if s.outgoing.length < queues.outgoing then
      some { s with
        outgoing := s.outgoing ++ [msg]
        comm := .drop (.enter (some req))
        calls := List.modifyHead (fun call =>
          { call with sent := replyText s.mem msg :: call.sent }) s.calls }
    else some { s with comm := .recover req (.enter (some msg)) }
  | .recover req pc =>
    match freeStep pc s.mem with
    | (some next, mem) =>
      some { s with mem := mem, comm := .recover req next, calls := noteFree pc s.calls }
    | (none, mem) =>
      some { s with
        mem := mem, comm := .sendErr (some req) .txQueueFull, calls := noteFree pc s.calls }
  | .sendErr req err =>
    some { s with
      errors := if s.errors.length < queues.errors then s.errors ++ [err.code] else s.errors
      comm := req.elim .idle fun req => .drop (.enter (some req))
      calls := List.modifyHead (fun call => { call with errors := err :: call.errors }) s.calls }
  | .drop pc =>
    match freeStep pc s.mem with
    | (some next, mem) =>
      some { s with mem := mem, comm := .drop next, calls := noteFree pc s.calls }
    | (none, mem) => some { s with mem := mem, comm := .idle, calls := noteFree pc s.calls }

/-- `check_outgoing_queue` on the meteo subsystem's queues. Whatever becomes of its text,
a message goes to `free_msg`. -/
def txStep (s : State F) : Option (State F) :=
  match s.tx with
  | .idle =>
    match s.errors with
    | [] => some { s with tx := .messages }
    | _ :: rest => some { s with errors := rest }
  | .messages =>
    match s.outgoing with
    | [] => some { s with tx := .idle }
    | msg :: rest => some { s with outgoing := rest, tx := .send msg }
  | .send msg => some { s with tx := .free (.enter (some msg)) }
  | .free pc =>
    match freeStep pc s.mem with
    | (some pc, mem) => some { s with mem := mem, tx := .free pc }
    | (none, mem) => some { s with mem := mem, tx := .idle }

def step : Label F → State F → Option (State F)
  | .rx buf choice => rxStep nullAtEnd fmt queues buf choice
  | .comm choice measured => commStep queues choice measured
  | .tx => txStep

/-- `rust_meteo_init`: all blocks are in their pools, with any content. -/
def initial (messages : ℕ → Message (Option ℕ)) (payloads : ℕ → MessagePayload F) : State F where
  mem := ⟨List.range poolSize, List.range poolSize, messages, payloads⟩
  incoming := []
  outgoing := []
  errors := []
  rx := .idle
  comm := .idle
  tx := .idle
  calls := []

/-! What each worker can do, with the guards. -/

def RxMove (s s' : State F) : Prop :=
  ∃ r, ReceiveWorker.RxMove pools (meteoConf fmt) queues.incoming s.mem s.incoming s.rx r ∧
    s' = { s with mem := r.mem, incoming := r.incoming, rx := r.rx }

theorem rxStep_move {buf : List Byte} {choice : ℕ} {s s' : State F}
    (h : rxStep nullAtEnd fmt queues buf choice s = some s') : RxMove fmt queues s s' := by
  obtain ⟨r, hstep, rfl⟩ := Option.map_eq_some_iff.mp h
  exact ⟨r, ReceiveWorker.rxStep_move hstep, rfl⟩

def commAfterAlloc (req replyType : ℕ) (value : F) : AllocResult AllocPc → CommPc F
  | .going pc => .alloc req replyType value pc
  | .null => .sendErr (some req) .msgCreation
  | .done msg => .fill req replyType value msg

def commAfterMeasure (req : ℕ) : Except MeteoError (ℕ × F) → CommPc F
  | .error err => .sendErr (some req) err
  | .ok (replyType, value) => .alloc req replyType value .takeMsg

def fillReply (mem : Memory F) (req msg data : ℕ) (value : F) : Memory F :=
  (mem.setMessage msg { mem.messages msg with
    transactionId := (mem.messages req).transactionId }).setPayload data
      { mem.payloads data with stdResponse := ⟨requestChannel mem req, value⟩ }

inductive CommMove (queues : Queues) (s s' : State F) : Prop
  | rest (comm : s.comm = .idle) (empty : s.incoming = []) (same : s' = s)
  | receive (comm : s.comm = .idle) (req : ℕ) (rest : List ℕ) (queued : s.incoming = req :: rest)
      (next : s' = { s with
        incoming := rest
        comm := .wrap req
        calls := ⟨req, requestText s.mem req, [], [], []⟩ :: s.calls })
  | wrap (req : ℕ) (comm : s.comm = .wrap req) (next : s' = { s with comm := .measure req })
  | invalid (req : ℕ) (comm : s.comm = .wrap req)
      (wrong : (s.mem.messages req).data = none ∨ (s.mem.messages req).type ∉ requestTypes)
      (next : s' = { s with comm := .sendErr none .invalidMsg })
  | measure (req : ℕ) (comm : s.comm = .measure req) (measured : Measured F)
      (next : s' = { s with
        comm := commAfterMeasure req (answer (s.mem.messages req).type measured) })
  | alloc (req replyType : ℕ) (value : F) (pc : AllocPc)
      (comm : s.comm = .alloc req replyType value pc) (res : AllocResult AllocPc) (mem : Memory F)
      (alloc : AllocMove replyType s.mem mem pc res)
      (next : s' = { s with mem := mem, comm := commAfterAlloc req replyType value res })
  | fill (req replyType : ℕ) (value : F) (msg data : ℕ)
      (comm : s.comm = .fill req replyType value msg)
      (attached : (s.mem.messages msg).data = some data)
      (next : s' = { s with
        mem := fillReply s.mem req msg data value, comm := .send req msg })
  | unfit (req replyType : ℕ) (value : F) (msg : ℕ) (comm : s.comm = .fill req replyType value msg)
      (wrong : (s.mem.messages msg).data = none ∨ (s.mem.messages msg).type ≠ replyType)
      (next : s' = { s with comm := .sendErr (some req) .msgCreation })
  | send (req msg : ℕ) (comm : s.comm = .send req msg)
      (next : s' = { s with
        outgoing := s.outgoing ++ [msg]
        comm := .drop (.enter (some req))
        calls := List.modifyHead (fun call =>
          { call with sent := replyText s.mem msg :: call.sent }) s.calls })
  | full (req msg : ℕ) (comm : s.comm = .send req msg)
      (next : s' = { s with comm := .recover req (.enter (some msg)) })
  | recover (req : ℕ) (pc : FreePc) (comm : s.comm = .recover req pc) (res : Option FreePc)
      (mem : Memory F) (free : FreeMove s.mem mem pc res)
      (next : s' = { s with
        mem := mem
        comm := res.elim (.sendErr (some req) .txQueueFull) (.recover req)
        calls := noteFree pc s.calls })
  | sendErr (req : Option ℕ) (err : MeteoError) (comm : s.comm = .sendErr req err)
      (next : s' = { s with
        errors := if s.errors.length < queues.errors then s.errors ++ [err.code] else s.errors
        comm := req.elim .idle fun req => .drop (.enter (some req))
        calls := List.modifyHead (fun call => { call with errors := err :: call.errors }) s.calls })
  | drop (pc : FreePc) (comm : s.comm = .drop pc) (res : Option FreePc) (mem : Memory F)
      (free : FreeMove s.mem mem pc res)
      (next : s' = { s with
        mem := mem, comm := res.elim .idle .drop, calls := noteFree pc s.calls })

theorem commStep_move {choice : ℕ} {measured : Measured F} {s s' : State F}
    (h : commStep queues choice measured s = some s') : CommMove queues s s' := by
  unfold commStep at h
  cases hcomm : s.comm with
  | idle =>
    simp only [hcomm] at h
    cases hq : s.incoming with
    | nil =>
      simp only [hq] at h
      cases h
      exact .rest hcomm hq rfl
    | cons req rest =>
      simp only [hq] at h
      cases h
      exact .receive hcomm req rest hq rfl
  | wrap req =>
    simp only [hcomm] at h
    split_ifs at h with hfits
    · cases h
      exact .wrap req hcomm rfl
    · cases h
      refine .invalid req hcomm ?_ rfl
      rwa [not_and_or, ne_eq, not_not] at hfits
  | measure req =>
    simp only [hcomm] at h
    rcases ha : answer (s.mem.messages req).type measured with err | ⟨replyType, value⟩
    · simp only [ha] at h
      cases h
      exact .measure req hcomm measured (by rw [ha]; rfl)
    · simp only [ha] at h
      cases h
      exact .measure req hcomm measured (by rw [ha]; rfl)
  | alloc req replyType value pc =>
    simp only [hcomm] at h
    rcases ha : allocStep replyType choice pc s.mem with _ | ⟨res, mem⟩
    · simp [ha] at h
    · have hmove := allocStep_move ha
      cases res <;> simp only [ha] at h <;> cases h <;>
        exact .alloc req replyType value pc hcomm _ _ hmove rfl
  | fill req replyType value msg =>
    simp only [hcomm] at h
    cases hdata : (s.mem.messages msg).data with
    | none =>
      simp only [hdata] at h
      cases h
      exact .unfit req replyType value msg hcomm (Or.inl hdata) rfl
    | some data =>
      simp only [hdata] at h
      split_ifs at h with htype
      · cases h
        exact .fill req replyType value msg data hcomm hdata (by rw [← hdata]; rfl)
      · cases h
        exact .unfit req replyType value msg hcomm (Or.inr htype) rfl
  | send req msg =>
    simp only [hcomm] at h
    split_ifs at h with hroom
    · cases h
      exact .send req msg hcomm rfl
    · cases h
      exact .full req msg hcomm rfl
  | recover req pc =>
    simp only [hcomm] at h
    rcases hf : freeStep pc s.mem with ⟨_ | pc', mem⟩
    · simp only [hf] at h
      cases h
      exact .recover req pc hcomm none mem (freeStep_move hf) rfl
    · simp only [hf] at h
      cases h
      exact .recover req pc hcomm (some pc') mem (freeStep_move hf) rfl
  | sendErr req err =>
    simp only [hcomm] at h
    cases h
    exact .sendErr req err hcomm rfl
  | drop pc =>
    simp only [hcomm] at h
    rcases hf : freeStep pc s.mem with ⟨_ | pc', mem⟩
    · simp only [hf] at h
      cases h
      exact .drop pc hcomm none mem (freeStep_move hf) rfl
    · simp only [hf] at h
      cases h
      exact .drop pc hcomm (some pc') mem (freeStep_move hf) rfl

inductive TxMove (s s' : State F) : Prop
  | noErrors (tx : s.tx = .idle) (next : s' = { s with tx := .messages })
  | error (tx : s.tx = .idle) (code : ℤ) (rest : List ℤ) (queued : s.errors = code :: rest)
      (next : s' = { s with errors := rest })
  | rest (tx : s.tx = .messages) (next : s' = { s with tx := .idle })
  | receive (tx : s.tx = .messages) (msg : ℕ) (rest : List ℕ) (queued : s.outgoing = msg :: rest)
      (next : s' = { s with outgoing := rest, tx := .send msg })
  | send (msg : ℕ) (tx : s.tx = .send msg)
      (next : s' = { s with tx := .free (.enter (some msg)) })
  | free (pc : FreePc) (tx : s.tx = .free pc) (res : Option FreePc) (mem : Memory F)
      (free : FreeMove s.mem mem pc res)
      (next : s' = { s with mem := mem, tx := res.elim .idle .free })

omit [Zero F] in
theorem txStep_move {s s' : State F} (h : txStep s = some s') : TxMove s s' := by
  unfold txStep at h
  cases htx : s.tx with
  | idle =>
    simp only [htx] at h
    cases he : s.errors with
    | nil =>
      simp only [he] at h
      cases h
      exact .noErrors htx (by rw [← he])
    | cons code rest =>
      simp only [he] at h
      cases h
      exact .error htx code rest he (by rw [← htx])
  | messages =>
    simp only [htx] at h
    cases hq : s.outgoing with
    | nil =>
      simp only [hq] at h
      cases h
      exact .rest htx (by rw [← hq])
    | cons msg rest =>
      simp only [hq] at h
      cases h
      exact .receive htx msg rest hq rfl
  | send msg =>
    simp only [htx] at h
    cases h
    exact .send msg htx rfl
  | free pc =>
    simp only [htx] at h
    rcases hf : freeStep pc s.mem with ⟨_ | pc', mem⟩
    · simp only [hf] at h
      cases h
      exact .free pc htx none mem (freeStep_move hf) rfl
    · simp only [hf] at h
      cases h
      exact .free pc htx (some pc') mem (freeStep_move hf) rfl

end Ratfist.MeteoSystem
