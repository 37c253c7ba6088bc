import Ratfist.QueueLog
import Ratfist.SpinnerConservation
import Ratfist.SpinnerHistory

/-!
What the calls of `spinner_comm_loop` send. The channel changes before the reply is
allocated, and an allocation that fails ends the call: a request is answered exactly
when both blocks of its reply can be taken at that moment.
-/
namespace Ratfist.SpinnerReplies

open CString Constants Subsystem Exchange QueueLog SpinnerMessages SpinnerChannel SpinnerPools
  SpinnerSystem SpinnerConservation
open ReceiveWorker (AllocResult)

variable {F : Type} {n : ℕ} {b : Board}

def replyTypeFor (msgType : ℕ) : ℕ :=
  if msgType = getPlan then planReply else if msgType = getState then stateReply else retVal

/-- A call on a channel that exists has sent one reply, if both blocks could be taken,
and otherwise nothing; other calls send nothing. -/
def Settled (call : CommCall) : Prop :=
  if ∃ ch, call.channelNum = some ch ∧ ch.toNat < numChannels then
    (call.blocks = some true ∧
        call.sent = [(replyTypeFor call.msgType, call.transactionId)]) ∨
      (call.blocks = some false ∧ call.sent = [])
  else call.sent = []

def finished (s : State n F) : List CommCall :=
  match s.comm with
  | .idle | .handle _ | .drop _ => s.calls
  | .alloc _ _ _ _ | .fill _ _ _ _ | .send _ _ | .hung _ => s.calls.tail

/-- The newest call is on a channel that exists and has sent nothing yet. -/
def Asked (calls : List CommCall) (blocks : Option Bool) (transId replyType : ℕ) : Prop :=
  ∃ call earlier, calls = call :: earlier ∧ (∀ done ∈ earlier, Settled done) ∧
    (∃ ch, call.channelNum = some ch ∧ ch.toNat < numChannels) ∧ call.sent = [] ∧
    call.blocks = blocks ∧ call.transactionId = transId ∧ replyTypeFor call.msgType = replyType

/-- Finished calls are settled, and what the worker is about to send answers the newest. -/
def Answering (s : State n F) : Prop :=
  match s.comm with
  | .idle | .handle _ | .drop _ => ∀ call ∈ s.calls, Settled call
  | .alloc req _ reply _ =>
    Asked s.calls none (s.mem.messages req).transactionId reply.msgType
  | .fill req _ _ msg =>
    Asked s.calls (some true) (s.mem.messages req).transactionId (s.mem.messages msg).type
  | .send _ msg =>
    Asked s.calls (some true) (s.mem.messages msg).transactionId (s.mem.messages msg).type
  | .hung _ => ∀ call ∈ s.calls.tail, Settled call

theorem Answering.finished {s : State n F} (h : Answering s) :
    ∀ call ∈ finished s, Settled call := by
  unfold Answering at h
  unfold SpinnerReplies.finished
  cases hcomm : s.comm <;> simp only [hcomm] at h ⊢
  case alloc =>
    obtain ⟨call, earlier, hcalls, hdone, -⟩ := h
    rw [hcalls]
    exact hdone
  case fill =>
    obtain ⟨call, earlier, hcalls, hdone, -⟩ := h
    rw [hcalls]
    exact hdone
  case send =>
    obtain ⟨call, earlier, hcalls, hdone, -⟩ := h
    rw [hcalls]
    exact hdone
  all_goals exact h

theorem reply_of_event {c c' : Channel F} {event : SpinnerEvent n F} {reply : Reply}
    (h : c.sendEvent event = some (c', reply)) :
    reply.msgType = (match event with
      | .getPlan => planReply
      | .getState => stateReply
      | .setPlan _ | .setState _ => retVal) := by
  rcases Channel.sendEvent_cases h with ⟨_, rfl, -, -, rfl⟩ | ⟨_, rfl, -, -, rfl⟩ |
    ⟨rfl, -, rfl⟩ | ⟨rfl, -, rfl⟩ | ⟨-, rfl, ⟨_, rfl, -⟩ | ⟨_, rfl, -⟩⟩
  all_goals rfl

/-- The reply belongs to the request's type. -/
theorem reply_of_message {mem : Memory n F} {req : ℕ} {msg : SpinnerMessage n F}
    {channels channels' : Channels F} {c : Channel F} {reply : Reply}
    (hmsg : messageOf mem req = some msg)
    (hhandle : handleMessage channels msg = some (channels', some (c, reply))) :
    reply.msgType = replyTypeFor (mem.messages req).type ∧
      ∃ ch, msg.event.map Prod.fst = some ch ∧ ch.toNat < numChannels := by
  rcases handleMessage_cases hhandle with ⟨-, hnone, -⟩ | ⟨event, c', reply', hevent, hsend, -, hs⟩
  · cases hnone
  cases hs
  refine ⟨?_, 0, by simp [hevent], Nat.one_pos⟩
  rw [reply_of_event hsend]
  unfold messageOf at hmsg
  dsimp only at hmsg
  split_ifs at hmsg with h0 h1 h2 h3 h4 h5 h6 <;> cases hmsg <;>
    simp only [SpinnerMessage.event, Option.some.injEq, Prod.mk.injEq, reduceCtorEq] at hevent <;>
    obtain ⟨-, rfl⟩ := hevent
  · rw [h0]
    rfl
  · rw [h1]
    rfl
  · rw [h3]
    rfl
  · rw [h4]
    rfl

/-- Without an answer there was no channel to give it. -/
theorem no_channel_of_message {msg : SpinnerMessage n F} {channels channels' : Channels F}
    (hhandle : handleMessage channels msg = some (channels', none)) :
    ¬ ∃ ch, msg.event.map Prod.fst = some ch ∧ ch.toNat < numChannels := by
  rintro ⟨ch, hch, hlt⟩
  rcases handleMessage_cases hhandle with ⟨-, -, hignored⟩ | ⟨_, _, _, -, -, -, hs⟩
  · obtain ⟨⟨ch', event⟩, hevent, rfl⟩ := Option.map_eq_some_iff.mp hch
    have hzero : ch' = 0 := by
      unfold numChannels at hlt
      exact UInt8.toNat_inj.mp (by simpa using hlt)
    exact hignored event (by rw [hevent, hzero])
  · cases hs

section Steps

variable {libc : Libc F} {ser : Serializers n F} {queues : Queues b} {s s' : State n F}

/-- The other workers leave the current call and its messages alone. -/
theorem Answering.of_frame (h : Answering s) (hcomm : s'.comm = s.comm)
    (hcalls : s'.calls = s.calls)
    (hframe : ∀ m ∈ fullOf s .comm, s'.mem.messages m = s.mem.messages m) : Answering s' := by
  unfold Answering at h ⊢
  rw [hcomm, hcalls]
  simp only [fullOf, byWorker] at hframe
  cases hc : s.comm with
  | alloc req c reply pc =>
    simp only [hc, commFull] at h hframe ⊢
    rw [hframe req (by simp)]
    exact h
  | fill req c reply msg =>
    simp only [hc, commFull] at h hframe ⊢
    rw [hframe req (by simp), hframe msg (by simp)]
    exact h
  | send req msg =>
    simp only [hc, commFull] at h hframe ⊢
    rw [hframe msg (by simp)]
    exact h
  | idle => simpa only [hc] using h
  | handle req => simpa only [hc] using h
  | drop pc => simpa only [hc] using h
  | hung blocks => simpa only [hc] using h

theorem settled_cons {call : CommCall} {calls : List CommCall} (hcall : Settled call)
    (h : ∀ done ∈ calls, Settled done) : ∀ done ∈ call :: calls, Settled done := by
  intro done hmem
  rcases List.mem_cons.mp hmem with rfl | hmem
  · exact hcall
  · exact h done hmem

theorem Answering.comm (hinv : Inv b s) (h : Answering s) (hm : CommMove queues s s') :
    Answering s' := by
  unfold Answering at h
  cases hm with
  | rest comm empty same =>
    subst same
    simpa only [Answering, comm] using h
  | receive comm req rest queued next =>
    subst next
    simpa only [Answering, comm] using h
  | unknown req comm msg next =>
    subst next
    simpa only [Answering, comm] using h
  | panic req comm msg read handled next =>
    subst next
    simpa only [Answering, comm, List.tail_cons] using h
  | handle req comm msg read channels answer handled next =>
    subst next
    simp only [comm] at h
    cases answer with
    | none =>
      refine settled_cons ?_ h
      rw [Settled, if_neg (no_channel_of_message handled)]
    | some sent =>
      obtain ⟨c, reply⟩ := sent
      obtain ⟨htype, hch⟩ := reply_of_message read handled
      exact ⟨_, _, rfl, h, hch, rfl, rfl, rfl, htype.symm⟩
  | alloc req c reply pc comm choice res mem alloc next =>
    subst next
    simp only [comm] at h
    obtain ⟨call, earlier, hcalls, hdone, hch, hsent, hblocks, htid, htype⟩ := h
    have hreq : mem.messages req = s.mem.messages req :=
      hinv.sound.alloc_messages (w := .comm) (by simp [bareOf, byWorker, comm, commBare]) alloc
        (mem_live_full (w := .comm) (by simp [fullOf, byWorker, comm, commFull]))
    cases res with
    | going pc' =>
      refine ⟨call, earlier, hcalls, hdone, hch, hsent, hblocks, ?_, htype⟩
      rw [hreq, htid]
    | null =>
      simp only [Answering, commAfterAlloc, noteAlloc, List.modifyHead_cons, hcalls]
      refine settled_cons ?_ hdone
      rw [Settled, if_pos hch]
      exact Or.inr ⟨rfl, hsent⟩
    | done ret =>
      simp only [Answering, commAfterAlloc, noteAlloc, List.modifyHead_cons, hcalls]
      refine ⟨_, earlier, rfl, hdone, hch, hsent, rfl, ?_, ?_⟩
      · rw [hreq, htid]
      · rw [allocStep_done alloc, htype]
  | fill req c reply msg comm mem named payload filled next =>
    subst next
    simp only [comm] at h
    obtain ⟨call, earlier, hcalls, hdone, hch, hsent, hblocks, htid, htype⟩ := h
    cases payload with
    | none =>
      simp only [Answering, Option.elim_none, hcalls, List.tail_cons]
      exact hdone
    | some p =>
      obtain ⟨-, -, hmessages⟩ := setPayload_frame mem msg p
      simp only [Answering, Option.elim_some]
      rw [hmessages, named]
      simp only [Memory.setMessage, Function.update_self]
      exact ⟨call, earlier, hcalls, hdone, hch, hsent, hblocks, htid, htype⟩
  | send req msg comm room next =>
    subst next
    simp only [comm] at h
    obtain ⟨call, earlier, hcalls, hdone, hch, hsent, hblocks, htid, htype⟩ := h
    simp only [Answering, List.modifyHead_cons, hcalls]
    refine settled_cons ?_ hdone
    rw [Settled, if_pos hch]
    exact Or.inl ⟨hblocks, by rw [hsent, htid, htype]; rfl⟩
  | lost req msg comm full next => exact absurd (reply_room hinv comm) full
  | drop pc comm res mem free next =>
    subst next
    simp only [comm] at h
    cases res <;> exact h

/-- Step lemma. -/
theorem Answering.step (hinv : Inv b s) (h : Answering s) {l : Label}
    (hs : SpinnerSystem.step libc ser queues l s = some s') : Answering s' := by
  have hkept := step_kept hinv hs
  have hframe (hw : workerOf l ≠ .comm) :
      ∀ m ∈ fullOf s .comm, s'.mem.messages m = s.mem.messages m :=
    fun m hm => hkept.elsewhere hinv.separate (p := .full .comm) hm (by simpa using hw.symm)
  cases l with
  | comm choice => exact h.comm hinv (commStep_move queues hs)
  | rx buf choice =>
    obtain ⟨r, -, rfl⟩ := rxStep_move libc ser queues hs
    exact h.of_frame rfl rfl (hframe (by simp [workerOf]))
  | tx =>
    refine h.of_frame ?_ ?_ (hframe (by simp [workerOf])) <;>
      cases txStep_move hs <;> simp_all

end Steps

/-! What the history says is done to the queue and to the pools. -/

def replyId (mem : Memory n F) (msg : ℕ) : ℕ × ℕ :=
  ((mem.messages msg).type, (mem.messages msg).transactionId)

def replies (s : State n F) : List (ℕ × ℕ) := s.calls.flatMap fun call => call.sent.reverse

def tries (s : State n F) : List Bool := s.calls.flatMap fun call => call.blocks.toList

/-- A step notes that there were blocks when it takes the second, and that there were none when
it finds no message block or puts it back. -/
inductive Tried (s s' : State n F) : Prop
  | same (noted : tries s' = tries s)
  | both (req msg : ℕ) (c : Channel F) (reply : Reply) (pool : DataPool)
      (comm : s.comm = .alloc req c reply (.takeData msg))
      (kind : dataPoolOf reply.msgType = some pool) (free : s.mem.dataPool pool ≠ [])
      (next : s'.comm = .fill req c reply msg) (noted : tries s' = true :: tries s)
  | noMsg (req : ℕ) (c : Channel F) (reply : Reply) (comm : s.comm = .alloc req c reply .takeMsg)
      (empty : s.mem.msgPool = []) (noted : tries s' = false :: tries s)
  | noData (req ret : ℕ) (c : Channel F) (reply : Reply)
      (comm : s.comm = .alloc req c reply (.giveMsg ret)) (noted : tries s' = false :: tries s)

/-- A step notes a reply when it appends the block with its type and id to the outgoing queue; a
message block is put back only where its payload pool was empty. -/
structure Noted (s s' : State n F) : Prop where
  reply : Logged (replyId s'.mem) s.outgoing s'.outgoing (replies s) (replies s')
  blocks : Tried s s'
  missed : ∀ req c reply ret, s.comm = .alloc req c reply (.takeData ret) →
    s'.comm = .alloc req c reply (.giveMsg ret) →
      ∃ pool, dataPoolOf reply.msgType = some pool ∧ s.mem.dataPool pool = []

section Noting

variable {libc : Libc F} {ser : Serializers n F} {queues : Queues b} {s s' : State n F}

/-- A step that is no allocation and does not touch the queue. -/
theorem Noted.quiet (hreplies : replies s' = replies s) (htries : tries s' = tries s)
    (houtgoing : s'.outgoing = s.outgoing)
    (hcomm : ∀ req c reply ret, s'.comm ≠ .alloc req c reply (.giveMsg ret) ∨ s'.comm = s.comm) :
    Noted s s' where
  reply := .same houtgoing hreplies
  blocks := .same htries
  missed req c reply ret htake hgive := by
    rcases hcomm req c reply ret with hne | hsame
    · exact absurd hgive hne
    · rw [hsame, htake] at hgive
      cases hgive

theorem Answering.alloc_noted (h : Answering s) {req choice : ℕ} {c : Channel F} {reply : Reply}
    {pc : AllocPc} {res : AllocResult AllocPc} {mem : Memory n F}
    (hcomm : s.comm = .alloc req c reply pc)
    (halloc : allocStep reply.msgType choice pc s.mem = some (res, mem)) :
    Noted s { s with
      mem := mem, comm := commAfterAlloc req c reply res, calls := noteAlloc res s.calls } := by
  simp only [Answering, hcomm] at h
  obtain ⟨call, earlier, hcalls, -, -, -, hblocks, -, -⟩ := h
  have hreplies : (noteAlloc res s.calls).flatMap (fun call => call.sent.reverse) =
      replies s := by
    cases res with
    | going pc => rfl
    | null => exact flatMap_modifyHead_same (fun _ => by rfl) _
    | done msg => exact flatMap_modifyHead_same (fun _ => by rfl) _
  have htries (found : Bool) : (s.calls.modifyHead fun call =>
      { call with blocks := some found }).flatMap (fun call => call.blocks.toList) =
        found :: tries s := by
    simp [tries, hcalls, hblocks]
  refine ⟨.same rfl hreplies, ?_, fun req' c' reply' ret htake hgive => ?_⟩
  · rcases allocStep_cases halloc with ⟨rfl, hempty, rfl, -⟩ | ⟨ret, -, rfl, rfl, -⟩ |
      ⟨ret, pool, rfl, -, -, rfl, -⟩ | ⟨ret, pool, data, hdata, rfl, hpool, -, rfl, -⟩ |
      ⟨ret, rfl, rfl, -⟩
    · exact .noMsg req c reply hcomm hempty (htries false)
    · exact .same rfl
    · exact .same rfl
    · exact .both req ret c reply pool hcomm hpool (List.ne_nil_of_mem hdata) rfl (htries true)
    · exact .noData req ret c reply hcomm (htries false)
  · rw [hcomm] at htake
    cases htake
    rcases allocStep_cases halloc with ⟨hpc, -, -, -⟩ | ⟨_, -, hpc, -, -⟩ |
      ⟨_, pool, -, hpool, hempty, -, -⟩ | ⟨_, _, _, -, -, -, -, rfl, -⟩ | ⟨_, hpc, -, -⟩
    · cases hpc
    · cases hpc
    · exact ⟨pool, hpool, hempty⟩
    · cases hgive
    · cases hpc

theorem Answering.comm_noted (h : Answering s) (hm : CommMove queues s s') : Noted s s' := by
  cases hm with
  | rest comm empty same =>
    subst same
    exact .quiet rfl rfl rfl fun _ _ _ _ => Or.inr rfl
  | receive comm req rest queued next =>
    subst next
    exact .quiet rfl rfl rfl fun _ _ _ _ => Or.inl (by simp)
  | unknown req comm msg next =>
    subst next
    exact .quiet rfl rfl rfl fun _ _ _ _ => Or.inl (by simp)
  | panic req comm msg read handled next =>
    subst next
    exact .quiet rfl rfl rfl fun _ _ _ _ => Or.inl (by simp)
  | handle req comm msg read channels answer handled next =>
    subst next
    refine .quiet rfl rfl rfl fun _ _ _ _ => Or.inl ?_
    cases answer <;> simp
  | alloc req c reply pc comm choice res mem alloc next =>
    subst next
    exact h.alloc_noted comm alloc
  | fill req c reply msg comm mem named payload filled next =>
    subst next
    refine .quiet rfl rfl rfl fun _ _ _ _ => Or.inl ?_
    cases payload <;> simp
  | send req msg comm room next =>
    subst next
    simp only [Answering, comm] at h
    obtain ⟨call, earlier, hcalls, -⟩ := h
    refine ⟨.put msg rfl ?_, .same (flatMap_modifyHead_same (fun _ => by rfl) _), by simp⟩
    exact flatMap_modifyHead_put (fun _ => List.reverse_concat) (by simp [hcalls])
  | lost req msg comm full next =>
    subst next
    exact .quiet rfl rfl rfl fun _ _ _ _ => Or.inl (by simp)
  | drop pc comm res mem free next =>
    subst next
    refine .quiet rfl rfl rfl fun _ _ _ _ => Or.inl ?_
    cases res <;> simp

/-- Any step of the system. -/
theorem Answering.noted (h : Answering s) {l : Label}
    (hs : SpinnerSystem.step libc ser queues l s = some s') : Noted s s' := by
  cases l with
  | comm choice => exact h.comm_noted (commStep_move queues hs)
  | rx buf choice =>
    obtain ⟨r, -, rfl⟩ := rxStep_move libc ser queues hs
    exact .quiet rfl rfl rfl fun _ _ _ _ => Or.inr rfl
  | tx =>
    have hsame : s'.calls = s.calls ∧ s'.comm = s.comm := by
      cases txStep_move hs <;> simp_all
    obtain ⟨hcalls, hcomm⟩ := hsame
    have hreplies : replies s' = replies s := by rw [replies, hcalls, replies]
    have htries : tries s' = tries s := by rw [tries, hcalls, tries]
    cases txStep_move hs with
    | receive tx msg rest queued next =>
      refine ⟨.taken msg (by rw [queued, next]) hreplies, .same htries, ?_⟩
      intro req c reply ret htake hgive
      rw [hcomm, htake] at hgive
      cases hgive
    | rest tx empty same =>
      exact .quiet hreplies htries (by rw [same]) fun _ _ _ _ => Or.inr hcomm
    | send msg tx next =>
      exact .quiet hreplies htries (by rw [next]) fun _ _ _ _ => Or.inr hcomm
    | free pc tx res mem free next =>
      exact .quiet hreplies htries (by rw [next]) fun _ _ _ _ => Or.inr hcomm

/-- What waits in the outgoing queue are the replies that were sent last. -/
def Waits (s : State n F) : Prop := Newest (replyId s.mem) s.outgoing (replies s)

theorem Waits.step (h : Waits s) (hinv : Inv b s) (hanswering : Answering s) {l : Label}
    (hs : SpinnerSystem.step libc ser queues l s = some s') : Waits s' := by
  refine Newest.step h (hanswering.noted hs).reply fun msg hmsg => ?_
  have hkept := (step_kept hinv hs).elsewhere hinv.separate (p := .queue .outgoing) hmsg (by simp)
  rw [replyId, hkept, replyId]

end Noting

end Ratfist.SpinnerReplies
