import Ratfist.MeteoConservation
import Ratfist.QueueLog

/-!
What becomes of the requests that `rust_meteo_comm_loop` takes. Each call ends with one
reply or one error and gives its request back once; the wrapper around the request is
dropped on every path.
-/
namespace Ratfist.MeteoReplies

open CString Subsystem Routing Ledger Exchange QueueLog Serializers MeteoPools MeteoSystem
  MeteoConservation
open ReceiveWorker (AllocResult)

variable {F : Type}

def replyTypeFor (msgType : ℕ) : ℕ :=
  if msgType = getTemperature then temperatureReply
  else if msgType = getPressure then pressureReply
  else if msgType = getHumidity then humidityReply
  else lightLevelReply

/-- The reply has the request's transaction id and channel. -/
def answerTo (request : Text) : Text := { request with msgType := replyTypeFor request.msgType }

/-- One reply in the outgoing queue, or one error offered. -/
def Outcome (call : CommCall) : Prop :=
  (call.sent = [answerTo call.request] ∧ call.errors = []) ∨
    (call.sent = [] ∧ ∃ err, call.errors = [err])

structure Settled (call : CommCall) : Prop where
  outcome : Outcome call
  freed : call.given.count call.req = 1

def finished (s : State F) : List CommCall :=
  match s.comm with
  | .idle => s.calls
  | .wrap _ | .measure _ | .alloc _ _ _ _ | .fill _ _ _ _ | .send _ _ | .recover _ _
  | .sendErr _ _ | .drop _ => s.calls.tail

/-- The request is held, and nothing has been said about it. -/
structure Waiting (mem : Memory F) (req : ℕ) (call : CommCall) : Prop where
  about : call.req = req
  request : call.request = requestText mem req
  sent : call.sent = []
  errors : call.errors = []
  given : call.given.count req = 0

def releasing : FreePc → Option ℕ
  | .enter msg => msg
  | .giveData msg | .giveMsg msg => some msg

def Phase (mem : Memory F) (call : CommCall) : CommPc F → Prop
  | .idle | .sendErr none _ => False
  | .wrap req | .measure req | .recover req _ | .sendErr (some req) _ => Waiting mem req call
  | .alloc req replyType _ _ | .fill req replyType _ _ =>
    Waiting mem req call ∧ replyType = replyTypeFor call.request.msgType
  | .send req msg => Waiting mem req call ∧ replyText mem msg = answerTo call.request
  | .drop pc => Outcome call ∧ call.given.count call.req = 0 ∧ releasing pc = some call.req

structure Answering (s : State F) : Prop where
  settled : ∀ call ∈ finished s, Settled call
  current : s.comm ≠ .idle → ∃ call, s.calls.head? = some call ∧ Phase s.mem call s.comm

@[simp] theorem noteFree_tail (pc : FreePc) (calls : List CommCall) :
    (noteFree pc calls).tail = calls.tail := by
  cases pc
  case giveMsg => exact List.tail_modifyHead
  all_goals rfl

def givenBy : FreePc → List ℕ
  | .giveMsg msg => [msg]
  | .enter _ | .giveData _ => []

theorem noteFree_head (pc : FreePc) {calls : List CommCall} {call : CommCall}
    (h : calls.head? = some call) :
    (noteFree pc calls).head? = some { call with given := givenBy pc ++ call.given } := by
  cases pc
  case giveMsg msg =>
    rw [noteFree, List.head?_modifyHead, h]
    rfl
  all_goals exact h

theorem requestText_congr {mem mem' : Memory F} {msg : ℕ} (h : block mem' msg = block mem msg) :
    requestText mem' msg = requestText mem msg := by
  have hmsg := congrArg Prod.fst h
  have hdata := congrArg Prod.snd h
  simp only [block] at hmsg hdata
  rw [hmsg] at hdata
  simp only [requestText, requestChannel, hmsg, hdata]

theorem replyText_congr {mem mem' : Memory F} {msg : ℕ} (h : block mem' msg = block mem msg) :
    replyText mem' msg = replyText mem msg := by
  have hmsg := congrArg Prod.fst h
  have hdata := congrArg Prod.snd h
  simp only [block] at hmsg hdata
  rw [hmsg] at hdata
  simp only [replyText, replyChannel, hmsg, hdata]

theorem Waiting.congr {mem mem' : Memory F} {req : ℕ} {call : CommCall}
    (h : Waiting mem req call) (hblock : block mem' req = block mem req) :
    Waiting mem' req call :=
  { h with request := by rw [h.request, requestText_congr hblock] }

/-- The phase depends on the blocks of the call only. -/
theorem Phase.congr {mem mem' : Memory F} {call : CommCall} {pc : CommPc F}
    (h : Phase mem call pc) (hblock : ∀ m ∈ commFull pc, block mem' m = block mem m) :
    Phase mem' call pc := by
  cases pc with
  | idle => exact h
  | wrap req => exact Waiting.congr h (hblock req (by simp [commFull]))
  | measure req => exact Waiting.congr h (hblock req (by simp [commFull]))
  | alloc req replyType value pc => exact ⟨h.1.congr (hblock req (by simp [commFull])), h.2⟩
  | fill req replyType value msg => exact ⟨h.1.congr (hblock req (by simp [commFull])), h.2⟩
  | send req msg =>
    refine ⟨h.1.congr (hblock req (by simp [commFull])), ?_⟩
    rw [replyText_congr (hblock msg (by simp [commFull]))]
    exact h.2
  | recover req pc => exact Waiting.congr h (hblock req (by simp [commFull]))
  | sendErr req err =>
    cases req with
    | none => exact h
    | some req => exact Waiting.congr h (hblock req (by simp [commFull]))
  | drop pc => exact h

/-- The reply belongs to the request's type. -/
theorem answer_type {msgType replyType : ℕ} {measured : Measured F} {value : F} [Zero F]
    (h : answer msgType measured = .ok (replyType, value)) :
    replyType = replyTypeFor msgType := by
  unfold answer at h
  unfold replyTypeFor
  split_ifs at h ⊢
  · cases hs : measured.pressSensor <;> rw [hs] at h <;> cases h
    rfl
  · cases hs : measured.pressSensor <;> rw [hs] at h <;> cases h
    rfl
  · cases h
    rfl
  · cases hs : measured.lightSensor <;> rw [hs] at h <;> cases h
    rfl

section Steps

variable {nullAtEnd : Bool} {fmt : Formatting F} {queues : Queues}
  {s s' : State F} {w : Worker}

/-- The other workers leave the current call and its blocks alone. -/
theorem Answering.of_frame (h : Answering s) (hinv : Inv s) (hk : Kept w s s') (hw : w ≠ .comm)
    (hcomm : s'.comm = s.comm) (hcalls : s'.calls = s.calls) : Answering s' := by
  refine ⟨?_, fun hbusy => ?_⟩
  · have hfinished : finished s' = finished s := by
      unfold finished
      rw [hcomm, hcalls]
    rw [hfinished]
    exact h.settled
  · rw [hcomm] at hbusy ⊢
    obtain ⟨call, hcall, hphase⟩ := h.current hbusy
    refine ⟨call, by rw [hcalls, hcall], hphase.congr fun m hm => ?_⟩
    exact hk.elsewhere hinv.separate (p := .full .comm) hm (by simpa using hw.symm)

theorem finished_busy (hbusy : s.comm ≠ .idle) : finished s = s.calls.tail := by
  unfold finished
  cases hcomm : s.comm with
  | idle => exact absurd hcomm hbusy
  | _ => rfl

/-- A step within a call. -/
theorem Answering.within (h : Answering s) (hbusy : s.comm ≠ .idle) (hbusy' : s'.comm ≠ .idle)
    (htail : s'.calls.tail = s.calls.tail)
    (hphase : ∀ call, s.calls.head? = some call → Phase s.mem call s.comm →
      ∃ call', s'.calls.head? = some call' ∧ Phase s'.mem call' s'.comm) : Answering s' := by
  refine ⟨?_, fun _ => ?_⟩
  · rw [finished_busy hbusy', htail, ← finished_busy hbusy]
    exact h.settled
  · obtain ⟨call, hcall, hnow⟩ := h.current hbusy
    exact hphase call hcall hnow

/-- The last step of a call. -/
theorem Answering.over (h : Answering s) (hbusy : s.comm ≠ .idle) (hidle : s'.comm = .idle)
    (htail : s'.calls.tail = s.calls.tail)
    (hsettled : ∀ call, s.calls.head? = some call → Phase s.mem call s.comm →
      ∃ call', s'.calls.head? = some call' ∧ Settled call') : Answering s' := by
  refine ⟨?_, fun hbusy' => absurd hidle hbusy'⟩
  obtain ⟨call, hcall, hnow⟩ := h.current hbusy
  obtain ⟨call', hcall', hdone⟩ := hsettled call hcall hnow
  have hcons : s'.calls = call' :: s.calls.tail := by
    rw [← htail]
    exact List.eq_cons_of_mem_head? (by rw [hcall']; rfl)
  have hfinished : finished s' = s'.calls := by
    unfold finished
    rw [hidle]
  rw [hfinished, hcons]
  intro done hmem
  rcases List.mem_cons.mp hmem with rfl | hmem
  · exact hdone
  · rw [← finished_busy hbusy] at hmem
    exact h.settled done hmem

/-- The request stays the same while a reply is allocated and filled. -/
theorem Waiting.alloc [Zero F] {req replyType : ℕ} {value : F} {pc : AllocPc} {call : CommCall}
    {res : AllocResult AllocPc} {mem : Memory F} (h : Waiting s.mem req call) (hinv : Inv s)
    (hcomm : s.comm = .alloc req replyType value pc)
    (hm : AllocMove replyType s.mem mem pc res) : Waiting mem req call := by
  have hbare : bareOf s .comm = allocBare pc := by simp [bareOf, byWorker, hcomm, commBare]
  have hpc : Regular replyType pc := by simpa only [hcomm, CommFit] using hinv.comm
  have hlive : req ∈ (holdings s).live :=
    mem_live_full (w := .comm) (by simp [fullOf, byWorker, hcomm, commFull])
  exact h.congr (hinv.sound.alloc_block hbare hpc hm hlive)

/-- A reply that is filled says what the request asks for. -/
theorem fill_replyText {mem : Memory F} {req msg data : ℕ} {value : F}
    (hdata : (mem.messages msg).data = some data) :
    replyText (fillReply mem req msg data value) msg =
      ⟨(mem.messages msg).type, (mem.messages req).transactionId, requestChannel mem req⟩ := by
  simp [replyText, replyChannel, fillReply, Memory.setPayload, Memory.setMessage, hdata]

theorem Waiting.fill {req replyType msg data : ℕ} {value : F} {call : CommCall}
    (h : Waiting s.mem req call) (hinv : Inv s) (hcomm : s.comm = .fill req replyType value msg)
    (hdata : (s.mem.messages msg).data = some data) :
    Waiting (fillReply s.mem req msg data value) req call := by
  have hfull : fullOf s .comm = msg ::ₘ {req} := by simp [fullOf, byWorker, hcomm, commFull]
  have hnodup : (msg ::ₘ {req} : Multiset ℕ).Nodup := by
    rw [← hfull]
    exact hinv.separate.nodup (.live (.full .comm))
  have hne : req ≠ msg := by
    rintro rfl
    exact (Multiset.nodup_cons.mp hnodup).1 (Multiset.mem_singleton_self _)
  have hlive {m : ℕ} (hm : m ∈ fullOf s .comm) : m ∈ (holdings s).live := mem_live_full hm
  exact h.congr (hinv.sound.write_others (fill_writes req value hdata) (hlive (by simp [hfull]))
    (hlive (by simp [hfull])) hne)

/-- A release of another block than the request's. -/
theorem Waiting.release {mem mem' : Memory F} {req : ℕ} {pc : FreePc} {res : Option FreePc}
    {call : CommCall} (h : Waiting mem req call) (hm : FreeMove mem mem' pc res)
    (hne : req ∉ givenBy pc) :
    Waiting mem' req { call with given := givenBy pc ++ call.given } := by
  refine ⟨h.about, ?_, h.sent, h.errors, ?_⟩
  · rw [h.request, requestText_congr (free_block hm req)]
  · rw [List.count_append, h.given, List.count_eq_zero_of_not_mem hne]

/-- What has been said about the request is its outcome, and its release begins. -/
theorem Waiting.said {mem mem' : Memory F} {req : ℕ} {call call' : CommCall}
    (h : Waiting mem req call) (hreq : call'.req = call.req) (hgiven : call'.given = call.given)
    (houtcome : Outcome call') : Phase mem' call' (.drop (.enter (some req))) := by
  refine ⟨houtcome, ?_, ?_⟩
  · rw [hgiven, hreq, h.about]
    exact h.given
  · rw [hreq, h.about]
    rfl

/-- The blocks that a release is about can be released. -/
theorem releasable (hinv : Inv s) {pc : FreePc} (hcomm : s.comm = .drop pc) {msg : ℕ}
    (hmsg : msg ∈ freeFull pc) :
    (s.mem.messages msg).type ∈ messageTypes ∧ (s.mem.messages msg).data ≠ none :=
  hinv.sound.fine msg (mem_live_full (w := .comm) (by
    simpa [fullOf, byWorker, hcomm, commFull] using hmsg))

/-- The wrapper around the request is dropped. -/
theorem Answering.drop (h : Answering s) (hinv : Inv s) {pc : FreePc} {res : Option FreePc}
    {mem : Memory F} (hcomm : s.comm = .drop pc) (hm : FreeMove s.mem mem pc res) :
    Answering { s with
      mem := mem, comm := res.elim .idle .drop, calls := noteFree pc s.calls } := by
  have hbusy : s.comm ≠ .idle := by simp [hcomm]
  cases hm with
  | null same =>
    obtain ⟨call, -, hphase⟩ := h.current hbusy
    rw [hcomm] at hphase
    cases hphase.2.2
  | unknown msg type same => exact absurd (releasable hinv hcomm (by simp [freeFull])).1 type
  | noData msg data same => exact absurd data (releasable hinv hcomm (by simp [freeFull])).2
  | enter msg data attached same =>
    refine h.within hbusy (by simp) rfl fun call hcall hphase => ⟨call, hcall, ?_⟩
    rwa [hcomm] at hphase
  | giveData msg next =>
    refine h.within hbusy (by simp) rfl fun call hcall hphase => ⟨call, hcall, ?_⟩
    rwa [hcomm] at hphase
  | giveMsg msg next =>
    refine h.over hbusy rfl (noteFree_tail (.giveMsg msg) s.calls) fun call hcall hphase => ?_
    rw [hcomm] at hphase
    obtain ⟨houtcome, hgiven, hreleasing⟩ := hphase
    refine ⟨_, noteFree_head (.giveMsg msg) hcall, houtcome, ?_⟩
    rw [show call.req = msg from (Option.some.inj hreleasing).symm] at hgiven ⊢
    rw [List.count_append, hgiven]
    simp [givenBy]

/-- A reply that does not fit into the queue is released. -/
theorem Answering.recover (h : Answering s) (hinv : Inv s) {req : ℕ} {pc : FreePc}
    {res : Option FreePc} {mem : Memory F} (hcomm : s.comm = .recover req pc)
    (hm : FreeMove s.mem mem pc res) :
    Answering { s with
      mem := mem
      comm := res.elim (.sendErr (some req) .txQueueFull) (.recover req)
      calls := noteFree pc s.calls } := by
  refine h.within (by simp [hcomm]) (by cases res <;> simp) (noteFree_tail _ _)
    fun call hcall hphase => ?_
  rw [hcomm] at hphase
  have hwaiting : Waiting s.mem req call := hphase
  have hne : req ∉ givenBy pc := by
    intro hgiven
    have hreq : req ∈ (holdings s).place (.live (.full .comm)) := by
      simp [fullOf, byWorker, hcomm, commFull]
    have hpc : req ∈ (holdings s).place (.bare .comm) := by
      cases pc <;> simp_all [bareOf, byWorker, commBare, freeBare, givenBy]
    cases hinv.separate.unique hreq hpc
  have hafter := hwaiting.release hm hne
  refine ⟨_, noteFree_head pc hcall, ?_⟩
  cases res <;> exact hafter

theorem Answering.measure [Zero F] (h : Answering s) {req : ℕ} (hcomm : s.comm = .measure req)
    (measured : Measured F) :
    Answering { s with
      comm := commAfterMeasure req (answer (s.mem.messages req).type measured) } := by
  refine h.within (by simp [hcomm]) ?_ rfl fun call hcall hphase => ⟨call, hcall, ?_⟩
  · simp only [commAfterMeasure]
    split <;> simp
  · rw [hcomm] at hphase
    have hwaiting : Waiting s.mem req call := hphase
    change Phase s.mem call (commAfterMeasure req (answer (s.mem.messages req).type measured))
    rcases ha : answer (s.mem.messages req).type measured with err | ⟨replyType, value⟩
    · exact hwaiting
    · refine ⟨hwaiting, ?_⟩
      rw [answer_type ha, hwaiting.request]
      rfl

theorem Answering.fill (h : Answering s) (hinv : Inv s) {req replyType msg data : ℕ} {value : F}
    (hcomm : s.comm = .fill req replyType value msg)
    (hdata : (s.mem.messages msg).data = some data) :
    Answering { s with
      mem := fillReply s.mem req msg data value, comm := .send req msg } := by
  refine h.within (by simp [hcomm]) (by simp) rfl fun call hcall hphase => ⟨call, hcall, ?_⟩
  rw [hcomm] at hphase
  obtain ⟨hwaiting, htype⟩ := hphase
  refine ⟨hwaiting.fill hinv hcomm hdata, ?_⟩
  have hfit : (s.mem.messages msg).type = replyType := by
    simpa only [hcomm, CommFit] using hinv.comm
  rw [fill_replyText hdata, hfit, htype, answerTo, hwaiting.request]
  rfl

theorem Answering.send (h : Answering s) {req msg : ℕ} (hcomm : s.comm = .send req msg) :
    Answering { s with
      outgoing := s.outgoing ++ [msg]
      comm := .drop (.enter (some req))
      calls := List.modifyHead (fun call =>
        { call with sent := replyText s.mem msg :: call.sent }) s.calls } := by
  refine h.within (by simp [hcomm]) (by simp) List.tail_modifyHead fun call hcall hphase => ?_
  rw [hcomm] at hphase
  obtain ⟨hwaiting, hreply⟩ := hphase
  refine ⟨{ call with sent := replyText s.mem msg :: call.sent },
    by rw [List.head?_modifyHead, hcall]; rfl,
    hwaiting.said rfl rfl (Or.inl ⟨?_, hwaiting.errors⟩)⟩
  simp only [hwaiting.sent, hreply]

/-- No call comes to `send_err` without a request that it has wrapped. -/
theorem Answering.sendErr (h : Answering s) {req : Option ℕ} {err : MeteoError}
    (hcomm : s.comm = .sendErr req err) (errors : List ℤ) :
    Answering { s with
      errors := errors
      comm := req.elim .idle fun req => .drop (.enter (some req))
      calls := List.modifyHead (fun call =>
        { call with errors := err :: call.errors }) s.calls } := by
  cases req with
  | none =>
    obtain ⟨call, -, hphase⟩ := h.current (by simp [hcomm])
    rw [hcomm] at hphase
    exact hphase.elim
  | some req =>
    refine h.within (by simp [hcomm]) (by simp) List.tail_modifyHead fun call hcall hphase => ?_
    rw [hcomm] at hphase
    have hwaiting : Waiting s.mem req call := hphase
    refine ⟨{ call with errors := err :: call.errors }, by rw [List.head?_modifyHead, hcall]; rfl,
      hwaiting.said rfl rfl (Or.inr ⟨hwaiting.sent, err, ?_⟩)⟩
    simp only [hwaiting.errors]

theorem Answering.comm [Zero F] (h : Answering s) (hinv : Inv s) (hm : CommMove queues s s') :
    Answering s' := by
  cases hm with
  | rest comm empty same =>
    subst same
    exact h
  | receive comm req rest queued next =>
    subst next
    refine ⟨?_, fun _ => ⟨_, rfl, rfl, rfl, rfl, rfl, rfl⟩⟩
    have hold := h.settled
    unfold finished at hold
    rwa [comm] at hold
  | wrap req comm next =>
    subst next
    refine h.within (by simp [comm]) (by simp) rfl fun call hcall hphase => ⟨call, hcall, ?_⟩
    rwa [comm] at hphase
  | invalid req comm wrong next => exact absurd wrong (hinv.wraps comm)
  | measure req comm measured next =>
    subst next
    exact h.measure comm measured
  | alloc req replyType value pc comm res mem alloc next =>
    subst next
    refine h.within (by simp [comm]) (by cases res <;> simp [commAfterAlloc]) rfl
      fun call hcall hphase => ⟨call, hcall, ?_⟩
    rw [comm] at hphase
    have hwaiting := hphase.1.alloc hinv comm alloc
    cases res with
    | going pc' => exact ⟨hwaiting, hphase.2⟩
    | null => exact hwaiting
    | done msg => exact ⟨hwaiting, hphase.2⟩
  | fill req replyType value msg data comm attached next =>
    subst next
    exact h.fill hinv comm attached
  | unfit req replyType value msg comm wrong next => exact absurd wrong (hinv.fits comm)
  | send req msg comm next =>
    subst next
    exact h.send comm
  | full req msg comm next =>
    subst next
    refine h.within (by simp [comm]) (by simp) rfl fun call hcall hphase => ⟨call, hcall, ?_⟩
    rw [comm] at hphase
    exact hphase.1
  | recover req pc comm res mem free next =>
    subst next
    exact h.recover hinv comm free
  | sendErr req err comm next =>
    subst next
    exact h.sendErr comm _
  | drop pc comm res mem free next =>
    subst next
    exact h.drop hinv comm free

/-- Step lemma. -/
theorem Answering.step [Zero F] (h : Answering s) (hinv : Inv s) {l : Label F}
    (hs : step nullAtEnd fmt queues l s = some s') : Answering s' := by
  have hkept := step_kept hinv hs
  cases l with
  | comm choice measured => exact h.comm hinv (commStep_move queues hs)
  | rx buf choice =>
    obtain ⟨r, -, rfl⟩ := rxStep_move nullAtEnd fmt queues hs
    exact h.of_frame hinv hkept (by simp [workerOf]) rfl rfl
  | tx =>
    refine h.of_frame hinv hkept (by simp [workerOf]) ?_ ?_ <;> cases txStep_move hs <;> simp_all

end Steps

/-! What the history says is done to the queues and to the pool. -/

def replies (s : State F) : List Text := s.calls.flatMap CommCall.sent

def offers (s : State F) : List MeteoError := s.calls.flatMap CommCall.errors

def givens (s : State F) : List ℕ := s.calls.flatMap CommCall.given

/-- A step notes a reply when it appends the block with this reply to the outgoing queue, an
error when it offers the code to the error queue, and a release when the block goes back. -/
structure Noted (queues : Queues) (s s' : State F) : Prop where
  reply : Logged (replyText s'.mem) s.outgoing s'.outgoing (replies s) (replies s')
  error : Offered queues.errors MeteoError.code s.errors s'.errors (offers s) (offers s')
  given : givens s' = givens s ∨
    ∃ msg, givens s' = msg :: givens s ∧ s'.mem.msgPool = msg :: s.mem.msgPool

/-- A release notes nothing but the block that goes back. -/
theorem flatMap_noteFree {α : Type} {entries : CommCall → List α}
    (h : ∀ call given, entries { call with given := given } = entries call) (pc : FreePc)
    (calls : List CommCall) : (noteFree pc calls).flatMap entries = calls.flatMap entries := by
  cases pc with
  | giveMsg msg => exact flatMap_modifyHead_same (fun call => h call _) calls
  | enter msg => rfl
  | giveData msg => rfl

/-- A step that notes nothing. -/
theorem Noted.quiet {queues : Queues} {s s' : State F} (hcalls : s'.calls = s.calls)
    (houtgoing : s'.outgoing = s.outgoing) (herrors : s'.errors = s.errors) :
    Noted queues s s' where
  reply := .same houtgoing (by rw [replies, hcalls, replies])
  error := .same herrors (by rw [offers, hcalls, offers])
  given := Or.inl (by rw [givens, hcalls, givens])

/-- One step of a release. -/
theorem Noted.release {queues : Queues} {s s' : State F} {pc : FreePc} {res : Option FreePc}
    (hbusy : s.calls ≠ []) (hm : FreeMove s.mem s'.mem pc res)
    (hcalls : s'.calls = noteFree pc s.calls) (houtgoing : s'.outgoing = s.outgoing)
    (herrors : s'.errors = s.errors) : Noted queues s s' where
  reply := .same houtgoing (by rw [replies, hcalls, flatMap_noteFree fun _ _ => rfl, replies])
  error := .same herrors (by rw [offers, hcalls, flatMap_noteFree fun _ _ => rfl, offers])
  given := by
    rw [givens, hcalls, givens]
    cases hm with
    | giveMsg msg next =>
      exact Or.inr ⟨msg, flatMap_modifyHead_put (fun _ => rfl) hbusy, by rw [next]⟩
    | null same => exact Or.inl rfl
    | unknown msg type same => exact Or.inl rfl
    | noData msg data same => exact Or.inl rfl
    | enter msg data attached same => exact Or.inl rfl
    | giveData msg next => exact Or.inl rfl

theorem Answering.comm_noted [Zero F] {queues : Queues} {s s' : State F} (h : Answering s)
    (hm : CommMove queues s s') : Noted queues s s' := by
  have hcurrent (hbusy : s.comm ≠ .idle) : s.calls ≠ [] := by
    obtain ⟨call, hcall, -⟩ := h.current hbusy
    rintro hnil
    rw [hnil] at hcall
    cases hcall
  cases hm with
  | rest comm empty same =>
    subst same
    exact .quiet rfl rfl rfl
  | receive comm req rest queued next =>
    subst next
    exact ⟨.same rfl rfl, .same rfl rfl, Or.inl rfl⟩
  | wrap req comm next =>
    subst next
    exact .quiet rfl rfl rfl
  | invalid req comm wrong next =>
    subst next
    exact .quiet rfl rfl rfl
  | measure req comm measured next =>
    subst next
    exact .quiet rfl rfl rfl
  | alloc req replyType value pc comm res mem alloc next =>
    subst next
    exact .quiet rfl rfl rfl
  | fill req replyType value msg data comm attached next =>
    subst next
    exact .quiet rfl rfl rfl
  | unfit req replyType value msg comm wrong next =>
    subst next
    exact .quiet rfl rfl rfl
  | send req msg comm next =>
    have hcalls := hcurrent (by simp [comm])
    subst next
    exact ⟨.put msg rfl (flatMap_modifyHead_put (fun _ => rfl) hcalls),
      .same rfl (flatMap_modifyHead_same (fun _ => by rfl) _),
      Or.inl (flatMap_modifyHead_same (fun _ => by rfl) _)⟩
  | full req msg comm next =>
    subst next
    exact .quiet rfl rfl rfl
  | recover req pc comm res mem free next =>
    have hcalls := hcurrent (by simp [comm])
    subst next
    exact .release hcalls free rfl rfl rfl
  | sendErr req err comm next =>
    have hcalls := hcurrent (by simp [comm])
    subst next
    exact ⟨.same rfl (flatMap_modifyHead_same (fun _ => by rfl) _),
      .put err rfl (flatMap_modifyHead_put (fun _ => rfl) hcalls),
      Or.inl (flatMap_modifyHead_same (fun _ => by rfl) _)⟩
  | drop pc comm res mem free next =>
    have hcalls := hcurrent (by simp [comm])
    subst next
    exact .release hcalls free rfl rfl rfl

/-- Any step of the system. -/
theorem Answering.noted [Zero F] {nullAtEnd : Bool} {fmt : Formatting F} {queues : Queues}
    {s s' : State F} (h : Answering s) {l : Label F}
    (hs : MeteoSystem.step nullAtEnd fmt queues l s = some s') : Noted queues s s' := by
  cases l with
  | comm choice measured => exact h.comm_noted (commStep_move queues hs)
  | rx buf choice =>
    obtain ⟨r, -, rfl⟩ := rxStep_move nullAtEnd fmt queues hs
    exact .quiet rfl rfl rfl
  | tx =>
    have hcalls : s'.calls = s.calls := by cases txStep_move hs <;> simp_all
    have hreplies : replies s' = replies s := by rw [replies, hcalls, replies]
    have hoffers : offers s' = offers s := by rw [offers, hcalls, offers]
    refine ⟨?_, ?_, Or.inl (by rw [givens, hcalls, givens])⟩
    · cases txStep_move hs with
      | receive tx msg rest queued next => exact .taken msg (by rw [queued, next]) hreplies
      | noErrors tx next => exact .same (by rw [next]) hreplies
      | error tx code rest queued next => exact .same (by rw [next]) hreplies
      | rest tx next => exact .same (by rw [next]) hreplies
      | send msg tx next => exact .same (by rw [next]) hreplies
      | free pc tx res mem free next => exact .same (by rw [next]) hreplies
    · cases txStep_move hs with
      | error tx code rest queued next => exact .taken code (by rw [queued, next]) hoffers
      | receive tx msg rest queued next => exact .same (by rw [next]) hoffers
      | noErrors tx next => exact .same (by rw [next]) hoffers
      | rest tx next => exact .same (by rw [next]) hoffers
      | send msg tx next => exact .same (by rw [next]) hoffers
      | free pc tx res mem free next => exact .same (by rw [next]) hoffers

/-- What waits in the outgoing queue are the replies that were sent last. -/
def Waits (s : State F) : Prop := Newest (replyText s.mem) s.outgoing (replies s)

theorem Waits.step [Zero F] {nullAtEnd : Bool} {fmt : Formatting F} {queues : Queues}
    {s s' : State F} (h : Waits s) (hinv : Inv s) (hanswering : Answering s) {l : Label F}
    (hs : MeteoSystem.step nullAtEnd fmt queues l s = some s') : Waits s' :=
  Newest.step h (hanswering.noted hs).reply fun _ hmsg => replyText_congr
    ((step_kept hinv hs).elsewhere hinv.separate (p := .queue .outgoing) hmsg (by simp))

/-! A call ends: each of the worker's own steps brings it closer to the end, and none of
them has to wait. -/

section Runs

variable [Zero F] {nullAtEnd : Bool} {fmt : Formatting F} {queues : Queues} {s s' : State F}

end Runs

def minimalQueues : Queues := ⟨19, 19, 19, by decide, by decide, by decide⟩

end Ratfist.MeteoReplies
