import Ratfist.NetworkMemory
import Ratfist.SpinnerConservation

/-!
The three workers of a spinner station in any order: the receive worker byte by byte, the
spinner's worker and the transmit worker call by call, over one memory. Whatever the order and
the load, the station does what its network of queues does.
-/
namespace Ratfist.Pipeline

open CString CheckedArray Constants Assembler FrameScan FrameRoundTrip Subsystem Routing
  RoutingOutcomes Transmit TransmitQueue SpinnerMessages SpinnerChannel SpinnerPools FieldText
  NumberFields SetPlanParsing RequestParsing SentLine PlanReadBack ReceivedStream RequestRoundTrip
  MessageReading SpinnerWorker TransmitRoom ClientView Conversation Network NetworkMemory Runs

variable {F : Type}

/-! The workers in any order. -/

/-- A character for the receive worker or a call of one of the others; the transmit worker
meets stale bytes on its stack and room in the transmit buffer. -/
inductive Work (b : Board)
  | byte (ch : Byte)
  | serve
  | transmit (call : Vector Byte b.bspMaxMessageLength × ℕ)

def bytesOf {b : Board} (work : List (Work b)) : List Byte :=
  work.filterMap fun | .byte ch => some ch | _ => none

/-- What the work means for the network: a character that completes a message lets the next of
`coming` arrive. -/
def actsOf {b : Board} : Scan → List (Arrival F) → List (Work b) → List (Act F)
  | _, _, [] => []
  | seen, coming, .byte ch :: work =>
    let events := (scanStep b.bspMaxMessageLength seen ch).2
    (coming.take events.length).map .arrive ++
      actsOf (scanStep b.bspMaxMessageLength seen ch).1 (coming.drop events.length) work
  | seen, coming, .serve :: work => .serve :: actsOf seen coming work
  | seen, coming, .transmit call :: work => .transmit call.2 :: actsOf seen coming work

section Workers

variable {b : Board} [Zero F] (libc : Libc F) (text : F → List Byte)
  (stale : (room : ℕ) → Vector Byte room)
  (scribble : Vector Byte b.bspMaxMessageLength → Vector Byte b.bspMaxMessageLength)

def workStep : Work b → Station b F → Option (Station b F)
  | .byte ch, s =>
    (receiveByte libc.nullAtEnd [spinnerConf libc (spinnerSerializers text stale)] scribble ch
      s.rx).map fun rx => { s with rx := rx }
  | .serve, s => do
    let shared ← s.rx.subsystems.toOption
    let served ← spinnerCommLoop s.channels shared.1
    some { s with
      rx := { s.rx with subsystems := .ok (served.2, shared.2) }
      channels := served.1 }
  | .transmit call, s => do
    let shared ← s.rx.subsystems.toOption
    let sent ← transmit [spinnerConf libc (spinnerSerializers text stale)] call
      ⟨shared.1, s.errMailboxes⟩
    some { s with
      rx := { s.rx with subsystems := .ok (sent.1.toWorld, shared.2) }
      errMailboxes := sent.1.errMailboxes
      line := s.line ++ sent.2 }

/-- The station and its network: what has been seen of a message on its way in, the memory, the
channel, and the line, which a client with a buffer of `m` bytes hears. -/
structure Linked (m : ℕ) (L : Limits) (s : Station b F) (seen : Scan) (net : Net F) :
    Prop where
  receiving : Refines s.rx seen
  world : ∃ w made reqs msgs, s.rx.subsystems = .ok (w, made) ∧
    Mirrors libc text stale L w net reqs msgs
  noErrors : (s.errMailboxes 2).items = []
  shown : Shown (channel0 s.channels) net.output
  line : ∃ sent : List (Sent m), s.line = sent.flatMap Sent.bytes ∧
    sent.filterMap Sent.payload? = net.heard

variable {libc text stale} {m : ℕ} {L : Limits} {s : Station b F} {seen : Scan} {net : Net F}

/-- A character. -/
theorem Linked.byte (h : Linked libc text stale m L s seen net) (ch : Byte)
    {coming : List (Arrival F)}
    (hcoming : (scanStep b.bspMaxMessageLength seen ch).2.map
      (readArrival libc b.maxSpinPlanLegs) = coming.map some) :
    ∃ s', workStep libc text stale scribble (.byte ch) s = some s' ∧
      Linked libc text stale m L s' (scanStep b.bspMaxMessageLength seen ch).1
        (coming.foldl (Net.arrive L) net) := by
  obtain ⟨w, made, reqs, msgs, hworld, hmirrors⟩ := h.world
  obtain ⟨rx, hrun, hrefines, hsame⟩ := receiveByte_spec libc.nullAtEnd
    [spinnerConf libc (spinnerSerializers text stale)] scribble h.receiving ch
  obtain ⟨w', calls, reqs', hfold, hmirrors'⟩ :=
    hmirrors.arrivals (by cases b <;> decide) hcoming made
  rw [hworld, hfold] at hsame
  have hkept := Net.arrivals_kept L coming net
  refine ⟨{ s with rx := rx }, by simp only [workStep, hrun, Option.map_some], hrefines,
    ⟨w', calls, reqs', msgs, hsame, hmirrors'⟩, h.noErrors, ?_, ?_⟩
  · rw [hkept.1]
    exact h.shown
  · rw [hkept.2]
    exact h.line

/-- A call of the spinner's worker. -/
theorem Linked.serve (h : Linked libc text stale m L s seen net) :
    (net.serve L text = none ∧ workStep libc text stale scribble .serve s = none) ∨
      ∃ net' s', net.serve L text = some net' ∧
        workStep libc text stale scribble .serve s = some s' ∧
        Linked libc text stale m L s' seen net' := by
  obtain ⟨w, made, reqs, msgs, hworld, hmirrors⟩ := h.world
  have hshared : s.rx.subsystems.toOption = some (w, made) := by
    rw [hworld]
    rfl
  rcases hmirrors.serve (SpinnerHistory.rustPlanLegs_le b) h.shown with ⟨hnet, hloop⟩ |
    ⟨net', channels, w', reqs', msgs', hnet, hloop, hshown, hmirrors'⟩
  · refine Or.inl ⟨hnet, ?_⟩
    simp only [workStep, hshared, hloop, Option.bind_eq_bind, Option.bind_some, Option.bind_none]
  · refine Or.inr ⟨net', { s with
      rx := { s.rx with subsystems := .ok (w', made) }
      channels := channels }, hnet, ?_, h.receiving, ⟨w', made, reqs', msgs', rfl, hmirrors'⟩,
      h.noErrors, hshown, ?_⟩
    · simp only [workStep, hshared, hloop, Option.bind_eq_bind, Option.bind_some]
    · rw [Net.serve_heard hnet]
      exact h.line

/-- A call of the transmit worker. -/
theorem Linked.transmit (hm : b.bspMaxMessageLength ≤ m) (hframe : L.frame = b.bspMaxMessageLength)
    (htext : ∀ x, Clean (text x)) (h : Linked libc text stale m L s seen net)
    (call : Vector Byte b.bspMaxMessageLength × ℕ) :
    ∃ s', workStep libc text stale scribble (.transmit call) s = some s' ∧
      Linked libc text stale m L s' seen (net.transmit L call.2) := by
  obtain ⟨w, made, reqs, msgs, hworld, hmirrors⟩ := h.world
  have hshared : s.rx.subsystems.toOption = some (w, made) := by
    rw [hworld]
    rfl
  obtain ⟨sent, hbytes, hheard⟩ := h.line
  obtain ⟨w', msgs', line, hcall, hmirrors', sent', hbytes', hheard'⟩ :=
    hmirrors.transmit (by cases b <;> decide) hm hframe htext call h.noErrors
  refine ⟨{ s with
    rx := { s.rx with subsystems := .ok (w', made) }
    line := s.line ++ line }, ?_, h.receiving, ⟨w', made, reqs, msgs', rfl, hmirrors'⟩,
    h.noErrors, ?_, sent ++ sent', ?_, ?_⟩
  · simp only [workStep, hshared, hcall, Option.bind_eq_bind, Option.bind_some]
  · rw [Net.transmit_output]
    exact h.shown
  · rw [hbytes, hbytes', List.flatMap_append]
  · rw [List.filterMap_append, hheard, hheard']

omit [Zero F] in
theorem scan_cons (n : ℕ) (seen : Scan) (ch : Byte) (bytes : List Byte) :
    scan n seen (ch :: bytes) = ((scan n (scanStep n seen ch).1 bytes).1,
      (scanStep n seen ch).2 ++ (scan n (scanStep n seen ch).1 bytes).2) := rfl

/-- Run lemma. -/
theorem Linked.run (hm : b.bspMaxMessageLength ≤ m) (hframe : L.frame = b.bspMaxMessageLength)
    (htext : ∀ x, Clean (text x)) {work : List (Work b)} {coming : List (Arrival F)}
    (hcoming : (scan b.bspMaxMessageLength seen (bytesOf work)).2.map
      (readArrival libc b.maxSpinPlanLegs) = coming.map some)
    (h : Linked libc text stale m L s seen net) :
    (runs (Net.step L text) (actsOf seen coming work) net = none ∧
        runs (workStep libc text stale scribble) work s = none) ∨
      ∃ net' s', runs (Net.step L text) (actsOf seen coming work) net = some net' ∧
        runs (workStep libc text stale scribble) work s = some s' ∧
        Linked libc text stale m L s' (scan b.bspMaxMessageLength seen (bytesOf work)).1 net' := by
  induction work generalizing s seen net coming with
  | nil => exact Or.inr ⟨net, s, rfl, rfl, h⟩
  | cons one work ih =>
    cases one with
    | byte ch =>
      rw [show bytesOf (.byte ch :: work) = ch :: bytesOf work from rfl, scan_cons] at hcoming ⊢
      obtain ⟨events, hevents⟩ : ∃ events,
          (scanStep b.bspMaxMessageLength seen ch).2 = events := ⟨_, rfl⟩
      rw [hevents] at hcoming
      have hnow := congrArg (List.take events.length) hcoming
      have hlater := congrArg (List.drop events.length) hcoming
      rw [← List.map_take, ← List.map_take, List.take_left] at hnow
      rw [← List.map_drop, ← List.map_drop, List.drop_left] at hlater
      obtain ⟨s₁, hstep, h₁⟩ := h.byte scribble ch (by rw [hevents]; exact hnow)
      rw [runs, hstep, Option.bind_some, actsOf, hevents, Net.runs_arrivals]
      exact ih hlater h₁
    | serve =>
      rw [show bytesOf (.serve :: work) = bytesOf work from rfl] at hcoming ⊢
      rw [actsOf, runs, runs, Net.step]
      rcases h.serve scribble with ⟨hnet, hstep⟩ | ⟨net₁, s₁, hnet, hstep, h₁⟩
      · exact Or.inl ⟨by rw [hnet, Option.bind_none], by rw [hstep, Option.bind_none]⟩
      · rw [hnet, hstep, Option.bind_some, Option.bind_some]
        exact ih hcoming h₁
    | transmit call =>
      rw [show bytesOf (.transmit call :: work) = bytesOf work from rfl] at hcoming ⊢
      obtain ⟨s₁, hstep, h₁⟩ := h.transmit scribble hm hframe htext call
      rw [actsOf, runs, runs, Net.step, hstep, Option.bind_some, Option.bind_some]
      exact ih hcoming h₁

/-- Any load, in any order of the calls, heard by the receive worker of another board, and any
characters but messages without fields and plans of the maximal length: the station does what its
network of queues does, and panics only where the network has no next state. -/
theorem network_refined (b b' : Board) (hb : b.bspMaxMessageLength ≤ b'.bspMaxMessageLength)
    (libc : Libc F) {text : F → List Byte} (htext : ∀ x, Clean (text x))
    (stale : (room : ℕ) → Vector Byte room)
    (scribble : Vector Byte b.bspMaxMessageLength → Vector Byte b.bspMaxMessageLength)
    {L : Limits} (hframe : L.frame = b.bspMaxMessageLength) {work : List (Work b)}
    {coming : List (Arrival F)} {s : Station b F} {seen : Scan} {net : Net F}
    (hcoming : (scan b.bspMaxMessageLength seen (bytesOf work)).2.map
      (readArrival libc b.maxSpinPlanLegs) = coming.map some)
    (h : Linked libc text stale b'.bspMaxMessageLength L s seen net) {ρ : Type}
    (process : Vector Byte b'.bspMaxMessageLength → ρ → Vector Byte b'.bspMaxMessageLength × ρ)
    {client : RxWorkerContext b'.bspMaxMessageLength ρ} {listening : Scan}
    (hclient : Refines client listening) :
    (runs (Net.step L text) (actsOf seen coming work) net = none ∧
        runs (workStep libc text stale scribble) work s = none) ∨
      ∃ net' s' client', runs (Net.step L text) (actsOf seen coming work) net = some net' ∧
        runs (workStep libc text stale scribble) work s = some s' ∧
        Linked libc text stale b'.bspMaxMessageLength L s'
          (scan b.bspMaxMessageLength seen (bytesOf work)).1 net' ∧
        feed process client s'.line =
          some (client', net'.heard.map fun text => .delivered (text ++ [0])) := by
  rcases h.run scribble hb hframe htext hcoming with hnone | ⟨net', s', hnet, hrun, h'⟩
  · exact Or.inl hnone
  · obtain ⟨sent, hbytes, hheard⟩ := h'.line
    obtain ⟨client', hfeed, -⟩ := feed_refines process client listening hclient s'.line
    refine Or.inr ⟨net', s', client', hnet, hrun, h', ?_⟩
    rw [hfeed, hbytes, scan_sent, hheard]

/-! Requests only, and the client waits for replies. -/

omit [Zero F] in
theorem actsOf_append (seen : Scan) (coming : List (Arrival F)) (work more : List (Work b)) :
    actsOf seen coming (work ++ more) = actsOf seen coming work ++
      actsOf (scan b.bspMaxMessageLength seen (bytesOf work)).1
        (coming.drop (scan b.bspMaxMessageLength seen (bytesOf work)).2.length) more := by
  induction work generalizing seen coming with
  | nil => rfl
  | cons one work ih =>
    cases one with
    | byte ch =>
      rw [List.cons_append, actsOf, actsOf, ih, List.append_assoc,
        show bytesOf (.byte ch :: work) = ch :: bytesOf work from rfl, scan_cons, List.drop_drop,
        List.length_append]
    | serve => exact congrArg (Act.serve :: ·) (ih seen coming)
    | transmit call => exact congrArg (Act.transmit call.2 :: ·) (ih seen coming)

def silence (k : ℕ) (calls : List (Vector Byte b.bspMaxMessageLength × ℕ)) : List (Work b) :=
  List.replicate k .serve ++ calls.map .transmit

omit [Zero F] in
theorem actsOf_silence (seen : Scan) (coming : List (Arrival F)) (k : ℕ)
    (calls : List (Vector Byte b.bspMaxMessageLength × ℕ)) :
    actsOf seen coming (silence k calls) =
      List.replicate k .serve ++ (calls.map Prod.snd).map .transmit := by
  have hcalls : actsOf seen coming (calls.map .transmit : List (Work b)) =
      (calls.map Prod.snd).map .transmit := by
    induction calls with
    | nil => rfl
    | cons call calls ih => exact congrArg (Act.transmit call.2 :: ·) ih
  induction k with
  | zero => exact hcalls
  | succ k ih => exact congrArg (Act.serve :: ·) ih

theorem bytesOf_silence (work : List (Work b)) (k : ℕ)
    (calls : List (Vector Byte b.bspMaxMessageLength × ℕ)) :
    bytesOf (work ++ silence k calls) = bytesOf work := by
  have hnone : bytesOf (silence k calls) = [] := by
    refine List.filterMap_eq_nil_iff.mpr fun one hone => ?_
    rcases List.mem_append.mp hone with hone | hone
    · rw [List.eq_of_mem_replicate hone]
    · obtain ⟨call, -, rfl⟩ := List.mem_map.mp hone
      rfl
  rw [bytesOf, List.filterMap_append]
  exact (congrArg (bytesOf work ++ ·) hnone).trans (List.append_nil _)

omit [Zero F] in
theorem requestsOf_arrivals (requests : List (TaggedRequest F)) :
    requestsOf ((requests.map Arrival.request).map .arrive) = requests := by
  induction requests with
  | nil => rfl
  | cons req requests ih => exact congrArg (req :: ·) ih

omit [Zero F] in
/-- The requests arrive in order. -/
theorem requestsOf_actsOf {seen : Scan} {requests : List (TaggedRequest F)}
    {work : List (Work b)}
    (h : (scan b.bspMaxMessageLength seen (bytesOf work)).2.length = requests.length) :
    requestsOf (actsOf seen (requests.map .request) work) = requests := by
  induction work generalizing seen requests with
  | nil =>
    rw [List.eq_nil_of_length_eq_zero h.symm]
    rfl
  | cons one work ih =>
    cases one with
    | byte ch =>
      rw [show bytesOf (.byte ch :: work) = ch :: bytesOf work from rfl, scan_cons,
        List.length_append] at h
      obtain ⟨count, hcount⟩ : ∃ count,
          (scanStep b.bspMaxMessageLength seen ch).2.length = count := ⟨_, rfl⟩
      rw [hcount] at h
      rw [actsOf, hcount, ← List.map_take, ← List.map_drop, requestsOf, List.filterMap_append]
      change requestsOf _ ++ requestsOf _ = requests
      rw [requestsOf_arrivals, ih (by rw [List.length_drop]; omega), List.take_append_drop]
    | serve => exact ih h
    | transmit call => exact ih h

/-- A client that keeps at most `k` requests without a reply, and then is silent. However the
calls of the workers come, each request has its reply, in order, in full or as the error that it
has come to, and all blocks are back. Only where the client's view has no answer does the program
not get to the end. -/
theorem requests_answered (b b' : Board) (hb : b.bspMaxMessageLength ≤ b'.bspMaxMessageLength)
    (libc : Libc F) {text : F → List Byte} (htext : ∀ x, Clean (text x))
    (stale : (room : ℕ) → Vector Byte room)
    (scribble : Vector Byte b.bspMaxMessageLength → Vector Byte b.bspMaxMessageLength)
    {L : Limits} (hframe : L.frame = b.bspMaxMessageLength) {k : ℕ} (hk : Network.Serves L k)
    {requests : List (TaggedRequest F)} {work : List (Work b)} {s : Station b F} {seen : Scan}
    {o : Output F}
    (hline : (scan b.bspMaxMessageLength seen (bytesOf work)).2.map
      (readArrival libc b.maxSpinPlanLegs) = (requests.map .request).map some)
    (h : Linked libc text stale b'.bspMaxMessageLength L s seen ⟨[], o, [], [], []⟩)
    (hpatient : Patient L text k [] (actsOf seen (requests.map .request) work)
      ⟨[], o, [], [], []⟩)
    {calls : List (Vector Byte b.bspMaxMessageLength × ℕ)} (hcalls : 2 * k ≤ calls.length)
    {ρ : Type}
    (process : Vector Byte b'.bspMaxMessageLength → ρ → Vector Byte b'.bspMaxMessageLength × ρ)
    {client : RxWorkerContext b'.bspMaxMessageLength ρ} {listening : Scan}
    (hclient : Refines client listening) :
    (answers text requests o = none ∧
        runs (workStep libc text stale scribble) (work ++ silence k calls) s = none) ∨
      ∃ o' replies heard s' client', answers text requests o = some (o', replies) ∧
        runs (workStep libc text stale scribble) (work ++ silence k calls) s = some s' ∧
        Linked libc text stale b'.bspMaxMessageLength L s'
          (scan b.bspMaxMessageLength seen (bytesOf work)).1 ⟨[], o', [], [], heard⟩ ∧
        List.Forall₂ (Comes b.bspMaxMessageLength) replies heard ∧
        feed process client s'.line =
          some (client', heard.map fun text => .delivered (text ++ [0])) := by
  have hcount : (scan b.bspMaxMessageLength seen (bytesOf work)).2.length = requests.length := by
    simpa using congrArg List.length hline
  rw [← bytesOf_silence work k calls] at hline
  have hacts : actsOf seen (requests.map .request) (work ++ silence k calls) =
      actsOf seen (requests.map .request) work ++
        (List.replicate k .serve ++ (calls.map Prod.snd).map .transmit) := by
    rw [actsOf_append, actsOf_silence]
  have hrefined := network_refined b b' hb libc htext stale scribble hframe hline h process
    hclient
  rw [hacts, bytesOf_silence] at hrefined
  rcases all_answered hk hpatient
    (show 2 * k ≤ (calls.map Prod.snd).length by rw [List.length_map]; exact hcalls) rfl with
    ⟨hanswers, hnone⟩ | ⟨t, replies, hrun, hanswers, hcomes, hwaiting, hreplies, herrors⟩
  · rw [requestsOf_actsOf hcount] at hanswers
    rcases hrefined with ⟨-, hfails⟩ | ⟨net', s', client', hnet, -⟩
    · exact Or.inl ⟨hanswers, hfails⟩
    · rw [hnone] at hnet
      cases hnet
  · rw [requestsOf_actsOf hcount] at hanswers
    rcases hrefined with ⟨hfails, -⟩ | ⟨net', s', client', hnet, hstation, hlinked, hfeed⟩
    · rw [hrun] at hfails
      cases hfails
    · rw [hrun] at hnet
      cases hnet
      obtain ⟨waiting, output, unsent, errors, heard⟩ := t
      simp only at hwaiting hreplies herrors
      subst hwaiting hreplies herrors
      rw [hframe] at hcomes
      exact Or.inr ⟨output, replies, heard, s', client', hanswers, hstation, hlinked, hcomes,
        hfeed⟩

/-- The compile-time settings, with the queues as they have been created. -/
def limits (b : Board) (queues : SpinnerSystem.Queues b) (errors : ℕ) : Limits where
  msgs := b.msgStructPoolSize
  data
    | .plans => b.spinPlanDataMsgPoolSize
    | .smalls => b.smallSizedMsgPoolSize
  incoming := queues.incoming
  errors := errors
  frame := b.bspMaxMessageLength

/-- After `spinner_init` and `dispatcher_init`, with memory in which no reply is too long. -/
theorem linked_initial (b : Board) (queues : SpinnerSystem.Queues b) (errors m : ℕ)
    (libc : Libc F) (text : F → List Byte) (stale : (room : ℕ) → Vector Byte room)
    (buf : Vector Byte b.bspMaxMessageLength) (messages : ℕ → Message DataPtr)
    (plans : ℕ → SpinPlanData b.maxSpinPlanLegs F) (smalls : ℕ → SmallSizeMsgData F)
    {w : World (Memory b.maxSpinPlanLegs F) ℕ DataPtr}
    (henv : w.env = (SpinnerSystem.initial b messages plans smalls).mem)
    (hgood : GoodPayloads w.env) (hincoming : w.mailboxes 0 = ⟨queues.incoming, []⟩)
    (houtgoing : w.mailboxes 1 = ⟨queues.outgoing, []⟩) (herrors : w.errMsgQueue = ⟨errors, []⟩)
    {errMailboxes : ℕ → Mailbox ℤ} (hnone : (errMailboxes 2).items = []) :
    Linked libc text stale m (limits b queues errors)
      ⟨dispatcherInit buf (.ok (w, [])), initialChannels, errMailboxes, []⟩ none
      ⟨[], ⟨.stopped, []⟩, [], [], []⟩ := by
  have hinj (pool : DataPool) : Function.Injective (DataPtr.mk pool) :=
    fun i j h => by cases h; rfl
  have hslots : (limits b queues errors).msgs ≤ queues.outgoing + 1 := by
    have hslots := queues.outgoing_slots
    change b.msgStructPoolSize ≤ queues.outgoing + 1
    cases b <;> simp only [Board.maxOutboundMessages, Board.msgStructPoolSize] at hslots ⊢ <;> omega
  refine ⟨refines_init (by cases b <;> decide) buf _, ⟨w, [], [], [], rfl, ⟨hgood, hincoming, ?_,
    herrors, .nil, by simp, .nil⟩, ?_⟩, hnone, shown_initial, [], rfl, rfl⟩
  · rw [houtgoing]
    exact ⟨rfl, hslots⟩
  refine ⟨?_, ?_, ?_, by simp, ?_, ?_⟩
  · rw [henv]
    simpa [SpinnerSystem.initial] using List.nodup_range
  · rw [henv]
    refine List.nodup_append'.mpr ⟨List.nodup_range.map (hinj _), ?_, ?_⟩
    · simpa [SpinnerSystem.initial, held] using List.nodup_range.map (hinj .smalls)
    · intro d hplans hsmalls
      simp only [SpinnerSystem.initial, held, List.map_nil, List.append_nil, List.mem_map]
        at hplans hsmalls
      obtain ⟨i, -, rfl⟩ := hplans
      obtain ⟨j, -, hj⟩ := hsmalls
      cases hj
  · intro pool d hd
    rw [henv] at hd
    cases pool <;> obtain ⟨i, -, rfl⟩ := List.mem_map.mp hd <;> rfl
  · rw [henv]
    simp [SpinnerSystem.initial, limits]
  · intro pool
    rw [henv]
    cases pool <;> simp [SpinnerSystem.initial, limits]

end Workers

section Client

abbrev clientLimits : Limits := limits .stm32f072discovery SpinnerConservation.minimalQueues 9

def clientBytes (sent : List (Sent Board.stm32f072discovery.bspMaxMessageLength)) :
    List (Work .stm32f072discovery) :=
  (sent.flatMap Sent.bytes).map .byte

def clientCall (room : ℕ) : Vector Byte Board.stm32f072discovery.bspMaxMessageLength × ℕ :=
  (Vector.replicate _ 0, room)

/-- The requests of `clientLine` at once, and two messages more. -/
def clientBurst : List (Work .stm32f072discovery) :=
  clientBytes clientLine ++ (frame (ascii "5,SPINNER,GET_PLAN,300")).map .byte ++
    (frame (ascii "6,NOBODY,GET_PLAN,0")).map .byte ++ [.serve, .serve, .transmit (clientCall 250),
      .transmit (clientCall 250), .transmit (clientCall 10), .serve, .transmit (clientCall 250),
      .transmit (clientCall 250)]

def clientComing : List (Arrival ℕ) :=
  clientRequests.map .request ++ [.malformed .smalls, .refused unknownSubsystemError]

theorem clientBurst_line :
    (scan Board.stm32f072discovery.bspMaxMessageLength none (bytesOf clientBurst)).2.map
      (readArrival wholeNumbers Board.stm32f072discovery.maxSpinPlanLegs) =
        clientComing.map some := by
  have hscan : (scan Board.stm32f072discovery.bspMaxMessageLength none (bytesOf clientBurst)).2 =
      (clientRequests.map fun r => .delivered (r.2.payload decimal r.1 ++ [0])) ++
        [.delivered (ascii "5,SPINNER,GET_PLAN,300" ++ [0]),
          .delivered (ascii "6,NOBODY,GET_PLAN,0" ++ [0])] := by
    decide +kernel
  rw [hscan, List.map_append, clientComing, List.map_append, List.map_map, List.map_map]
  refine congrArg₂ (· ++ ·) (List.map_congr_left fun r hr => ?_) ?_
  · obtain ⟨hreq, htid⟩ := clientRequests_writable .stm32f072discovery r hr
    exact readArrival_payload hreq htid
  · rfl

example : (runs (Net.step clientLimits decimal) (actsOf none clientComing clientBurst)
    ⟨[], ⟨.stopped, []⟩, [], [], []⟩).map Net.heard =
      some [ascii "DISPATCHER,ERROR,-2", ascii "DISPATCHER,ERROR,-6",
        ascii "DISPATCHER,ERROR,-9", ascii "8,SPINNER,RET_VAL,0"] := by
  decide +kernel

/-- The first two requests one by one; nothing is to be done for the last calls. -/
def clientWork : List (Work .stm32f072discovery) :=
  clientBytes (clientLine.take 2) ++
    [.transmit (clientCall 250), .serve, .transmit (clientCall 250)] ++
    clientBytes ((clientLine.drop 2).take 1) ++ [.serve, .serve, .transmit (clientCall 10)]

theorem clientWork_line :
    (scan Board.stm32f072discovery.bspMaxMessageLength none (bytesOf clientWork)).2.map
      (readArrival wholeNumbers Board.stm32f072discovery.maxSpinPlanLegs) =
        ((clientRequests.take 2).map .request).map some := by
  rw [show bytesOf clientWork = (clientLine.take 3).flatMap Sent.bytes by decide +kernel,
    scan_sent]
  change ((clientRequests.take 2).map fun r => RxEvent.delivered
    (r.2.payload decimal r.1 ++ [0])).map _ = _
  rw [List.map_map, List.map_map]
  refine List.map_congr_left fun r hr => ?_
  obtain ⟨hreq, htid⟩ :=
    clientRequests_writable .stm32f072discovery r (List.mem_of_mem_take hr)
  exact readArrival_payload hreq htid

theorem clientWork_patient : Patient clientLimits decimal 1 []
    (actsOf none ((clientRequests.take 2).map .request) clientWork)
      ⟨[], ⟨.stopped, []⟩, [], [], []⟩ := by
  decide +kernel

theorem clientLimits_serve : Network.Serves clientLimits 1 := by
  refine ⟨by decide, ?_, by decide, by decide, by decide⟩
  intro pool
  cases pool <;> decide

def clientStation : Station .stm32f072discovery ℕ :=
  ⟨dispatcherInit (Vector.replicate _ 0) (.ok (startWorld, [])), initialChannels,
    fun _ => ⟨9, []⟩, []⟩

theorem clientStation_linked : Linked wholeNumbers decimal PlanReadBack.zeros
    Board.stm32f411discovery.bspMaxMessageLength clientLimits clientStation none
    ⟨[], ⟨.stopped, []⟩, [], [], []⟩ :=
  linked_initial .stm32f072discovery SpinnerConservation.minimalQueues 9 _ _ _ _ _ _ _ _ rfl
    ⟨fun _ => show (0 : UInt32).toNat ≤ 20 by decide,
      fun _ => show (0 : UInt32).toNat < Serializers.spinStateLut.length by decide⟩
    rfl rfl rfl rfl

theorem client_network :
    (runs (Net.step clientLimits decimal)
        (actsOf none clientComing clientBurst)
        ⟨[], ⟨.stopped, []⟩, [], [], []⟩ = none ∧
      runs (workStep wholeNumbers decimal PlanReadBack.zeros id) clientBurst clientStation =
        none) ∨
    ∃ net' s' client', runs (Net.step clientLimits decimal)
        (actsOf none clientComing clientBurst)
        ⟨[], ⟨.stopped, []⟩, [], [], []⟩ = some net' ∧
      runs (workStep wholeNumbers decimal PlanReadBack.zeros id) clientBurst clientStation =
        some s' ∧
      Linked wholeNumbers decimal PlanReadBack.zeros
        Board.stm32f411discovery.bspMaxMessageLength clientLimits s'
        (scan Board.stm32f072discovery.bspMaxMessageLength none (bytesOf clientBurst)).1 net' ∧
      feed (fun buf (u : Unit) => (buf, u))
        (dispatcherInit (Vector.replicate Board.stm32f411discovery.bspMaxMessageLength 0) ())
        s'.line = some (client', net'.heard.map fun text => .delivered (text ++ [0])) :=
  network_refined .stm32f072discovery .stm32f411discovery (by decide) wholeNumbers clean_decimal
    PlanReadBack.zeros id rfl clientBurst_line clientStation_linked _
    (refines_init (by decide) _ ())

theorem client_answered :
    (answers decimal (clientRequests.take 2) ⟨.stopped, []⟩ = none ∧
      runs (workStep wholeNumbers decimal PlanReadBack.zeros id)
        (clientWork ++ silence 1 [clientCall 250, clientCall 250]) clientStation = none) ∨
    ∃ o' replies heard s' client',
      answers decimal (clientRequests.take 2) ⟨.stopped, []⟩ = some (o', replies) ∧
      runs (workStep wholeNumbers decimal PlanReadBack.zeros id)
        (clientWork ++ silence 1 [clientCall 250, clientCall 250]) clientStation = some s' ∧
      Linked wholeNumbers decimal PlanReadBack.zeros
        Board.stm32f411discovery.bspMaxMessageLength clientLimits s'
        (scan Board.stm32f072discovery.bspMaxMessageLength none (bytesOf clientWork)).1
        ⟨[], o', [], [], heard⟩ ∧
      List.Forall₂ (Comes Board.stm32f072discovery.bspMaxMessageLength) replies heard ∧
      feed (fun buf (u : Unit) => (buf, u))
        (dispatcherInit (Vector.replicate Board.stm32f411discovery.bspMaxMessageLength 0) ())
        s'.line = some (client', heard.map fun text => .delivered (text ++ [0])) :=
  requests_answered .stm32f072discovery .stm32f411discovery (by decide) wholeNumbers clean_decimal
    PlanReadBack.zeros id rfl clientLimits_serve
    clientWork_line clientStation_linked clientWork_patient
    (show 2 * 1 ≤ [clientCall 250, clientCall 250].length by decide) _
    (refines_init (by decide) _ ())

end Client

end Ratfist.Pipeline
