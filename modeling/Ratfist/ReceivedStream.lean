import Ratfist.FrameRoundTrip
import Ratfist.RoutingOutcomes
import Ratfist.Runs

/-!
The receive worker with the rest of the system behind it. Over a whole byte stream it does
what `process_incoming_message` does on the messages that the scanner finds, one after the
other; every message found is appended to one queue or answered by one error.
-/
namespace Ratfist.ReceivedStream

open CString CheckedArray Constants Assembler FrameScan Subsystem Routing RoutingOutcomes Runs

variable {n : ℕ} {σ μ δ : Type} [DecidableEq μ] (nullAtEnd : Bool)
  (subsystems : List (SubsystemMessageConf σ μ δ))

/-- `process_incoming_message` on what a buffer holds, unless a call before it has failed; the
calls made are kept as a history. -/
def route (msg : List Byte) : Result σ μ δ → Result σ μ δ
  | .error failed => .error failed
  | .ok (w, calls) =>
    match processIncomingMessage nullAtEnd subsystems msg w with
    | .error (fault, made) => .error (fault, calls ++ made)
    | .ok (w, made) => .ok (w, calls ++ made)

/-- `schedule_err_message` by the assembler itself. -/
def report (code : ℤ) : Result σ μ δ → Result σ μ δ
  | .error failed => .error failed
  | .ok (w, calls) => .ok (w.scheduleErrMessage code, calls ++ [.scheduled code])

def outcome (r : Result σ μ δ) : RxEvent → Result σ μ δ
  | .delivered msg => route nullAtEnd subsystems msg r
  | .scheduled code => report code r

def ownErrors (events : List RxEvent) : List ℤ :=
  events.filterMap fun | .scheduled code => some code | .delivered _ => none

def reportAll (codes : List ℤ) (r : Result σ μ δ) : Result σ μ δ :=
  codes.foldl (fun r code => report code r) r

/-- `scribble` is what `strtok_r` leaves in the buffer. -/
def processBuffer (scribble : Vector Byte n → Vector Byte n) (buf : Vector Byte n)
    (r : Result σ μ δ) : Vector Byte n × Result σ μ δ :=
  (scribble buf, route nullAtEnd subsystems buf.toList r)

/-- One call of `assemble_incoming_message` on a character. -/
def receiveByte (scribble : Vector Byte n → Vector Byte n) (ch : Byte)
    (ctx : RxWorkerContext n (Result σ μ δ)) : Option (RxWorkerContext n (Result σ μ δ)) := do
  let (ctx, events) ←
    assembleIncomingMessage (processBuffer nullAtEnd subsystems scribble) ctx (some ch)
  some { ctx with subsystems := reportAll (ownErrors events) ctx.subsystems }

omit [DecidableEq μ] in
theorem lookup_cstr (buf : List Byte) :
    lookup nullAtEnd subsystems (cstr buf) = lookup nullAtEnd subsystems buf := by
  have htok : strtokR nullAtEnd comma (some (cstr buf)) = strtokR nullAtEnd comma (some buf) := by
    simp only [strtokR, cstr_cstr]
  simp only [lookup, htok]

/-- The bytes behind the first NUL of the buffer do not count. -/
theorem route_cstr {buf buf' : List Byte} (h : cstr buf = cstr buf') (r : Result σ μ δ) :
    route nullAtEnd subsystems buf r = route nullAtEnd subsystems buf' r := by
  cases r with
  | error failed => rfl
  | ok done =>
    simp only [route, processIncomingMessage, ← lookup_cstr nullAtEnd subsystems buf, h,
      lookup_cstr]

theorem cstr_take_of_nul {l : List Byte} {i : ℕ} (h : l[i]? = some 0) :
    cstr (l.take (i + 1)) = cstr l := by
  obtain ⟨hi, hget⟩ := List.getElem?_eq_some_iff.mp h
  have hsplit : l = l.take i ++ 0 :: l.drop (i + 1) := by
    rw [← hget, List.getElem_cons_drop, List.take_append_drop]
  have htake : l.take (i + 1) = l.take i ++ 0 :: [] := by
    rw [List.take_succ_eq_append_getElem hi, hget]
  rw [htake, cstr, cstr, takeWhile_append_stop _ _ _ _ (by decide)]
  conv_rhs => rw [hsplit, takeWhile_append_stop _ _ _ _ (by decide)]

section Effect

variable {process : Vector Byte n → σ → Vector Byte n × σ} {ctx ctx' : RxWorkerContext n σ}
  {events : List RxEvent}

/-- What a step means for the rest of the system: nothing, or a message that ends in a NUL
of the buffer has been processed. -/
inductive Effect (process : Vector Byte n → σ → Vector Byte n × σ) (before after : σ) :
    List RxEvent → Prop
  | none (same : after = before) (codes : List ℤ) :
      Effect process before after (codes.map .scheduled)
  | processed (buf : Vector Byte n) (i : ℕ) (nul : buf.toList[i]? = some 0)
      (done : after = (process buf before).2) :
      Effect process before after [.delivered (buf.toList.take (i + 1))]

theorem finishMessage_effect {len : ℕ} (hpos : ctx.posInBuf = 0) (hn : 0 < n)
    (h : finishMessage process ctx len = some (ctx', events)) :
    Effect process ctx.subsystems ctx'.subsystems events := by
  unfold finishMessage at h
  obtain ⟨i, -, h⟩ := Option.bind_eq_some_iff.mp h
  obtain ⟨c, -, h⟩ := Option.bind_eq_some_iff.mp h
  split_ifs at h
  · cases h
    exact .none rfl [rxChecksumError]
  obtain ⟨j, -, h⟩ := Option.bind_eq_some_iff.mp h
  obtain ⟨buf, -, h⟩ := Option.bind_eq_some_iff.mp h
  obtain ⟨ok, -, h⟩ := Option.bind_eq_some_iff.mp h
  cases ok with
  | false =>
    cases h
    exact .none rfl [rxChecksumError]
  | true =>
    simp only [if_true] at h
    obtain ⟨k, hk, h⟩ := Option.bind_eq_some_iff.mp h
    obtain ⟨buf', hwrite, h⟩ := Option.bind_eq_some_iff.mp h
    obtain ⟨end', hend, h⟩ := Option.bind_eq_some_iff.mp h
    have hroom : ¬ n ≤ 0 := by omega
    simp only [checkOverflow, hpos, if_neg hroom] at h
    cases h
    have hend' : end' = k + 1 := by
      unfold sub at hk hend
      split_ifs at hk hend with hle hle'
      cases hk
      cases hend
      omega
    subst hend'
    refine .processed buf' k ?_ rfl
    unfold write at hwrite
    split_ifs at hwrite with hlt
    cases hwrite
    simp [Vector.toList_set, hlt]

theorem assembleIncomingMessage_effect {ch : Byte} (hn : 0 < n)
    (h : assembleIncomingMessage process ctx (some ch) = some (ctx', events)) :
    Effect process ctx.subsystems ctx'.subsystems events := by
  simp only [assembleIncomingMessage] at h
  split_ifs at h
  · cases h
    exact .none rfl []
  · cases h
    exact .none rfl []
  obtain ⟨buf, -, h⟩ := Option.bind_eq_some_iff.mp h
  obtain ⟨complete, -, h⟩ := Option.bind_eq_some_iff.mp h
  cases complete with
  | true =>
    rw [if_pos rfl] at h
    have heffect := fun hpos => finishMessage_effect hpos hn h
    exact heffect rfl
  | false =>
    simp only [Bool.false_eq_true, if_false, checkOverflow] at h
    split_ifs at h
    · cases h
      exact .none rfl [messageTooLongError]
    · cases h
      exact .none rfl []

end Effect

theorem outcome_codes (codes : List ℤ) (r : Result σ μ δ) :
    (codes.map RxEvent.scheduled).foldl (outcome nullAtEnd subsystems) r = reportAll codes r := by
  rw [List.foldl_map]
  rfl

theorem ownErrors_codes (codes : List ℤ) : ownErrors (codes.map .scheduled) = codes := by
  induction codes with
  | nil => rfl
  | cons code codes ih => exact congrArg (code :: ·) ih

/-- Step lemma: one call of the worker is one step of the scanner, with what its events mean. -/
theorem receiveByte_spec (scribble : Vector Byte n → Vector Byte n)
    {ctx : RxWorkerContext n (Result σ μ δ)} {s : Scan} (h : Refines ctx s) (ch : Byte) :
    ∃ ctx', receiveByte nullAtEnd subsystems scribble ch ctx = some ctx' ∧
      Refines ctx' (scanStep n s ch).1 ∧
      ctx'.subsystems =
        (scanStep n s ch).2.foldl (outcome nullAtEnd subsystems) ctx.subsystems := by
  have hn : 0 < n := Nat.lt_of_le_of_lt (Nat.zero_le _) h.posInBuf_lt
  obtain ⟨ctx', hstep, href⟩ :=
    step_refines (processBuffer nullAtEnd subsystems scribble) ctx s h ch
  have heffect := assembleIncomingMessage_effect hn hstep
  refine ⟨_, by simp only [receiveByte, hstep, Option.bind_eq_bind, Option.bind_some]; rfl, ?_, ?_⟩
  · cases hs : (scanStep n s ch).1 with
    | none =>
      rw [hs] at href
      exact href
    | some seg =>
      rw [hs] at href
      exact href
  · generalize (scanStep n s ch).2 = events at heffect
    cases heffect with
    | none same codes => rw [ownErrors_codes, outcome_codes, same]
    | processed buf i nul done =>
      simp only [ownErrors, List.filterMap_cons, List.filterMap_nil, reportAll, List.foldl_nil,
        List.foldl_cons, outcome, done, processBuffer]
      exact route_cstr nullAtEnd subsystems (cstr_take_of_nul nul).symm _

/-- Run lemma. -/
theorem receive_run (scribble : Vector Byte n → Vector Byte n)
    {ctx : RxWorkerContext n (Result σ μ δ)} {s : Scan} (h : Refines ctx s) (bytes : List Byte) :
    ∃ ctx', runs (receiveByte nullAtEnd subsystems scribble) bytes ctx = some ctx' ∧
      Refines ctx' (scan n s bytes).1 ∧
      ctx'.subsystems =
        (scan n s bytes).2.foldl (outcome nullAtEnd subsystems) ctx.subsystems := by
  induction bytes generalizing ctx s with
  | nil => exact ⟨ctx, rfl, h, rfl⟩
  | cons ch bytes ih =>
    obtain ⟨ctx₁, hstep, href, hsame⟩ := receiveByte_spec nullAtEnd subsystems scribble h ch
    obtain ⟨ctx₂, hrun, href', hsame'⟩ := ih href
    refine ⟨ctx₂, by rw [runs, hstep, Option.bind_some, hrun], href', ?_⟩
    rw [hsame', hsame, scan, List.foldl_append]

def queued (q : ℕ) (calls : List (Call μ)) : List μ :=
  (Call.enqueues calls).filterMap fun (q', msg) => if q' = q then some msg else none

/-- What one message may do to the environment and the blocks: nothing, or what the callbacks of
a registered subsystem do for it. -/
inductive Touches (subsystems : List (SubsystemMessageConf σ μ δ)) (w w' : World σ μ δ)
    (calls : List (Call μ)) : Prop
  | nothing (allocated : Call.allocated calls = []) (freed : Call.freed calls = [])
      (env : w'.env = w.env) (messages : w'.messages = w.messages)
  | noBlock {conf : SubsystemMessageConf σ μ δ} {msgIdx : ℕ} (registered : conf ∈ subsystems)
      (allocated : Call.allocated calls = []) (freed : Call.freed calls = [])
      (alloc : allocOf conf msgIdx w = (none, w'.env)) (messages : w'.messages = w.messages)
  | block {conf : SubsystemMessageConf σ μ δ} {msgIdx tid : ℕ} {save : Option (List Byte)}
      {parsingFunc : Message δ → Option (List Byte) → σ → Bool × σ} {msg : μ}
      {content : Message δ} {env env' : σ} {parsed : Bool} (registered : conf ∈ subsystems)
      (parser : parserOf conf msgIdx = some parsingFunc)
      (allocated : Call.allocated calls = [msg])
      (alloc : allocOf conf msgIdx w = (some (msg, content), env))
      (parse : parsingFunc ⟨msgIdx, tid, content.data⟩ save env = (parsed, env'))
      (env : Call.freed calls = [] ∧ w'.env = env' ∨
        Call.freed calls = [msg] ∧ ∃ freeMessage, conf.freeMessage = some freeMessage ∧
          w'.env = freeMessage msg ⟨msgIdx, tid, content.data⟩ env')
      (messages : w'.messages =
        Function.update w.messages msg ⟨msgIdx, tid, content.data⟩)

inductive Replays (subsystems : List (SubsystemMessageConf σ μ δ)) :
    World σ μ δ → World σ μ δ → List (Call μ) → Prop
  | done (w : World σ μ δ) : Replays subsystems w w []
  | message {w w₁ w' : World σ μ δ} {made later : List (Call μ)}
      (first : Touches subsystems w w₁ made) (rest : Replays subsystems w₁ w' later) :
      Replays subsystems w w' (made ++ later)

/-- What `count` messages come to: each has been appended to one queue or is answered by one
error, nothing else has changed in the queues, and the blocks taken are in a queue or freed; the
rest of the system is what the callbacks have made of it. -/
structure Settled (subsystems : List (SubsystemMessageConf σ μ δ)) (count : ℕ)
    (w w' : World σ μ δ) (calls : List (Call μ)) : Prop where
  rest : Replays subsystems w w' calls
  each : (Call.enqueues calls).length + (Call.codes calls).length = count
  items : ∀ q, (w'.mailboxes q).items = (w.mailboxes q).items ++ queued q calls
  capacity : ∀ q, (w'.mailboxes q).capacity = (w.mailboxes q).capacity
  room : ∀ q, (w.mailboxes q).items.length ≤ (w.mailboxes q).capacity →
    (w'.mailboxes q).items.length ≤ (w'.mailboxes q).capacity
  errors : w'.errMsgQueue =
    (Call.codes calls).foldl (fun box code => (box.write code).2) w.errMsgQueue
  blocks : (Call.allocated calls).Perm
    (Call.freed calls ++ (Call.enqueues calls).map Prod.snd)

section Settling

variable {nullAtEnd} {subsystems}

theorem Replays.single {w w' : World σ μ δ} {calls : List (Call μ)}
    (h : Touches subsystems w w' calls) : Replays subsystems w w' calls := by
  have hone := Replays.message h (.done w')
  rwa [List.append_nil] at hone

theorem Replays.trans {w w' w'' : World σ μ δ} {calls calls' : List (Call μ)}
    (h : Replays subsystems w w' calls) (h' : Replays subsystems w' w'' calls') :
    Replays subsystems w w'' (calls ++ calls') := by
  induction h with
  | done w => exact h'
  | message first _ ih =>
    rw [List.append_assoc]
    exact .message first (ih h')

theorem Settled.refl (w : World σ μ δ) : Settled subsystems 0 w w ([] : List (Call μ)) where
  rest := .done w
  each := rfl
  items := fun _ => (List.append_nil _).symm
  capacity := fun _ => rfl
  room := fun _ h => h
  errors := rfl
  blocks := List.Perm.refl _

theorem Settled.trans {count count' : ℕ} {w w' w'' : World σ μ δ} {calls calls' : List (Call μ)}
    (h : Settled subsystems count w w' calls) (h' : Settled subsystems count' w' w'' calls') :
    Settled subsystems (count + count') w w'' (calls ++ calls') where
  rest := h.rest.trans h'.rest
  each := by
    have hone := h.each
    have hmore := h'.each
    simp only [Call.enqueues, Call.codes, List.filterMap_append, List.length_append] at *
    omega
  items := by
    intro q
    rw [h'.items, h.items, List.append_assoc]
    simp [queued, Call.enqueues]
  capacity := fun q => (h'.capacity q).trans (h.capacity q)
  room := fun q hq => h'.room q (h.room q hq)
  errors := by
    rw [h'.errors, h.errors]
    simp [Call.codes]
  blocks := by
    have hboth := h.blocks.append h'.blocks
    simp only [Call.allocated, Call.freed, Call.enqueues, List.filterMap_append,
      List.map_append] at *
    refine hboth.trans ?_
    simp only [List.append_assoc]
    refine List.Perm.append_left _ ?_
    rw [← List.append_assoc, ← List.append_assoc]
    exact List.Perm.append_right _ List.perm_append_comm

theorem touches_of_rejected {buf : List Byte} {code : ℤ} {w w' : World σ μ δ}
    {calls : List (Call μ)} (h : Rejected nullAtEnd subsystems buf code w w' calls) :
    Touches subsystems w w' calls := by
  cases h.undone with
  | uncalled hnone henv hmessages => exact .nothing hnone (h.freed.trans hnone) henv hmessages
  | noBlock hfound _ hnone halloc hmessages =>
    exact .noBlock (subsystemOf_mem hfound.hasSubsystem) hnone (h.freed.trans hnone) halloc
      hmessages
  | freed hfound _ hone halloc hparse hfree henv hmessages =>
    exact .block (subsystemOf_mem hfound.hasSubsystem) hfound.hasParser hone halloc hparse
      (Or.inr ⟨h.freed.trans hone, _, hfree, henv⟩) hmessages

/-- An error and no message. -/
theorem settled_of_rejected {buf : List Byte} {code : ℤ} {w w' : World σ μ δ}
    {calls : List (Call μ)} (h : Rejected nullAtEnd subsystems buf code w w' calls) :
    Settled subsystems 1 w w' calls where
  rest := .single (touches_of_rejected h)
  each := by rw [h.enqueues, h.codes]; rfl
  items := by
    intro q
    rw [h.mailboxes, queued, h.enqueues]
    exact (List.append_nil _).symm
  capacity := fun q => by rw [h.mailboxes]
  room := fun q hq => by rwa [h.mailboxes]
  errors := by rw [h.codes, h.errMsgQueue]; rfl
  blocks := by
    rw [h.freed, h.enqueues, List.map_nil, List.append_nil]

/-- A message and no error. -/
theorem settled_of_sent {buf : List Byte} {conf : SubsystemMessageConf σ μ δ} {msgIdx tid q : ℕ}
    {parsingFunc : Message δ → Option (List Byte) → σ → Bool × σ} {msg : μ} {w : World σ μ δ}
    {env env' : σ} {content : Message δ}
    (hf : Found nullAtEnd subsystems buf conf msgIdx parsingFunc tid)
    (halloc : allocOf conf msgIdx w = (some (msg, content), env))
    (hparse : parsingFunc ⟨msgIdx, tid, content.data⟩ (restOf nullAtEnd buf) env = (true, env'))
    (hroom : (w.mailboxes q).full = false) :
    Settled subsystems 1 w ⟨env', Function.update w.messages msg ⟨msgIdx, tid, content.data⟩,
      Function.update w.mailboxes q
        ⟨(w.mailboxes q).capacity, (w.mailboxes q).items ++ [msg]⟩, w.errMsgQueue⟩
      [.alloc msgIdx (some msg), .parse (restOf nullAtEnd buf) true, .enqueued q msg] where
  rest := .single (.block (subsystemOf_mem hf.hasSubsystem) hf.hasParser rfl halloc hparse
    (Or.inl ⟨rfl, rfl⟩) rfl)
  each := rfl
  items := by
    intro q'
    by_cases hq : q' = q
    · subst hq
      simp [queued, Call.enqueues]
    · simp [queued, Call.enqueues, hq, Ne.symm hq]
  capacity := by
    intro q'
    by_cases hq : q' = q
    · subst hq
      simp
    · simp [hq]
  room := by
    intro q' hle
    by_cases hq : q' = q
    · subst hq
      have hless : (w.mailboxes q').items.length < (w.mailboxes q').capacity := by
        simpa [Mailbox.full] using hroom
      simpa [Nat.succ_le_iff] using hless
    · simpa [hq] using hle
  errors := rfl
  blocks := List.Perm.refl _

end Settling

/-- One message that has a first token. -/
theorem process_settled (hw : Wired subsystems) {buf : List Byte} (w : World σ μ δ)
    (htoks : tokens comma buf ≠ []) :
    ∃ w' calls, processIncomingMessage nullAtEnd subsystems buf w = .ok (w', calls) ∧
      Settled subsystems 1 w w' calls := by
  have hrejected {code : ℤ} {r : Result σ μ δ} (h : ∃ w' calls, r = .ok (w', calls) ∧
      Rejected nullAtEnd subsystems buf code w w' calls) :
      ∃ w' calls, r = .ok (w', calls) ∧ Settled subsystems 1 w w' calls := by
    obtain ⟨w', calls, hrun, hrej⟩ := h
    exact ⟨w', calls, hrun, settled_of_rejected hrej⟩
  unfold processIncomingMessage
  rcases lookup_found_or_rejected nullAtEnd subsystems buf w htoks with
    ⟨conf, msgIdx, parsingFunc, tid, hf⟩ | ⟨code, hlook, -⟩
  swap
  · simp only [hlook]
    exact ⟨_, _, rfl,
      settled_of_rejected (rejected_scheduled nullAtEnd subsystems buf code w)⟩
  obtain ⟨alloc, free, q, halloc, hfree, hqueue⟩ :=
    hw.of_parser (subsystemOf_mem hf.hasSubsystem) hf.hasParser
  simp only [hf.looked]
  rcases hres : alloc msgIdx w.env with ⟨_ | ⟨msg, content⟩, env⟩
  · exact hrejected (hf.noBlock w halloc hres)
  rcases hparse : parsingFunc ⟨msgIdx, tid, content.data⟩ (restOf nullAtEnd buf) env with
    ⟨_ | _, env'⟩
  · exact hrejected (hf.badPayload w halloc hfree hres hparse)
  cases hroom : (w.mailboxes q).full with
  | true =>
    exact hrejected (hf.queueFull w halloc hfree hres hparse hqueue hroom)
  | false =>
    exact ⟨_, _, handOver_sent parsingFunc msgIdx tid _ w halloc hres hparse hqueue hroom,
      settled_of_sent hf ((allocOf_eq halloc msgIdx w).trans hres) hparse hroom⟩

/-- The scanner's events, one after the other. -/
theorem outcomes_settled (hw : Wired subsystems) (events : List RxEvent)
    (htoks : ∀ msg, .delivered msg ∈ events → tokens comma msg ≠ []) (w : World σ μ δ)
    (before : List (Call μ)) :
    ∃ w' calls, events.foldl (outcome nullAtEnd subsystems) (.ok (w, before)) =
      .ok (w', before ++ calls) ∧ Settled subsystems events.length w w' calls := by
  induction events generalizing w before with
  | nil => exact ⟨w, [], by simp, Settled.refl w⟩
  | cons event events ih =>
    obtain ⟨w₁, made, hone, hsettled⟩ : ∃ w₁ made,
        outcome nullAtEnd subsystems (.ok (w, before)) event = .ok (w₁, before ++ made) ∧
          Settled subsystems 1 w w₁ made := by
      cases event with
      | delivered msg =>
        obtain ⟨w₁, made, hrun, hsettled⟩ :=
          process_settled nullAtEnd subsystems hw w (htoks msg List.mem_cons_self)
        exact ⟨w₁, made, by simp only [outcome, route, hrun], hsettled⟩
      | scheduled code =>
        exact ⟨_, _, rfl,
          settled_of_rejected (rejected_scheduled nullAtEnd subsystems [] code w)⟩
    obtain ⟨w₂, later, hrest, hsettled'⟩ :=
      ih (fun msg hmsg => htoks msg (List.mem_cons_of_mem event hmsg)) w₁ (before ++ made)
    refine ⟨w₂, made ++ later, ?_, ?_⟩
    · rw [List.foldl_cons, hone, hrest, List.append_assoc]
    · rw [List.length_cons, Nat.add_comm]
      exact hsettled.trans hsettled'

/-- Any byte stream on any registry that is wired up, as long as no message found is without a
first token. -/
theorem stream_settled (b : Board) (hw : Wired subsystems)
    (scribble : Vector Byte b.bspMaxMessageLength → Vector Byte b.bspMaxMessageLength)
    (buf : Vector Byte b.bspMaxMessageLength) (w : World σ μ δ) (bytes : List Byte)
    (htoks : ∀ msg, .delivered msg ∈ (scan b.bspMaxMessageLength none bytes).2 →
      tokens comma msg ≠ []) :
    ∃ ctx w' calls, runs (receiveByte nullAtEnd subsystems scribble) bytes
        (dispatcherInit buf (.ok (w, []))) = some ctx ∧
      ctx.subsystems = .ok (w', calls) ∧
      Settled subsystems (scan b.bspMaxMessageLength none bytes).2.length w w' calls := by
  have hn : 0 < b.bspMaxMessageLength := by cases b <;> decide
  obtain ⟨ctx, hrun, -, hsame⟩ :=
    receive_run nullAtEnd subsystems scribble (refines_init hn buf (.ok (w, []))) bytes
  obtain ⟨w', calls, hfold, hsettled⟩ := outcomes_settled nullAtEnd subsystems hw _ htoks w []
  exact ⟨ctx, w', calls, hrun, hsame.trans hfold, hsettled⟩

/-- A message of the dispatcher's tests, a cut one, one for nobody and one with a bad checksum. -/
def testStream : List Byte :=
  FrameRoundTrip.frame (ascii "456,FAKE,SER_DES_MESSAGE,PAYLOAD") ++ ascii "$1,FA" ++
    FrameRoundTrip.frame (ascii "7,NOBODY,SER_DES_MESSAGE") ++ ascii "$1,FAKE,X*00" ++ [cr, lf]

theorem testStream_events : (scan Board.stm32f072discovery.bspMaxMessageLength none testStream).2 =
    [.delivered (ascii "456,FAKE,SER_DES_MESSAGE,PAYLOAD" ++ [0]),
      .delivered (ascii "7,NOBODY,SER_DES_MESSAGE" ++ [0]), .scheduled rxChecksumError] := by
  decide +kernel

theorem testStream_settled : ∃ ctx w' calls,
    runs (receiveByte true fakeSubsystems id) testStream
      (dispatcherInit (Vector.replicate Board.stm32f072discovery.bspMaxMessageLength 0)
        (.ok (fakeWorld, []))) = some ctx ∧
    ctx.subsystems = .ok (w', calls) ∧
    Settled fakeSubsystems
      (scan Board.stm32f072discovery.bspMaxMessageLength none testStream).2.length
      fakeWorld w' calls := by
  refine stream_settled true fakeSubsystems .stm32f072discovery fakeSubsystems_wired id _ fakeWorld
    testStream ?_
  intro msg hmsg
  rw [testStream_events] at hmsg
  simp only [List.mem_cons, RxEvent.delivered.injEq, reduceCtorEq, List.not_mem_nil, or_false]
    at hmsg
  rcases hmsg with rfl | rfl <;> decide

end Ratfist.ReceivedStream
