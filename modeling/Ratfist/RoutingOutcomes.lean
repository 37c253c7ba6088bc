import Ratfist.Routing

/-!
What becomes of one delivered message. `routingChecks` lists the eight tests in the
order in which they count; the first that fails names the error, and a message that
passes all of them is the only thing the call leaves behind.
-/
namespace Ratfist.RoutingOutcomes

open CString Constants Subsystem Routing

variable {σ μ δ : Type} [DecidableEq μ]

/-- Callbacks and queue are there wherever a parsing function is. -/
def Wired (subsystems : List (SubsystemMessageConf σ μ δ)) : Prop :=
  ∀ conf ∈ subsystems, (∃ h ∈ conf.messageHandlers, h.parsingFunc.isSome) →
    conf.allocMessage.isSome ∧ conf.freeMessage.isSome ∧ conf.incomingMsgQueue.isSome

/-- The first registered subsystem whose name is the second token. -/
def subsystemOf (subsystems : List (SubsystemMessageConf σ μ δ)) (toks : List (List Byte)) :
    Option (SubsystemMessageConf σ μ δ) :=
  (toks[1]?).bind (fun name => subsystems.find? (fun conf => strcmpEq name conf.subsystemName))

def msgIdxOf (conf : SubsystemMessageConf σ μ δ) (toks : List (List Byte)) : Option ℕ :=
  (toks[2]?).bind (fun name =>
    conf.messageHandlers.findIdx? (fun h => strcmpEq name h.messageName))

def parserOf (conf : SubsystemMessageConf σ μ δ) (msgIdx : ℕ) :
    Option (Message δ → Option (List Byte) → σ → Bool × σ) :=
  (conf.messageHandlers[msgIdx]?).bind MessageHandler.parsingFunc

/-- What `strtok_r` has saved behind the third token. -/
def restOf (nullAtEnd : Bool) (buf : List Byte) : Option (List Byte) :=
  let save := (strtokR nullAtEnd comma (some buf)).2
  (strtokR nullAtEnd comma (strtokR nullAtEnd comma save).2).2

def allocOf (conf : SubsystemMessageConf σ μ δ) (msgIdx : ℕ) (w : World σ μ δ) :
    Option (μ × Message δ) × σ :=
  match conf.allocMessage with
  | none => (none, w.env)
  | some alloc => alloc msgIdx w.env

omit [DecidableEq μ] in
theorem allocOf_eq {conf : SubsystemMessageConf σ μ δ}
    {alloc : ℕ → σ → Option (μ × Message δ) × σ} (ha : conf.allocMessage = some alloc)
    (msgIdx : ℕ) (w : World σ μ δ) : allocOf conf msgIdx w = alloc msgIdx w.env := by
  simp [allocOf, ha]

def roomOf (conf : SubsystemMessageConf σ μ δ) (w : World σ μ δ) : Bool :=
  conf.incomingMsgQueue.any (fun q => !(w.mailboxes q).full)

def payloadOk (parsingFunc : Message δ → Option (List Byte) → σ → Bool × σ) (msgIdx tid : ℕ)
    (save : Option (List Byte)) (allocated : Option (μ × Message δ) × σ) : Bool :=
  allocated.1.any (fun block =>
    (parsingFunc { block.2 with type := msgIdx, transactionId := tid } save allocated.2).1)

/-- Each test with the error it stands for, in the order in which they count; a test
that has nothing to look at counts as failed. -/
def routingChecks (nullAtEnd : Bool) (subsystems : List (SubsystemMessageConf σ μ δ))
    (buf : List Byte) (w : World σ μ δ) : List (Bool × ℤ) :=
  let toks := tokens comma buf
  let tid := (toks[0]?).bind parseTransactionId
  let conf := subsystemOf subsystems toks
  let handler := conf.bind (fun c => (msgIdxOf c toks).map (fun i => (c, i)))
  let parser := handler.bind (fun (c, i) => parserOf c i)
  let allocated := handler.map (fun (c, i) => (i, allocOf c i w))
  [(tid.isSome, messageParsingError),
    (toks[1]?.isSome && toks[2]?.isSome, messageParsingError),
    (conf.isSome, unknownSubsystemError),
    (handler.isSome, unknownMessageTypeError),
    (parser.isSome, missingMessageHandlerError),
    (allocated.any (fun a => a.2.1.isSome), memAllocError),
    (allocated.any (fun a => parser.any (fun p =>
      payloadOk p a.1 (tid.getD 0) (restOf nullAtEnd buf) a.2)), messageParsingError),
    (conf.any (roomOf · w), messageRoutingError)]

def firstFailing (checks : List (Bool × ℤ)) : Option ℤ :=
  (checks.find? (fun c => !c.1)).map Prod.snd

/-- The message has gone to the subsystem, and nothing else has happened. -/
def Enqueued (nullAtEnd : Bool) (subsystems : List (SubsystemMessageConf σ μ δ))
    (buf : List Byte) (w w' : World σ μ δ) (calls : List (Call μ)) : Prop :=
  ∃ conf msgIdx parsingFunc tid alloc msg content env env' q,
    ((tokens comma buf)[0]?).bind parseTransactionId = some tid ∧
    subsystemOf subsystems (tokens comma buf) = some conf ∧
    msgIdxOf conf (tokens comma buf) = some msgIdx ∧
    parserOf conf msgIdx = some parsingFunc ∧
    conf.allocMessage = some alloc ∧ alloc msgIdx w.env = (some (msg, content), env) ∧
    parsingFunc ⟨msgIdx, tid, content.data⟩ (restOf nullAtEnd buf) env = (true, env') ∧
    conf.incomingMsgQueue = some q ∧
    w' = ⟨env', Function.update w.messages msg ⟨msgIdx, tid, content.data⟩,
      Function.update w.mailboxes q
        ⟨(w.mailboxes q).capacity, (w.mailboxes q).items ++ [msg]⟩, w.errMsgQueue⟩ ∧
    Call.codes calls = [] ∧ Call.enqueues calls = [(q, msg)] ∧
    Call.allocated calls = [msg] ∧ Call.freed calls = []

/-- What `lookup` finds when every test of names and numbers is passed. -/
structure Found (nullAtEnd : Bool) (subsystems : List (SubsystemMessageConf σ μ δ))
    (buf : List Byte) (conf : SubsystemMessageConf σ μ δ) (msgIdx : ℕ)
    (parsingFunc : Message δ → Option (List Byte) → σ → Bool × σ) (tid : ℕ) : Prop where
  looked : lookup nullAtEnd subsystems buf =
    .found conf msgIdx parsingFunc tid (restOf nullAtEnd buf)
  named : (tokens comma buf)[1]?.isSome ∧ (tokens comma buf)[2]?.isSome
  hasTid : ((tokens comma buf)[0]?).bind parseTransactionId = some tid
  hasSubsystem : subsystemOf subsystems (tokens comma buf) = some conf
  hasMsgIdx : msgIdxOf conf (tokens comma buf) = some msgIdx
  hasParser : parserOf conf msgIdx = some parsingFunc

/-- What becomes of the environment and the blocks when nobody has kept the message: no callback
was called, there was no block, or the block has been parsed into and freed. -/
inductive Undone (nullAtEnd : Bool) (subsystems : List (SubsystemMessageConf σ μ δ))
    (buf : List Byte) (code : ℤ) (w w' : World σ μ δ) (calls : List (Call μ)) : Prop
  | uncalled (allocated : Call.allocated calls = []) (env : w'.env = w.env)
      (messages : w'.messages = w.messages)
  | noBlock {conf : SubsystemMessageConf σ μ δ} {msgIdx tid : ℕ}
      {parsingFunc : Message δ → Option (List Byte) → σ → Bool × σ}
      (found : Found nullAtEnd subsystems buf conf msgIdx parsingFunc tid)
      (error : code = memAllocError) (allocated : Call.allocated calls = [])
      (alloc : allocOf conf msgIdx w = (none, w'.env)) (messages : w'.messages = w.messages)
  | freed {conf : SubsystemMessageConf σ μ δ} {msgIdx tid : ℕ}
      {parsingFunc : Message δ → Option (List Byte) → σ → Bool × σ}
      (found : Found nullAtEnd subsystems buf conf msgIdx parsingFunc tid)
      {msg : μ} {content : Message δ} {env env' : σ} {parsed : Bool}
      {freeMessage : μ → Message δ → σ → σ}
      (error : code = if parsed then messageRoutingError else messageParsingError)
      (allocated : Call.allocated calls = [msg])
      (alloc : allocOf conf msgIdx w = (some (msg, content), env))
      (parse : parsingFunc ⟨msgIdx, tid, content.data⟩ (restOf nullAtEnd buf) env =
        (parsed, env'))
      (free : conf.freeMessage = some freeMessage)
      (env : w'.env = freeMessage msg ⟨msgIdx, tid, content.data⟩ env')
      (messages : w'.messages =
        Function.update w.messages msg ⟨msgIdx, tid, content.data⟩)

/-- One error is scheduled, the queues are as before, and what was allocated is freed. -/
structure Rejected (nullAtEnd : Bool) (subsystems : List (SubsystemMessageConf σ μ δ))
    (buf : List Byte) (code : ℤ) (w w' : World σ μ δ) (calls : List (Call μ)) : Prop where
  codes : Call.codes calls = [code]
  errMsgQueue : w'.errMsgQueue = (w.errMsgQueue.write code).2
  mailboxes : w'.mailboxes = w.mailboxes
  undone : Undone nullAtEnd subsystems buf code w w' calls
  enqueues : Call.enqueues calls = []
  freed : Call.freed calls = Call.allocated calls

omit [DecidableEq μ] in
/-- `lookup` in terms of the tokens of the payload. -/
theorem lookup_eq (nullAtEnd : Bool) (subsystems : List (SubsystemMessageConf σ μ δ))
    (buf : List Byte) :
    lookup nullAtEnd subsystems buf =
      match tokens comma buf with
      | [] => .nullString
      | idStr :: names =>
        match parseTransactionId idStr with
        | none => .rejected messageParsingError
        | some tid =>
          match names with
          | subsystemName :: msgName :: _ =>
            findHandler subsystems tid subsystemName msgName (restOf nullAtEnd buf)
          | _ => .rejected messageParsingError := by
  obtain ⟨h1, s1⟩ := strtokR_spec nullAtEnd comma (some buf)
  obtain ⟨h2, s2⟩ := strtokR_spec nullAtEnd comma (strtokR nullAtEnd comma (some buf)).2
  obtain ⟨h3, -⟩ := strtokR_spec nullAtEnd comma
    (strtokR nullAtEnd comma (strtokR nullAtEnd comma (some buf)).2).2
  rw [s1] at h2 s2
  rw [s2] at h3
  simp only [savedTokens] at h1 h2 h3
  simp only [lookup, restOf, h1, h2, h3]
  cases htoks : tokens comma buf with
  | nil => rfl
  | cons idStr names =>
    simp only [List.head?_cons, List.tail_cons]
    cases parseTransactionId idStr with
    | none => rfl
    | some tid =>
      rcases names with _ | ⟨_, _ | ⟨_, _⟩⟩ <;> rfl

theorem rejected_scheduled (nullAtEnd : Bool) (subsystems : List (SubsystemMessageConf σ μ δ))
    (buf : List Byte) (code : ℤ) (w : World σ μ δ) :
    Rejected nullAtEnd subsystems buf code w (w.scheduleErrMessage code) [.scheduled code] :=
  ⟨rfl, rfl, rfl, .uncalled rfl rfl rfl, rfl, rfl⟩

section HandOver

variable {nullAtEnd : Bool} {subsystems : List (SubsystemMessageConf σ μ δ)} {buf : List Byte}
  {conf : SubsystemMessageConf σ μ δ} {alloc : ℕ → σ → Option (μ × Message δ) × σ}
  {free : μ → Message δ → σ → σ} {q : ℕ}
  {parsingFunc : Message δ → Option (List Byte) → σ → Bool × σ} {msgIdx tid : ℕ}
  (w : World σ μ δ) {env env' : σ} {msg : μ} {content : Message δ}

theorem Found.noBlock (h : Found nullAtEnd subsystems buf conf msgIdx parsingFunc tid)
    (ha : conf.allocMessage = some alloc) (hr : alloc msgIdx w.env = (none, env)) :
    ∃ w' calls, handOver conf msgIdx parsingFunc tid (restOf nullAtEnd buf) w = .ok (w', calls) ∧
      Rejected nullAtEnd subsystems buf memAllocError w w' calls := by
  have halloc : allocOf conf msgIdx w = (none, env) := (allocOf_eq ha msgIdx w).trans hr
  simp only [handOver, ha, hr]
  exact ⟨_, _, rfl, rfl, rfl, rfl, .noBlock h rfl rfl halloc rfl, rfl, rfl⟩

theorem Found.badPayload (h : Found nullAtEnd subsystems buf conf msgIdx parsingFunc tid)
    (ha : conf.allocMessage = some alloc) (hf : conf.freeMessage = some free)
    (hr : alloc msgIdx w.env = (some (msg, content), env))
    (hp : parsingFunc ⟨msgIdx, tid, content.data⟩ (restOf nullAtEnd buf) env = (false, env')) :
    ∃ w' calls, handOver conf msgIdx parsingFunc tid (restOf nullAtEnd buf) w = .ok (w', calls) ∧
      Rejected nullAtEnd subsystems buf messageParsingError w w' calls := by
  have halloc : allocOf conf msgIdx w = (some (msg, content), env) :=
    (allocOf_eq ha msgIdx w).trans hr
  simp only [handOver, ha, hr, hp, Bool.not_false, if_true, giveBack, hf]
  refine ⟨_, _, rfl, rfl, rfl, rfl, .freed h rfl rfl halloc hp hf ?_ rfl, rfl, rfl⟩
  simp [World.scheduleErrMessage]

theorem Found.queueFull (h : Found nullAtEnd subsystems buf conf msgIdx parsingFunc tid)
    (ha : conf.allocMessage = some alloc) (hf : conf.freeMessage = some free)
    (hr : alloc msgIdx w.env = (some (msg, content), env))
    (hp : parsingFunc ⟨msgIdx, tid, content.data⟩ (restOf nullAtEnd buf) env = (true, env'))
    (hq : conf.incomingMsgQueue = some q) (hfull : (w.mailboxes q).full = true) :
    ∃ w' calls, handOver conf msgIdx parsingFunc tid (restOf nullAtEnd buf) w = .ok (w', calls) ∧
      Rejected nullAtEnd subsystems buf messageRoutingError w w' calls := by
  have halloc : allocOf conf msgIdx w = (some (msg, content), env) :=
    (allocOf_eq ha msgIdx w).trans hr
  simp only [handOver, ha, hr, hp, Bool.not_true, Bool.false_eq_true, if_false, hq,
    Mailbox.write, hfull, if_true, Bool.not_false, giveBack, hf]
  refine ⟨_, _, rfl, rfl, rfl, rfl, .freed h rfl rfl halloc hp hf ?_ rfl, rfl, rfl⟩
  simp [World.scheduleErrMessage]

theorem handOver_sent (parsingFunc : Message δ → Option (List Byte) → σ → Bool × σ)
    (msgIdx tid : ℕ) (save : Option (List Byte)) (w : World σ μ δ)
    (ha : conf.allocMessage = some alloc)
    (hr : alloc msgIdx w.env = (some (msg, content), env))
    (hp : parsingFunc ⟨msgIdx, tid, content.data⟩ save env = (true, env'))
    (hq : conf.incomingMsgQueue = some q) (hroom : (w.mailboxes q).full = false) :
    handOver conf msgIdx parsingFunc tid save w =
      .ok (⟨env', Function.update w.messages msg ⟨msgIdx, tid, content.data⟩,
        Function.update w.mailboxes q
          ⟨(w.mailboxes q).capacity, (w.mailboxes q).items ++ [msg]⟩, w.errMsgQueue⟩,
        [.alloc msgIdx (some msg), .parse save true, .enqueued q msg]) := by
  simp only [handOver, ha, hr, hp, Bool.not_true, Bool.false_eq_true, if_false, hq,
    Mailbox.write, hroom]

end HandOver

omit [DecidableEq μ] in
theorem subsystemOf_mem {subsystems : List (SubsystemMessageConf σ μ δ)}
    {toks : List (List Byte)} {conf : SubsystemMessageConf σ μ δ}
    (h : subsystemOf subsystems toks = some conf) : conf ∈ subsystems := by
  obtain ⟨name, -, hfind⟩ := Option.bind_eq_some_iff.mp h
  exact List.mem_of_find?_eq_some hfind

omit [DecidableEq μ] in
theorem Wired.of_parser {subsystems : List (SubsystemMessageConf σ μ δ)}
    (hw : Wired subsystems) {conf : SubsystemMessageConf σ μ δ} (hc : conf ∈ subsystems)
    {msgIdx : ℕ} {parsingFunc : Message δ → Option (List Byte) → σ → Bool × σ}
    (hp : parserOf conf msgIdx = some parsingFunc) :
    ∃ alloc free q, conf.allocMessage = some alloc ∧ conf.freeMessage = some free ∧
      conf.incomingMsgQueue = some q := by
  obtain ⟨h, hget, hparse⟩ := Option.bind_eq_some_iff.mp hp
  have hsome : h.parsingFunc.isSome := by rw [hparse]; rfl
  obtain ⟨ha, hf, hq⟩ := hw conf hc ⟨h, List.mem_of_getElem? hget, hsome⟩
  obtain ⟨alloc, ha⟩ := Option.isSome_iff_exists.mp ha
  obtain ⟨free, hf⟩ := Option.isSome_iff_exists.mp hf
  obtain ⟨q, hq⟩ := Option.isSome_iff_exists.mp hq
  exact ⟨alloc, free, q, ha, hf, hq⟩

omit [DecidableEq μ] in
/-- With a first token, `lookup` finds a handler or reports the first failing test. -/
theorem lookup_found_or_rejected (nullAtEnd : Bool)
    (subsystems : List (SubsystemMessageConf σ μ δ)) (buf : List Byte) (w : World σ μ δ)
    (htoks : tokens comma buf ≠ []) :
    (∃ conf msgIdx parsingFunc tid,
      Found nullAtEnd subsystems buf conf msgIdx parsingFunc tid) ∨
    ∃ code, lookup nullAtEnd subsystems buf = .rejected code ∧
      firstFailing (routingChecks nullAtEnd subsystems buf w) = some code := by
  obtain ⟨idStr, names, hnames⟩ := List.exists_cons_of_ne_nil htoks
  have hlook := lookup_eq nullAtEnd subsystems buf
  rw [hnames] at hlook
  cases htid : parseTransactionId idStr with
  | none =>
    refine Or.inr ⟨messageParsingError, by simpa only [htid] using hlook, ?_⟩
    simp [routingChecks, firstFailing, hnames, htid]
  | some tid =>
    simp only [htid] at hlook
    match names, hnames, hlook with
    | [], hnames, hlook =>
      exact Or.inr ⟨messageParsingError, hlook, by
        simp [routingChecks, firstFailing, hnames, htid]⟩
    | [_], hnames, hlook =>
      exact Or.inr ⟨messageParsingError, hlook, by
        simp [routingChecks, firstFailing, hnames, htid]⟩
    | subsystemName :: msgName :: more, hnames, hlook =>
      have hsub : subsystemOf subsystems (tokens comma buf) =
          subsystems.find? (fun conf => strcmpEq subsystemName conf.subsystemName) := by
        simp [subsystemOf, hnames]
      have hidx (conf : SubsystemMessageConf σ μ δ) : msgIdxOf conf (tokens comma buf) =
          conf.messageHandlers.findIdx? (fun h => strcmpEq msgName h.messageName) := by
        simp [msgIdxOf, hnames]
      have hpassed : routingChecks nullAtEnd subsystems buf w =
          (true, messageParsingError) :: (true, messageParsingError) ::
            (routingChecks nullAtEnd subsystems buf w).drop 2 := by
        simp [routingChecks, hnames, htid]
      simp only [findHandler, ← hsub, ← hidx] at hlook
      cases hconf : subsystemOf subsystems (tokens comma buf) with
      | none =>
        refine Or.inr ⟨unknownSubsystemError, by simpa only [hconf] using hlook, ?_⟩
        rw [hpassed]
        simp [routingChecks, firstFailing, hconf]
      | some conf =>
        simp only [hconf] at hlook
        cases hmsg : msgIdxOf conf (tokens comma buf) with
        | none =>
          refine Or.inr ⟨unknownMessageTypeError, by simpa only [hmsg] using hlook, ?_⟩
          rw [hpassed]
          simp [routingChecks, firstFailing, hconf, hmsg]
        | some msgIdx =>
          simp only [hmsg] at hlook
          cases hparser : parserOf conf msgIdx with
          | none =>
            rw [parserOf] at hparser
            refine Or.inr ⟨missingMessageHandlerError,
              by simpa only [hparser] using hlook, ?_⟩
            rw [hpassed]
            simp [routingChecks, firstFailing, hconf, hmsg, parserOf, hparser]
          | some parsingFunc =>
            refine Or.inl ⟨conf, msgIdx, parsingFunc, tid, ?_, by simp [hnames],
              by simp [hnames, htid], hconf, hmsg, hparser⟩
            rw [parserOf] at hparser
            simpa only [hparser] using hlook

omit [DecidableEq μ] in
/-- Behind a found handler three tests are left. -/
theorem Found.firstFailing_eq {nullAtEnd : Bool}
    {subsystems : List (SubsystemMessageConf σ μ δ)} {buf : List Byte}
    {conf : SubsystemMessageConf σ μ δ} {msgIdx : ℕ}
    {parsingFunc : Message δ → Option (List Byte) → σ → Bool × σ} {tid : ℕ}
    (h : Found nullAtEnd subsystems buf conf msgIdx parsingFunc tid) (w : World σ μ δ) :
    firstFailing (routingChecks nullAtEnd subsystems buf w) =
      firstFailing [((allocOf conf msgIdx w).1.isSome, memAllocError),
        (payloadOk parsingFunc msgIdx tid (restOf nullAtEnd buf) (allocOf conf msgIdx w),
          messageParsingError),
        (roomOf conf w, messageRoutingError)] := by
  simp [firstFailing, routingChecks, h.named, h.hasTid, h.hasSubsystem, h.hasMsgIdx,
    h.hasParser]

/-- One call, on a registry that is wired up, with a message that has a first token:
the message reaches the subsystem, or the first failing test is reported and nothing
is kept. -/
theorem routing_all_or_nothing (nullAtEnd : Bool)
    (subsystems : List (SubsystemMessageConf σ μ δ)) (hw : Wired subsystems) (buf : List Byte)
    (w : World σ μ δ) (hfirst : (strtokR nullAtEnd comma (some buf)).1 ≠ none) :
    ∃ w' calls, processIncomingMessage nullAtEnd subsystems buf w = .ok (w', calls) ∧
      ((firstFailing (routingChecks nullAtEnd subsystems buf w) = none ∧
          Enqueued nullAtEnd subsystems buf w w' calls) ∨
        ∃ code, firstFailing (routingChecks nullAtEnd subsystems buf w) = some code ∧
          Rejected nullAtEnd subsystems buf code w w' calls) := by
  have htoks : tokens comma buf ≠ [] := fun h => hfirst ((strtokR_none_iff _ _ _).mpr h)
  unfold processIncomingMessage
  rcases lookup_found_or_rejected nullAtEnd subsystems buf w htoks with
    ⟨conf, msgIdx, parsingFunc, tid, hf⟩ | ⟨code, hlook, hcode⟩
  · obtain ⟨alloc, free, q, halloc, hfree, hqueue⟩ :=
      hw.of_parser (subsystemOf_mem hf.hasSubsystem) hf.hasParser
    have hallocOf := allocOf_eq halloc msgIdx w
    simp only [hf.looked, hf.firstFailing_eq, hallocOf]
    rcases hres : alloc msgIdx w.env with ⟨_ | ⟨msg, content⟩, env⟩
    · obtain ⟨w', calls, hrun, hrej⟩ := hf.noBlock w halloc hres
      exact ⟨w', calls, hrun, Or.inr ⟨_, by simp [firstFailing], hrej⟩⟩
    rcases hparse : parsingFunc ⟨msgIdx, tid, content.data⟩ (restOf nullAtEnd buf) env with
      ⟨_ | _, env'⟩
    · obtain ⟨w', calls, hrun, hrej⟩ := hf.badPayload w halloc hfree hres hparse
      exact ⟨w', calls, hrun, Or.inr ⟨_, by simp [firstFailing, payloadOk, hparse], hrej⟩⟩
    cases hroom : (w.mailboxes q).full with
    | true =>
      obtain ⟨w', calls, hrun, hrej⟩ :=
        hf.queueFull w halloc hfree hres hparse hqueue hroom
      exact ⟨w', calls, hrun,
        Or.inr ⟨_, by simp [firstFailing, payloadOk, hparse, roomOf, hqueue, hroom], hrej⟩⟩
    | false =>
      refine ⟨_, _, handOver_sent parsingFunc msgIdx tid (restOf nullAtEnd buf) w halloc hres
        hparse hqueue hroom,
        Or.inl ⟨by simp [firstFailing, payloadOk, hparse, roomOf, hqueue, hroom], ?_⟩⟩
      exact ⟨conf, msgIdx, parsingFunc, tid, alloc, msg, content, env, env', q, hf.hasTid,
        hf.hasSubsystem, hf.hasMsgIdx, hf.hasParser, halloc, hres, hparse, hqueue, rfl, rfl, rfl,
        rfl, rfl⟩
  · simp only [hlook]
    exact ⟨_, _, rfl,
      Or.inr ⟨code, hcode, rejected_scheduled nullAtEnd subsystems buf code w⟩⟩

section TestRegistry

def fakeAlloc (_ : ℕ) : List ℕ → Option (ℕ × Message Unit) × List ℕ
  | [] => (none, [])
  | msg :: free => (some (msg, ⟨0, 0, ()⟩), free)

def fakeParse (_ : Message Unit) (save : Option (List Byte)) (free : List ℕ) :
    Bool × List ℕ :=
  (save.isSome, free)

def fakeSubsystems : List (SubsystemMessageConf (List ℕ) ℕ Unit) :=
  [⟨ascii "MINI_FAKE", [], none, none, none, none, none⟩,
    ⟨ascii "FAKE",
      [⟨ascii "SER_DES_MESSAGE", some fakeParse, some fun _ _ _ => (ascii ",PAYLOAD", 8)⟩,
        ⟨ascii "SER_ONLY_MESSAGE", none, some fun _ _ _ => (ascii ",PAYLOAD", 8)⟩,
        ⟨ascii "DES_ONLY_MESSAGE", some fakeParse, none⟩,
        ⟨ascii "NO_SER_DES_MESSAGE", none, none⟩],
      some 0, some 1, some 2, some fakeAlloc, some fun msg _ free => msg :: free⟩]

def fakeWorld : World (List ℕ) ℕ Unit :=
  ⟨[4, 5], fun _ => ⟨0, 0, ()⟩, fun _ => ⟨10, []⟩, ⟨10, []⟩⟩

theorem fakeSubsystems_wired : Wired fakeSubsystems := by
  rintro conf hconf ⟨h, hh, -⟩
  simp only [fakeSubsystems, List.mem_cons, List.not_mem_nil, or_false] at hconf
  rcases hconf with rfl | rfl
  · simp at hh
  · exact ⟨rfl, rfl, rfl⟩

theorem routing_of_test_frame :
    ∃ w' calls, processIncomingMessage true fakeSubsystems
        (ascii "456,FAKE,SER_DES_MESSAGE,PAYLOAD" ++ [0]) fakeWorld = .ok (w', calls) ∧
      ((firstFailing (routingChecks true fakeSubsystems
            (ascii "456,FAKE,SER_DES_MESSAGE,PAYLOAD" ++ [0]) fakeWorld) = none ∧
          Enqueued true fakeSubsystems (ascii "456,FAKE,SER_DES_MESSAGE,PAYLOAD" ++ [0])
            fakeWorld w' calls) ∨
        ∃ code, firstFailing (routingChecks true fakeSubsystems
            (ascii "456,FAKE,SER_DES_MESSAGE,PAYLOAD" ++ [0]) fakeWorld) = some code ∧
          Rejected true fakeSubsystems (ascii "456,FAKE,SER_DES_MESSAGE,PAYLOAD" ++ [0]) code
            fakeWorld w' calls) :=
  routing_all_or_nothing true fakeSubsystems fakeSubsystems_wired
    (ascii "456,FAKE,SER_DES_MESSAGE,PAYLOAD" ++ [0]) fakeWorld (by decide)

end TestRegistry

end Ratfist.RoutingOutcomes
