import Ratfist.ReceivedStream
import Ratfist.SentLine

/-!
The line looped back: what the transmit worker has sent comes back to the receive worker of
the same program, as with a terminal that echoes. Replies have no parsing function and error
messages no transaction id, so that nothing reaches a subsystem and every text that is heard
is answered by one error.
-/
namespace Ratfist.EchoedLine

open CString Constants Assembler FrameScan FrameRoundTrip Subsystem Routing RoutingOutcomes
  TransmitQueue Transmit FieldText SentLine ReceivedStream Runs

variable {σ μ δ : Type} {good : σ → Prop}
  {payloadText : MessageHandler σ δ → Message δ → σ → Option (List Byte)}
  {subsystems : List (SubsystemMessageConf σ μ δ)}

/-- What is sent is not taken for a request: names are no numbers, and names of messages that
are sent have no parsing function. -/
structure OneWay (payloadText : MessageHandler σ δ → Message δ → σ → Option (List Byte))
    (subsystems : List (SubsystemMessageConf σ μ δ)) : Prop where
  names : ∀ conf ∈ subsystems, FieldOf comma (cstr conf.subsystemName) ∧
    parseTransactionId (cstr conf.subsystemName) = none
  replies : ∀ conf ∈ subsystems, ∀ handler ∈ conf.messageHandlers,
    handler.serializationFunc.isSome → FieldOf comma (cstr handler.messageName) ∧
      ∀ tid save, ∃ code, findHandler subsystems tid (cstr conf.subsystemName)
        (cstr handler.messageName) save = .rejected code
  separated : ∀ handler msg env text, payloadText handler msg env = some text →
    ∃ rest, text = comma :: rest

def Refused (nullAtEnd : Bool) (subsystems : List (SubsystemMessageConf σ μ δ))
    (text : List Byte) : Prop :=
  ∃ code, lookup nullAtEnd subsystems (text ++ [0]) = .rejected code

/-- An error message has a name where the transaction id should be. -/
theorem errorText_refused (nullAtEnd : Bool) {subsystemName : List Byte} (code : ℤ)
    (hname : FieldOf comma (cstr subsystemName))
    (hno : parseTransactionId (cstr subsystemName) = none) :
    Refused nullAtEnd subsystems (errorText subsystemName code) := by
  have htext : errorText subsystemName code ++ [0] =
      cstr subsystemName ++ comma :: (ascii "ERROR," ++ decimalInt code ++ [0]) := by
    simp [errorText, ascii, comma]
  refine ⟨messageParsingError, ?_⟩
  rw [lookup_eq, htext, tokens_field (by decide) hname]
  simp only [hno]

/-- A reply has a known name and no parsing function. -/
theorem messageText_refused (nullAtEnd : Bool) (h : OneWay payloadText subsystems)
    {conf : SubsystemMessageConf σ μ δ} (hconf : conf ∈ subsystems) {msg : Message δ} {env : σ}
    {text : List Byte} (htext : messageText payloadText conf msg env = some text) :
    Refused nullAtEnd subsystems text := by
  unfold messageText at htext
  cases hget : conf.messageHandlers[msg.type]? with
  | none => simp [hget] at htext
  | some handler =>
    simp only [hget] at htext
    split_ifs at htext with hser
    obtain ⟨payload, hpayload, rfl⟩ := Option.map_eq_some_iff.mp htext
    obtain ⟨rest, rfl⟩ := h.separated handler msg env payload hpayload
    obtain ⟨hname, -⟩ := h.names conf hconf
    obtain ⟨hmsg, hrejected⟩ := h.replies conf hconf handler (List.mem_of_getElem? hget) hser
    have hbytes : messagePrefix conf handler msg ++ comma :: rest ++ [0] =
        decimal msg.transactionId ++ comma :: (cstr conf.subsystemName ++
          comma :: (cstr handler.messageName ++ comma :: (rest ++ [0]))) := by
      simp [messagePrefix]
    rw [Refused, hbytes, lookup_eq, tokens_field (by decide) (decimal_field (by decide) _),
      tokens_field (by decide) hname, tokens_field (by decide) hmsg]
    cases htid : parseTransactionId (decimal msg.transactionId) with
    | none => exact ⟨messageParsingError, by simp only [htid]⟩
    | some tid =>
      simp only [htid]
      exact hrejected tid _

theorem itemText_refused (nullAtEnd : Bool) (h : OneWay payloadText subsystems)
    {ctx : TxWorkerContext σ μ δ} {item : Item μ} {text : List Byte}
    (htext : itemText payloadText subsystems ctx item = some text) :
    Refused nullAtEnd subsystems text := by
  cases item with
  | ownError code =>
    cases htext
    exact errorText_refused nullAtEnd code (by unfold FieldOf; decide) (by decide)
  | subsystemError q code =>
    obtain ⟨conf, hfind, rfl⟩ := Option.map_eq_some_iff.mp htext
    obtain ⟨hname, hno⟩ := h.names conf (List.mem_of_find?_eq_some hfind)
    exact errorText_refused nullAtEnd code hname hno
  | message q msg =>
    obtain ⟨conf, hfind, hmsg⟩ := Option.bind_eq_some_iff.mp htext
    exact messageText_refused nullAtEnd h (List.mem_of_find?_eq_some hfind) hmsg

/-- Run lemma: every text that is heard is refused. -/
theorem heard_refused {n : ℕ} (nullAtEnd : Bool) (h : OneWay payloadText subsystems)
    {start : TxWorkerContext σ μ δ} {calls : List (Vector Byte n × ℕ)} {t : Talk σ μ δ}
    (hrun : runs (talkStep payloadText subsystems) calls ⟨start, [], []⟩ = some t) :
    ∀ text ∈ t.heard, Refused nullAtEnd subsystems text := by
  refine runs_invariant (fun t : Talk σ μ δ => ∀ text ∈ t.heard,
    Refused nullAtEnd subsystems text) ?_ (by simp) hrun
  intro call s t hs hstep text htext
  unfold talkStep at hstep
  split at hstep
  · cases hstep
    rcases List.mem_append.mp htext with hearlier | hnew
    · exact hs text hearlier
    · obtain ⟨item, -, hitem⟩ := Option.bind_eq_some_iff.mp (Option.mem_toList.mp hnew)
      obtain ⟨hfits, -⟩ := Option.filter_eq_some_iff.mp hitem
      obtain ⟨hsome, -⟩ := Option.filter_eq_some_iff.mp hfits
      exact itemText_refused nullAtEnd h hsome
  · cases hstep

section Looped

variable [DecidableEq μ]

omit [DecidableEq μ] in
theorem reportAll_ok (codes : List ℤ) (w : World σ μ δ) (before : List (Call μ)) :
    reportAll codes (.ok (w, before)) =
      .ok ({ w with
        errMsgQueue := codes.foldl (fun box code => (box.write code).2) w.errMsgQueue },
        before ++ codes.map .scheduled) := by
  induction codes generalizing w before with
  | nil => simp [reportAll]
  | cons code codes ih =>
    have hlater := ih (w.scheduleErrMessage code) (before ++ [.scheduled code])
    simpa [reportAll, report, World.scheduleErrMessage] using hlater

/-- Refused messages are errors one after the other. -/
theorem refused_reported (nullAtEnd : Bool) {texts : List (List Byte)}
    (h : ∀ text ∈ texts, Refused nullAtEnd subsystems text) (r : Result σ μ δ) :
    ∃ codes : List ℤ, codes.length = texts.length ∧
      (texts.map fun text => RxEvent.delivered (text ++ [0])).foldl
        (outcome nullAtEnd subsystems) r = reportAll codes r := by
  induction texts generalizing r with
  | nil => exact ⟨[], rfl, rfl⟩
  | cons text texts ih =>
    obtain ⟨code, hcode⟩ := h text List.mem_cons_self
    have hone : outcome nullAtEnd subsystems r (.delivered (text ++ [0])) = report code r := by
      cases r with
      | error failed => rfl
      | ok done => simp only [outcome, route, processIncomingMessage, hcode, report]
    obtain ⟨codes, hlen, hfold⟩ :=
      ih (fun text' htext' => h text' (List.mem_cons_of_mem text htext')) (report code r)
    refine ⟨code :: codes, by rw [List.length_cons, List.length_cons, hlen], ?_⟩
    rw [List.map_cons, List.foldl_cons, hone, hfold]
    rfl

/-- Any run of the transmit worker, looped back in any state of the receive worker: no
subsystem notices, and there are as many errors as texts were heard. -/
theorem echo_ignored (b b' : Board) (hb : b.bspMaxMessageLength ≤ b'.bspMaxMessageLength)
    (nullAtEnd : Bool) (hspoken : Spoken good payloadText subsystems)
    (honeway : OneWay payloadText subsystems) {start : TxWorkerContext σ μ δ}
    (hstart : good start.env) (calls : List (Vector Byte b.bspMaxMessageLength × ℕ))
    (scribble : Vector Byte b'.bspMaxMessageLength → Vector Byte b'.bspMaxMessageLength)
    {ctx : RxWorkerContext b'.bspMaxMessageLength (Result σ μ δ)} {s : Scan}
    (hctx : Refines ctx s) {w : World σ μ δ} {before : List (Call μ)}
    (hworld : ctx.subsystems = .ok (w, before)) :
    ∃ t ctx', ∃ codes : List ℤ,
      runs (talkStep payloadText subsystems) calls ⟨start, [], []⟩ = some t ∧
      runs (receiveByte nullAtEnd subsystems scribble) t.line ctx = some ctx' ∧
      ctx'.subsystems = .ok ({ w with
        errMsgQueue := codes.foldl (fun box code => (box.write code).2) w.errMsgQueue },
        before ++ codes.map .scheduled) ∧
      codes.length = t.heard.length := by
  have hn : 1 < b.bspMaxMessageLength := by cases b <;> decide
  obtain ⟨t, hrun, sent, hline, hheard⟩ := talk_run hn hb hspoken hstart calls
  obtain ⟨ctx', hreceive, -, hsame⟩ := receive_run nullAtEnd subsystems scribble hctx t.line
  obtain ⟨codes, hlen, hfold⟩ := refused_reported nullAtEnd
    (heard_refused nullAtEnd honeway hrun) (.ok (w, before))
  refine ⟨t, ctx', codes, hrun, hreceive, ?_, hlen⟩
  rw [hsame, hworld, hline, scan_sent, ← hheard, hfold, reportAll_ok]

end Looped

section Spinner

open SpinnerMessages SpinnerPools Serializers PlanReadBack

variable {F : Type} {legs : ℕ}

theorem spinner_oneWay (libc : Libc F) (text : F → List Byte)
    (stale : (room : ℕ) → Vector Byte room) :
    OneWay (spinnerText text) [spinnerConf (n := legs) libc (spinnerSerializers text stale)] where
  names := by
    intro conf hconf
    obtain rfl := List.mem_singleton.mp hconf
    change FieldOf comma (cstr (ascii "SPINNER")) ∧
      parseTransactionId (cstr (ascii "SPINNER")) = none
    unfold FieldOf
    decide
  replies := by
    intro conf hconf handler hhandler hser
    obtain rfl := List.mem_singleton.mp hconf
    have hmem : handler ∈ msgHandlers libc (spinnerSerializers text stale) := hhandler
    simp only [msgHandlers, List.mem_cons, List.not_mem_nil, or_false] at hmem
    have hfield : ∀ name ∈ [ascii "PLAN_REPLY", ascii "STATE_REPLY", ascii "RET_VAL"],
        FieldOf comma (cstr name) := by
      unfold FieldOf
      decide
    rcases hmem with rfl | rfl | rfl | rfl | rfl | rfl | rfl <;> cases hser
    · exact ⟨hfield _ (by simp), fun _ _ => ⟨missingMessageHandlerError, rfl⟩⟩
    · exact ⟨hfield _ (by simp), fun _ _ => ⟨missingMessageHandlerError, rfl⟩⟩
    · exact ⟨hfield _ (by simp), fun _ _ => ⟨missingMessageHandlerError, rfl⟩⟩
  separated := by
    intro handler msg env payload hpayload
    unfold spinnerText at hpayload
    split_ifs at hpayload
    · cases hpayload
      exact ⟨_, rfl⟩
    · obtain ⟨stateName, -, rfl⟩ := Option.map_eq_some_iff.mp hpayload
      exact ⟨_, rfl⟩
    · cases hpayload
      exact ⟨_, rfl⟩

/-- The four texts of `replyContext` come back to a board that is receiving something. -/
theorem spinner_replies_ignored : ∃ t ctx', ∃ codes : List ℤ,
    runs (talkStep (spinnerText wholeText)
        [spinnerConf wholeNumbers (spinnerSerializers wholeText zeros)])
      [(Vector.replicate 250 0, 0), (Vector.replicate 250 0, 0), (Vector.replicate 250 0, 26),
        (Vector.replicate 250 0, 10), (Vector.replicate 250 0, 0)] ⟨replyContext, [], []⟩ =
      some t ∧
    runs (receiveByte true [spinnerConf wholeNumbers (spinnerSerializers wholeText zeros)] id)
      t.line (dispatcherInit (Vector.replicate Board.stm32f411discovery.bspMaxMessageLength 0)
        (.ok (replyContext.toWorld, []))) = some ctx' ∧
    ctx'.subsystems = .ok ({ replyContext.toWorld with
      errMsgQueue :=
        codes.foldl (fun box code => (box.write code).2) replyContext.toWorld.errMsgQueue },
      [] ++ codes.map .scheduled) ∧
    codes.length = t.heard.length :=
  echo_ignored .stm32f072discovery .stm32f411discovery (by decide) true
    (spinner_spoken wholeNumbers wholeText_clean zeros)
    (spinner_oneWay wholeNumbers wholeText zeros)
    ⟨fun _ => show samplePlan.planLegCount.toNat ≤ 20 by decide,
      fun _ => show (0 : UInt32).toNat < spinStateLut.length by decide⟩ _ id
    (refines_init (by decide) _ _) rfl

end Spinner

section Meteo

open MeteoPools Serializers

variable {F : Type} [Zero F]

theorem meteo_oneWay (text : F → List Byte) (fmt : Formatting F) :
    OneWay (meteoText text) [meteoConf fmt] where
  names := by
    intro conf hconf
    obtain rfl := List.mem_singleton.mp hconf
    change FieldOf comma (cstr (ascii "METEO")) ∧ parseTransactionId (cstr (ascii "METEO")) = none
    unfold FieldOf
    decide
  replies := by
    intro conf hconf handler hhandler hser
    obtain rfl := List.mem_singleton.mp hconf
    have hmem : handler ∈ msgHandlers fmt := hhandler
    simp only [msgHandlers, List.mem_cons, List.not_mem_nil, or_false] at hmem
    have hfield : ∀ name ∈ [ascii "TEMPERATURE_REPLY", ascii "PRESSURE_REPLY",
        ascii "HUMIDITY_REPLY", ascii "LIGHT_LEVEL_REPLY"], FieldOf comma (cstr name) := by
      unfold FieldOf
      decide
    rcases hmem with rfl | rfl | rfl | rfl | rfl | rfl | rfl | rfl <;> cases hser
    · exact ⟨hfield _ (by simp), fun _ _ => ⟨missingMessageHandlerError, rfl⟩⟩
    · exact ⟨hfield _ (by simp), fun _ _ => ⟨missingMessageHandlerError, rfl⟩⟩
    · exact ⟨hfield _ (by simp), fun _ _ => ⟨missingMessageHandlerError, rfl⟩⟩
    · exact ⟨hfield _ (by simp), fun _ _ => ⟨missingMessageHandlerError, rfl⟩⟩
  separated := by
    intro handler msg env payload hpayload
    obtain ⟨data, -, rfl⟩ := Option.map_eq_some_iff.mp hpayload
    exact ⟨_, rfl⟩

end Meteo

end Ratfist.EchoedLine
