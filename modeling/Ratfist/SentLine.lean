import Ratfist.FieldText
import Ratfist.MeteoPools
import Ratfist.OutgoingFrames
import Ratfist.PlanReadBack

/-!
What the transmit worker puts on the line, and what a receive worker at the other end
makes of it. A message that the transmit buffer takes only in part is a cut frame on the
line; the '$' of the next frame ends it.
-/
namespace Ratfist.SentLine

open CString CheckedArray Constants Assembler FrameScan FrameRoundTrip Subsystem Routing Transmit
  QueueScan TransmitQueue OutgoingFrames FieldText Runs

variable {n m : ℕ} {σ μ δ : Type} {subsystems : List (SubsystemMessageConf σ μ δ)}

def lineBytes (taken : ℕ) (item : Option (Item μ)) (calls : List (Call μ)) : List Byte :=
  match item with
  | some (.message _ _) => (Call.writes calls).flatMap (List.take taken)
  | _ => (Call.writes calls).flatten

/-! What should be heard of a call. -/

/-- `payloadText` is what a serializer writes for a message, `none` if it refuses. -/
def messageText (payloadText : MessageHandler σ δ → Message δ → σ → Option (List Byte))
    (conf : SubsystemMessageConf σ μ δ) (msg : Message δ) (env : σ) : Option (List Byte) :=
  match conf.messageHandlers[msg.type]? with
  | none => none
  | some handler =>
    if handler.serializationFunc.isSome then
      (payloadText handler msg env).map (messagePrefix conf handler msg ++ ·)
    else none

/-- The text of an item; a queue belongs to the first subsystem that has registered it. -/
def itemText (payloadText : MessageHandler σ δ → Message δ → σ → Option (List Byte))
    (subsystems : List (SubsystemMessageConf σ μ δ)) (ctx : TxWorkerContext σ μ δ) :
    Item μ → Option (List Byte)
  | .ownError code => some (errorText (ascii "DISPATCHER") code)
  | .subsystemError q code =>
    (subsystems.find? fun conf => conf.outgoingErrQueue = some q).map fun conf =>
      errorText conf.subsystemName code
  | .message q msg =>
    (subsystems.find? fun conf => conf.outgoingMsgQueue = some q).bind fun conf =>
      messageText payloadText conf (ctx.messages msg) ctx.env

def kept (taken : ℕ) (text : List Byte) : Item μ → ℕ
  | .message _ _ => taken
  | _ => (frame text).length

/-- Texts whose frames leave a byte of the message buffer free are sent, and are heard if the
transmit buffer takes the whole frame. -/
def announced (n : ℕ) (payloadText : MessageHandler σ δ → Message δ → σ → Option (List Byte))
    (subsystems : List (SubsystemMessageConf σ μ δ)) (ctx : TxWorkerContext σ μ δ) (taken : ℕ)
    (item : Option (Item μ)) : Option (List Byte) :=
  item.bind fun item => ((itemText payloadText subsystems ctx item).filter fun text =>
    (frame text).length < n).filter fun text => (frame text).length ≤ kept taken text item

/-- The worker, the line and, as a history variable, what should be heard. -/
structure Talk (σ μ δ : Type) where
  ctx : TxWorkerContext σ μ δ
  line : List Byte
  heard : List (List Byte)

/-- One call of `check_outgoing_queue`; `taken` is what the transmit buffer accepts. -/
def talkStep (payloadText : MessageHandler σ δ → Message δ → σ → Option (List Byte))
    (subsystems : List (SubsystemMessageConf σ μ δ)) (call : Vector Byte n × ℕ)
    (s : Talk σ μ δ) : Option (Talk σ μ δ) :=
  match checkOutgoingQueue call.1 call.2 subsystems s.ctx with
  | some (.ok (ctx, item, calls)) =>
    some ⟨ctx, s.line ++ lineBytes call.2 item calls,
      s.heard ++ (announced n payloadText subsystems s.ctx call.2 item).toList⟩
  | _ => none

/-- No byte that the receive worker takes for the start or the end of a message. -/
def Clean (text : List Byte) : Prop := dollar ∉ text ∧ lf ∉ text

instance instDecidableClean (text : List Byte) : Decidable (Clean text) :=
  inferInstanceAs (Decidable (_ ∧ _))

def Spells (serializationFunc : Message δ → ℕ → σ → List Byte × ℤ) (msg : Message δ) (env : σ) :
    Option (List Byte) → Prop
  | none => ∀ room, 0 < room → ∃ output len,
      serializationFunc msg room env = (output, len) ∧ output.length ≤ room ∧ len ≤ 0
  | some text => text ≠ [] ∧ Clean text ∧ ∀ room, 0 < room → ∃ output len,
      serializationFunc msg room env = (output, len) ∧ output.length ≤ room ∧
        (text.length < room → len = text.length ∧ text <+: output) ∧
        (room ≤ text.length → len = -1)

/-- What is asked of the registered subsystems, whose memory is `good` from the start. -/
structure Spoken (good : σ → Prop)
    (payloadText : MessageHandler σ δ → Message δ → σ → Option (List Byte))
    (subsystems : List (SubsystemMessageConf σ μ δ)) : Prop where
  canFree : CanFree subsystems
  keeps : ∀ conf ∈ subsystems, ∀ free, conf.freeMessage = some free →
    ∀ msg content env, good env → good (free msg content env)
  named : ∀ conf ∈ subsystems, cstr conf.subsystemName ≠ [] ∧ Clean (cstr conf.subsystemName)
  handlers : ∀ conf ∈ subsystems, ∀ handler ∈ conf.messageHandlers,
    Clean (cstr handler.messageName)
  spells : ∀ conf ∈ subsystems, ∀ msg handler f, conf.messageHandlers[msg.type]? = some handler →
    handler.serializationFunc = some f → ∀ env, good env →
      Spells f msg env (payloadText handler msg env)

theorem Clean.append {a b : List Byte} (ha : Clean a) (hb : Clean b) : Clean (a ++ b) := by
  constructor
  · rw [List.mem_append, not_or]
    exact ⟨ha.1, hb.1⟩
  · rw [List.mem_append, not_or]
    exact ⟨ha.2, hb.2⟩

theorem clean_decimal (k : ℕ) : Clean (decimal k) :=
  ⟨fun h => absurd (mem_decimal h).1 (by decide), fun h => absurd (mem_decimal h).1 (by decide)⟩

theorem clean_decimalInt (k : ℤ) : Clean (decimalInt k) := by
  cases k with
  | ofNat k => exact clean_decimal k
  | negSucc k => exact Clean.append (a := [45]) (by decide) (clean_decimal (k + 1))

theorem Clean.sendable {text : List Byte} (h : Clean text) (hlen : 5 ≤ text.length)
    (hfits : (frame text).length ≤ m) : Sendable m text :=
  ⟨h.1, fun _ hi => h.2 (List.mem_of_getElem? hi.2), hlen, hfits⟩

theorem errorText_clean {subsystemName : List Byte} (h : Clean (cstr subsystemName)) (code : ℤ) :
    Clean (errorText subsystemName code) ∧ 5 ≤ (errorText subsystemName code).length := by
  constructor
  · exact (h.append (by decide)).append (clean_decimalInt code)
  · have hlen : (ascii ",ERROR,").length = 7 := rfl
    simp only [errorText, List.length_append, hlen]
    omega

theorem messagePrefix_clean {conf : SubsystemMessageConf σ μ δ} {handler : MessageHandler σ δ}
    (hname : Clean (cstr conf.subsystemName)) (hmsg : Clean (cstr handler.messageName))
    (msg : Message δ) : Clean (messagePrefix conf handler msg) := by
  have hcomma : Clean [comma] := by decide
  exact (clean_decimal _).append (hcomma.append (hname.append (hcomma.append hmsg)))

theorem messagePrefix_length {conf : SubsystemMessageConf σ μ δ}
    (hname : cstr conf.subsystemName ≠ []) (handler : MessageHandler σ δ) (msg : Message δ) :
    4 ≤ (messagePrefix conf handler msg).length := by
  have hid := List.length_pos_of_ne_nil (decimal_ne_nil msg.transactionId)
  have hpos := List.length_pos_of_ne_nil hname
  simp only [messagePrefix, List.length_append, List.length_cons]
  omega

variable {good : σ → Prop}
  {payloadText : MessageHandler σ δ → Message δ → σ → Option (List Byte)}

/-- What comes out of the formatting of a message. -/
theorem formatMessage_spoken (hn : 1 < n) (buf : Vector Byte n)
    (hspoken : Spoken good payloadText subsystems) {conf : SubsystemMessageConf σ μ δ}
    (hconf : conf ∈ subsystems) (msg : Message δ) {env : σ} (henv : good env) :
    ∃ r, formatMessage buf conf msg env = some r ∧
      r.toOption = ((messageText payloadText conf msg env).filter fun text =>
        (frame text).length < n).map frame := by
  cases hget : conf.messageHandlers[msg.type]? with
  | none =>
    refine ⟨.error missingMessageHandlerError, ?_, ?_⟩
    · simp only [formatMessage, hget]
    · simp only [messageText, hget]
      rfl
  | some handler =>
    cases hser : handler.serializationFunc with
    | none =>
      refine ⟨.error missingMessageHandlerError, ?_, ?_⟩
      · simp only [formatMessage, hget, hser]
      · simp only [messageText, hget, hser]
        rfl
    | some f =>
      have hspells := hspoken.spells conf hconf msg handler f hget hser env henv
      have htext : messageText payloadText conf msg env =
          (payloadText handler msg env).map (messagePrefix conf handler msg ++ ·) := by
        simp only [messageText, hget, hser, Option.isSome_some, if_true]
      rw [htext]
      cases hpay : payloadText handler msg env with
      | none =>
        rw [hpay] at hspells
        by_cases hroom : 1 + (messagePrefix conf handler msg).length < n
        · obtain ⟨output, len, hrun, hbound, hlen⟩ :=
            hspells (n - (1 + (messagePrefix conf handler msg).length)) (by omega)
          exact ⟨_, formatMessage_refused hn buf hget hser hroom hrun hbound hlen, rfl⟩
        · exact ⟨_, formatMessage_no_room hn buf hget hser (Nat.le_of_not_lt hroom), rfl⟩
      | some text =>
        rw [hpay] at hspells
        obtain ⟨hne, -, hf⟩ := hspells
        obtain ⟨r, hr, hout⟩ :=
          PlanReadBack.formatMessage_honours hn buf msg env hget hser hne hf
        refine ⟨r, hr, ?_⟩
        rw [Option.map_some]
        by_cases hfits : (frame (messagePrefix conf handler msg ++ text)).length < n
        · rw [if_pos hfits] at hout
          rw [hout, Option.filter_some_pos (by simpa using hfits)]
          rfl
        · rw [if_neg hfits] at hout
          rw [Option.filter_some_neg (by simpa using hfits)]
          rcases hout with rfl | rfl <;> rfl

/-- An error message is sent if its frame leaves a byte of the buffer free. -/
theorem errMessage_sent (hn : 1 < n) (buf : Vector Byte n) (subsystemName : List Byte)
    (code : ℤ) : processOutgoingErrMessage buf subsystemName code =
      some (((some (errorText subsystemName code)).filter fun text =>
        (frame text).length < n).map frame) := by
  have hne : errorText subsystemName code ≠ [] := by simp [errorText, ascii]
  unfold processOutgoingErrMessage
  change (startFrame buf (errorText subsystemName code)).bind _ = _
  rcases startFrame_cases hn buf hne with ⟨hlong, hstart⟩ | ⟨hroom, buf', hstart, hholds⟩
  · have hframe := frame_length (errorText subsystemName code)
    rw [hstart, Option.filter_some_neg (by simp; omega)]
    rfl
  · simp only [hstart, closeFrame_eq hholds hroom, Option.bind_eq_bind, Option.bind_some]
    by_cases hfits : (frame (errorText subsystemName code)).length < n
    · rw [if_neg (Nat.not_le.mpr hfits), Option.filter_some_pos (by simpa using hfits)]
      rfl
    · rw [if_pos (Nat.le_of_not_lt hfits), Option.filter_some_neg (by simpa using hfits)]
      rfl

theorem writes_callsFor (taken : ℕ) (r : Except ℤ (List Byte)) (msg : μ) :
    Call.writes (callsFor taken r ++ [.free msg]) = r.toOption.toList := by
  cases r with
  | error code => rfl
  | ok chars =>
    by_cases htaken : taken = chars.length <;> simp [callsFor, htaken, Call.writes] <;> rfl

theorem messageText_clean (hspoken : Spoken good payloadText subsystems)
    {conf : SubsystemMessageConf σ μ δ} (hconf : conf ∈ subsystems) {msg : Message δ} {env : σ}
    (henv : good env) {text : List Byte} (h : messageText payloadText conf msg env = some text) :
    Clean text ∧ 5 ≤ text.length := by
  unfold messageText at h
  cases hget : conf.messageHandlers[msg.type]? with
  | none => simp [hget] at h
  | some handler =>
    have hmem := List.mem_of_getElem? hget
    obtain ⟨hne, hname⟩ := hspoken.named conf hconf
    cases hser : handler.serializationFunc with
    | none => simp [hget, hser] at h
    | some f =>
      have hspells := hspoken.spells conf hconf msg handler f hget hser env henv
      simp only [hget, hser, Option.isSome_some, if_true] at h
      obtain ⟨payload, hpay, rfl⟩ := Option.map_eq_some_iff.mp h
      rw [hpay] at hspells
      obtain ⟨hpayload, hclean, -⟩ := hspells
      refine ⟨(messagePrefix_clean hname (hspoken.handlers conf hconf handler hmem) msg).append
        hclean, ?_⟩
      have hlen := messagePrefix_length hne handler msg
      have hpos := List.length_pos_of_ne_nil hpayload
      rw [List.length_append]
      omega

theorem itemText_clean (hspoken : Spoken good payloadText subsystems) {ctx : TxWorkerContext σ μ δ}
    (henv : good ctx.env) {item : Item μ} {text : List Byte}
    (h : itemText payloadText subsystems ctx item = some text) :
    Clean text ∧ 5 ≤ text.length := by
  cases item with
  | ownError code =>
    cases h
    exact errorText_clean (by decide) code
  | subsystemError q code =>
    obtain ⟨conf, hfind, rfl⟩ := Option.map_eq_some_iff.mp h
    exact errorText_clean (hspoken.named conf (List.mem_of_find?_eq_some hfind)).2 code
  | message q msg =>
    obtain ⟨conf, hfind, htext⟩ := Option.bind_eq_some_iff.mp h
    exact messageText_clean hspoken (List.mem_of_find?_eq_some hfind) henv htext

/-- What a call puts on the line is as much of a frame as the buffer takes. -/
theorem call_line (hn : 1 < n) (buf : Vector Byte n) (taken : ℕ)
    (hspoken : Spoken good payloadText subsystems) {ctx : TxWorkerContext σ μ δ}
    (henv : good ctx.env) :
    ∃ ctx' item calls, checkOutgoingQueue buf taken subsystems ctx =
        some (.ok (ctx', item, calls)) ∧ good ctx'.env ∧
      lineBytes taken item calls = (item.bind fun item =>
        ((itemText payloadText subsystems ctx item).filter fun text =>
          (frame text).length < n).map fun text =>
            (frame text).take (kept taken text item)).toList.flatten := by
  have herror (name : List Byte) (item : Item μ) (code : ℤ) (ctx' : TxWorkerContext σ μ δ)
      (hitem : ∀ text, kept taken text item = (frame text).length)
      (hcalls : ∀ calls, lineBytes taken (some item) calls = (Call.writes calls).flatten) :
      ∃ calls, sendError buf name item code ctx' = some (.ok (ctx', some item, calls)) ∧
        lineBytes taken (some item) calls = (((some (errorText name code)).filter fun text =>
          (frame text).length < n).map fun text =>
            (frame text).take (kept taken text item)).toList.flatten := by
    simp only [sendError, errMessage_sent hn buf name code, Option.bind_eq_bind, Option.bind_some]
    refine ⟨_, rfl, ?_⟩
    rw [hcalls]
    simp only [hitem, List.take_length]
    generalize ((some (errorText name code)).filter fun text =>
      decide ((frame text).length < n)) = text?
    cases text? <;> rfl
  unfold checkOutgoingQueue
  rcases hown : ctx.errMsgQueue.read with _ | ⟨code, mailbox⟩
  swap
  · obtain ⟨calls, hsend, hline⟩ := herror (ascii "DISPATCHER") (.ownError code) code
      { ctx with errMsgQueue := mailbox } (fun _ => rfl) (fun _ => rfl)
    exact ⟨_, _, calls, hsend, henv, hline⟩
  rcases herr : firstReady SubsystemMessageConf.outgoingErrQueue Mailbox.read ctx.errMailboxes
    subsystems with _ | ⟨conf, q, code, mailbox⟩
  swap
  · obtain ⟨calls, hsend, hline⟩ := herror conf.subsystemName (.subsystemError q code) code
      { ctx with errMailboxes := Function.update ctx.errMailboxes q mailbox } (fun _ => rfl)
      (fun _ => rfl)
    refine ⟨_, _, calls, hsend, henv, ?_⟩
    rw [hline, Option.bind_some, itemText, firstReady_find herr]
    rfl
  rcases hmsg : firstReady SubsystemMessageConf.outgoingMsgQueue Mailbox.read ctx.mailboxes
    subsystems with _ | ⟨conf, q, msg, mailbox⟩
  · exact ⟨ctx, none, [], rfl, henv, rfl⟩
  · obtain ⟨hconf, hq, -⟩ := firstReady_eq_some hmsg
    have hsome := hspoken.canFree conf hconf (by rw [hq]; rfl)
    obtain ⟨free, hfree⟩ := Option.isSome_iff_exists.mp hsome
    obtain ⟨r, hr, hout⟩ := formatMessage_spoken hn buf hspoken hconf (ctx.messages msg) henv
    have hrun := processOutgoingMessage_eq taken
      (w := { ctx.toWorld with mailboxes := Function.update ctx.mailboxes q mailbox }) hfree hr
    refine ⟨_, some (.message q msg), callsFor taken r ++ [.free msg],
      by simp only [sendMessage, hrun, Option.bind_eq_bind, Option.bind_some]; rfl, ?_, ?_⟩
    · exact hspoken.keeps conf hconf free hfree msg _ _ henv
    · simp only [lineBytes, writes_callsFor, hout, Option.bind_some, itemText,
        firstReady_find hmsg]
      generalize ((messageText payloadText conf (ctx.messages msg) ctx.env).filter fun text =>
        decide ((frame text).length < n)) = text?
      cases text? <;> simp [kept]

/-- A frame on the line, as far as the transmit buffer has taken it. -/
theorem sent_of_text (hnm : n ≤ m) {text : List Byte} (hclean : Clean text)
    (hlen : 5 ≤ text.length) (hfits : (frame text).length < n) (k : ℕ) :
    ∃ sent : Sent m, (frame text).take k = sent.bytes ∧
      sent.payload? = (some text).filter fun text => (frame text).length ≤ k := by
  have hsendable : Sendable m text := hclean.sendable hlen (by omega)
  by_cases hk : (frame text).length ≤ k
  · refine ⟨.whole text hsendable [] (by simp), ?_, ?_⟩
    · rw [List.take_of_length_le hk, Sent.bytes, List.append_nil]
    · rw [Option.filter_some_pos (by simpa using hk)]
      rfl
  · refine ⟨.cut text hsendable k (Nat.lt_of_not_le hk), rfl, ?_⟩
    rw [Option.filter_some_neg (by simpa using hk)]
    rfl

/-- Step lemma: what is heard of a call is what it announces. -/
theorem call_heard (hn : 1 < n) (hnm : n ≤ m) (hspoken : Spoken good payloadText subsystems)
    (call : Vector Byte n × ℕ) {s : Talk σ μ δ} (henv : good s.ctx.env) :
    ∃ t, talkStep payloadText subsystems call s = some t ∧ good t.ctx.env ∧ ∃ sent : List (Sent m),
      t.line = s.line ++ sent.flatMap Sent.bytes ∧
      t.heard = s.heard ++ sent.filterMap Sent.payload? := by
  obtain ⟨ctx, item, calls, hcheck, hgood, hline⟩ := call_line hn call.1 call.2 hspoken henv
  have hstep : talkStep payloadText subsystems call s = some ⟨ctx,
      s.line ++ lineBytes call.2 item calls,
      s.heard ++ (announced n payloadText subsystems s.ctx call.2 item).toList⟩ := by
    simp only [talkStep, hcheck]
  refine ⟨_, hstep, hgood, ?_⟩
  rw [hline]
  cases item with
  | none => exact ⟨[], by simp, by simp [announced]⟩
  | some item =>
    simp only [Option.bind_some, announced]
    cases htext : (itemText payloadText subsystems s.ctx item).filter fun text =>
        (frame text).length < n with
    | none => exact ⟨[], by simp, by simp⟩
    | some text =>
      obtain ⟨hitem, hfits⟩ := Option.filter_eq_some_iff.mp htext
      obtain ⟨hclean, hlen⟩ := itemText_clean hspoken henv hitem
      obtain ⟨sent, hbytes, hpayload⟩ := sent_of_text hnm hclean hlen (by simpa using hfits)
        (kept call.2 text item)
      refine ⟨[sent], by simp [hbytes], ?_⟩
      have hfilter : (some text).filter (fun text =>
          decide ((frame text).length ≤ kept call.2 text item)) = sent.payload? := by
        rw [hpayload]
        simp only [Option.filter_some]
      rw [hfilter]
      cases hheard : sent.payload? <;> simp [hheard]

/-- Run lemma: the line is a sequence of whole and cut frames, the whole ones those announced. -/
theorem talk_run (hn : 1 < n) (hnm : n ≤ m) (hspoken : Spoken good payloadText subsystems)
    {start : TxWorkerContext σ μ δ} (hstart : good start.env)
    (calls : List (Vector Byte n × ℕ)) :
    ∃ t, runs (talkStep payloadText subsystems) calls ⟨start, [], []⟩ = some t ∧
      ∃ sent : List (Sent m), t.line = sent.flatMap Sent.bytes ∧
        t.heard = sent.filterMap Sent.payload? := by
  have hinit : good start.env ∧ ∃ sent : List (Sent m),
      ([] : List Byte) = sent.flatMap Sent.bytes ∧
        ([] : List (List Byte)) = sent.filterMap Sent.payload? := ⟨hstart, [], rfl, rfl⟩
  have htotal : ∃ t, runs (talkStep payloadText subsystems) calls ⟨start, [], []⟩ = some t ∧
      good t.ctx.env ∧ ∃ sent : List (Sent m), t.line = sent.flatMap Sent.bytes ∧
        t.heard = sent.filterMap Sent.payload? := by
    refine runs_total ?_ calls hinit
    rintro call s ⟨henv, earlier, hline, hheard⟩
    obtain ⟨t, hstep, hgood, sent, htline, htheard⟩ := call_heard hn hnm hspoken call henv
    refine ⟨t, hstep, hgood, earlier ++ sent, ?_, ?_⟩
    · rw [htline, hline, List.flatMap_append]
    · rw [htheard, hheard, List.filterMap_append]
  obtain ⟨t, hrun, -, hsent⟩ := htotal
  exact ⟨t, hrun, hsent⟩

/-- Any run of the transmit worker of one board, heard by the receive worker of another in
whatever state an earlier stream has left it: each announced text arrives once, in order and
unchanged, and nothing else does. -/
theorem line_carries_announced (b b' : Board) (hb : b.bspMaxMessageLength ≤ b'.bspMaxMessageLength)
    (hspoken : Spoken good payloadText subsystems) {start : TxWorkerContext σ μ δ}
    (hstart : good start.env) (calls : List (Vector Byte b.bspMaxMessageLength × ℕ)) {ρ : Type}
    (process : Vector Byte b'.bspMaxMessageLength → ρ → Vector Byte b'.bspMaxMessageLength × ρ)
    (buf : Vector Byte b'.bspMaxMessageLength) (registry : ρ) (earlier : List Byte) :
    ∃ t ctx₀ ctx before,
      runs (talkStep payloadText subsystems) calls ⟨start, [], []⟩ = some t ∧
      feed process (dispatcherInit buf registry) earlier = some (ctx₀, before) ∧
      feed process ctx₀ t.line =
        some (ctx, t.heard.map fun text => .delivered (text ++ [0])) := by
  have hn : 1 < b.bspMaxMessageLength := by cases b <;> decide
  obtain ⟨t, hrun, sent, hline, hheard⟩ := talk_run hn hb hspoken hstart calls
  obtain ⟨ctx₀, hpre, href⟩ := feed_init (by omega) process buf registry earlier
  obtain ⟨ctx, hfeed, -⟩ := feed_refines process ctx₀ _ href t.line
  rw [hline, scan_sent, ← hheard, ← hline] at hfeed
  exact ⟨t, ctx₀, ctx, _, hrun, hpre, hfeed⟩

section Spinner

open SpinnerMessages SpinnerPools Serializers PlanReadBack

variable {F : Type} {legs : ℕ}

/-- What the parsing functions and the handlers leave in the payloads. -/
def GoodPayloads (mem : Memory legs F) : Prop :=
  (∀ i, (mem.plans i).planLegCount.toNat ≤ legs) ∧
    ∀ i, (mem.smalls i).state.toNat < spinStateLut.length

def spinnerText (text : F → List Byte) (_ : MessageHandler (Memory legs F) DataPtr)
    (msg : Message DataPtr) (mem : Memory legs F) : Option (List Byte) :=
  if msg.type = planReply then some (planText text (mem.plans msg.data.idx))
  else if msg.type = stateReply then
    (spinStateLut[(mem.smalls msg.data.idx).state.toNat]?).map
      (stateText text (mem.smalls msg.data.idx))
  else if msg.type = retVal then some (retText (mem.smalls msg.data.idx))
  else none

theorem spells_of_honours {text : List Byte} (hne : text ≠ []) (hclean : Clean text)
    {serialize : (room : ℕ) → Vector Byte room → Option (Vector Byte room × ℤ)}
    {stale : (room : ℕ) → Vector Byte room}
    (h : ∀ room, 0 < room → Honours text (serialize room (stale room)))
    {serializationFunc : Message δ → ℕ → σ → List Byte × ℤ} {msg : Message δ} {env : σ}
    (hf : ∀ room, serializationFunc msg room env = asCallback serialize stale room) :
    Spells serializationFunc msg env (some text) := by
  refine ⟨hne, hclean, ?_⟩
  intro room hroom
  rw [hf]
  exact asCallback_honours serialize stale (h room hroom)

theorem planText_clean {text : F → List Byte} (htext : ∀ x, Clean (text x))
    (data : SpinPlanData legs F) : Clean (planText text data) := by
  have hcomma : Clean [comma] := by decide
  have hlegs : ∀ legs : List (PwmLeg F), Clean (legs.flatMap (legText text)) := by
    intro legs
    induction legs with
    | nil => exact ⟨by simp, by simp⟩
    | cons leg legs ih =>
      have hleg : Clean (legText text leg) :=
        hcomma.append ((clean_decimal _).append (hcomma.append (htext leg.targetPct)))
      exact hleg.append ih
  exact (hcomma.append (clean_decimal _)).append (hlegs _)

theorem stateText_clean {text : F → List Byte} (htext : ∀ x, Clean (text x))
    (data : SmallSizeMsgData F) {stateName : List Byte} (h : stateName ∈ spinStateLut) :
    Clean (stateText text data stateName) := by
  have hcomma : Clean [comma] := by decide
  have hname : Clean stateName := by
    have hall : ∀ name ∈ spinStateLut, Clean name := by decide
    exact hall stateName h
  exact hcomma.append ((clean_decimal _).append (hcomma.append (hname.append
    (hcomma.append ((clean_decimal _).append (hcomma.append (htext data.outputValPct)))))))

theorem spinner_spoken (libc : Libc F) {text : F → List Byte} (htext : ∀ x, Clean (text x))
    (stale : (room : ℕ) → Vector Byte room) :
    Spoken GoodPayloads (spinnerText text)
      [spinnerConf (n := legs) libc (spinnerSerializers text stale)] where
  canFree := by
    intro conf hconf _
    obtain rfl := List.mem_singleton.mp hconf
    rfl
  keeps := by
    intro conf hconf free hfree msg content env henv
    obtain rfl := List.mem_singleton.mp hconf
    cases hfree
    unfold spinnerFreeMessage
    cases dataPoolOf content.type with
    | none => exact henv
    | some pool => exact henv
  named := by
    intro conf hconf
    obtain rfl := List.mem_singleton.mp hconf
    change cstr (ascii "SPINNER") ≠ [] ∧ Clean (cstr (ascii "SPINNER"))
    decide
  handlers := by
    intro conf hconf handler hhandler
    obtain rfl := List.mem_singleton.mp hconf
    have hall : ∀ name ∈ [ascii "SET_PLAN", ascii "GET_PLAN", ascii "PLAN_REPLY",
        ascii "SET_STATE", ascii "GET_STATE", ascii "STATE_REPLY", ascii "RET_VAL"],
        Clean (cstr name) := by decide
    exact hall _ (List.mem_map_of_mem (f := MessageHandler.messageName) hhandler)
  spells := by
    rintro conf hconf ⟨type, tid, data⟩ handler f hget hser mem ⟨hplans, hsmalls⟩
    obtain rfl := List.mem_singleton.mp hconf
    have hget : (msgHandlers libc (spinnerSerializers text stale))[type]? = some handler := hget
    rcases type with _ | _ | _ | _ | _ | _ | _ | type <;> cases hget <;> cases hser
    · exact spells_of_honours (by simp [planText]) (planText_clean htext _)
        (fun room hroom => serializePlanReply_honours hroom text _ (hplans data.idx) (stale room))
        (fun _ => rfl)
    · obtain ⟨stateName, hname⟩ : ∃ stateName,
          spinStateLut[(mem.smalls data.idx).state.toNat]? = some stateName :=
        ⟨_, List.getElem?_eq_getElem (hsmalls data.idx)⟩
      have htext' : spinnerText text
          ⟨ascii "STATE_REPLY", none, some (spinnerSerializers text stale).serializeStateReply⟩
          ⟨stateReply, tid, data⟩ mem = some (stateText text (mem.smalls data.idx) stateName) := by
        change (spinStateLut[(mem.smalls data.idx).state.toNat]?).map _ = _
        rw [hname]
        rfl
      change Spells _ _ _ (spinnerText text _ ⟨stateReply, tid, data⟩ mem)
      rw [htext']
      exact spells_of_honours (by simp [stateText])
        (stateText_clean htext _ (List.mem_of_getElem? hname))
        (fun room hroom => serializeStateReply_honours hroom text _ hname (stale room))
        (fun _ => rfl)
    · have hcomma : Clean [comma] := by decide
      exact spells_of_honours (by simp) (hcomma.append (clean_decimalInt _))
        (fun room hroom => serializeText_honours hroom (by simp) (stale room))
        (fun _ => rfl)

/-- Errors of the dispatcher and of the spinner, a return value and a plan. -/
def replyContext : TxWorkerContext (Memory 20 ℕ) ℕ DataPtr :=
  ⟨⟨⟨[], fun _ => [], fun _ => ⟨retVal, 7, ⟨.smalls, 0⟩⟩, fun _ => samplePlan,
        fun _ => ⟨0, 0, 0, 0, -3⟩⟩,
      fun msg => if msg = 4 then ⟨retVal, 7, ⟨.smalls, 0⟩⟩ else ⟨planReply, 8, ⟨.plans, 0⟩⟩,
      fun q => ⟨10, if q = 1 then [4, 5, 4] else []⟩, ⟨10, [-1]⟩⟩,
    fun q => ⟨10, if q = 2 then [-2] else []⟩⟩

theorem wholeText_clean (x : ℕ) : Clean (wholeText x) :=
  (clean_decimal x).append (by decide)

example : (runs (talkStep (spinnerText wholeText)
      [spinnerConf wholeNumbers (spinnerSerializers wholeText zeros)])
    [(Vector.replicate 250 0, 0), (Vector.replicate 250 0, 0), (Vector.replicate 250 0, 26),
      (Vector.replicate 250 0, 10), (Vector.replicate 250 0, 0)]
    ⟨replyContext, [], []⟩).map Talk.heard =
      some [ascii "DISPATCHER,ERROR,-1", ascii "SPINNER,ERROR,-2", ascii "7,SPINNER,RET_VAL,-3",
        ascii "DISPATCHER,ERROR,-9"] := by
  decide +kernel

/-- The plan is cut after ten bytes, which the dispatcher reports. -/
theorem spinner_replies_heard : ∃ t ctx₀ ctx before,
    runs (talkStep (spinnerText wholeText)
        [spinnerConf wholeNumbers (spinnerSerializers wholeText zeros)])
      [(Vector.replicate 250 0, 0), (Vector.replicate 250 0, 0), (Vector.replicate 250 0, 26),
        (Vector.replicate 250 0, 10), (Vector.replicate 250 0, 0)] ⟨replyContext, [], []⟩ =
      some t ∧
    feed (fun buf (s : Unit) => (buf, s))
      (dispatcherInit (Vector.replicate Board.stm32f411discovery.bspMaxMessageLength 0) ())
      (ascii "$12,SPI") = some (ctx₀, before) ∧
    feed (fun buf s => (buf, s)) ctx₀ t.line =
      some (ctx, t.heard.map fun text => .delivered (text ++ [0])) :=
  line_carries_announced .stm32f072discovery .stm32f411discovery (by decide)
    (spinner_spoken wholeNumbers wholeText_clean zeros)
    ⟨fun _ => show samplePlan.planLegCount.toNat ≤ 20 by decide,
      fun _ => show (0 : UInt32).toNat < spinStateLut.length by decide⟩ _ _ _ () _

end Spinner

section Meteo

open MeteoPools Serializers

variable {F : Type}

def meteoText (text : F → List Byte) (_ : MessageHandler (MeteoPools.Memory F) (Option ℕ))
    (msg : Message (Option ℕ)) (mem : MeteoPools.Memory F) : Option (List Byte) :=
  msg.data.map fun data => responseText text (mem.payloads data).stdResponse

theorem responseText_clean {text : F → List Byte} (htext : ∀ x, Clean (text x))
    (payload : StdResponsePayload F) : Clean (responseText text payload) := by
  have hcomma : Clean [comma] := by decide
  exact hcomma.append ((clean_decimal _).append (hcomma.append (htext payload.value)))

/-- The weather station's memory needs no invariant: a message without payload is refused. -/
theorem meteo_spoken [Zero F] {text : F → List Byte} (htext : ∀ x, Clean (text x))
    (fmt : Formatting F)
    (hpieces : ∀ payload, (fmt.pieces payload).flatten = responseText text payload) :
    Spoken (fun _ => True) (meteoText text) [meteoConf fmt] where
  canFree := by
    intro conf hconf _
    obtain rfl := List.mem_singleton.mp hconf
    rfl
  keeps := by
    intros
    trivial
  named := by
    intro conf hconf
    obtain rfl := List.mem_singleton.mp hconf
    change cstr (ascii "METEO") ≠ [] ∧ Clean (cstr (ascii "METEO"))
    decide
  handlers := by
    intro conf hconf handler hhandler
    obtain rfl := List.mem_singleton.mp hconf
    have hall : ∀ name ∈ [ascii "GET_TEMPERATURE", ascii "GET_PRESSURE", ascii "GET_HUMIDITY",
        ascii "GET_LIGHT_LEVEL", ascii "TEMPERATURE_REPLY", ascii "PRESSURE_REPLY",
        ascii "HUMIDITY_REPLY", ascii "LIGHT_LEVEL_REPLY"], Clean (cstr name) := by decide
    exact hall _ (List.mem_map_of_mem (f := MessageHandler.messageName) hhandler)
  spells := by
    rintro conf hconf ⟨type, tid, data⟩ handler f hget hser mem -
    obtain rfl := List.mem_singleton.mp hconf
    have hget : (msgHandlers fmt)[type]? = some handler := hget
    have hf : f = serializeResponse fmt := by
      rcases type with _ | _ | _ | _ | _ | _ | _ | _ | type <;> cases hget <;> cases hser <;> rfl
    subst hf
    cases data with
    | none =>
      intro room _
      exact ⟨(fmt.stale room).toList, -1, rfl, by simp, by decide⟩
    | some data =>
      exact spells_of_honours (by simp [responseText]) (responseText_clean htext _)
        (fun room hroom => stdResponseSerialize_honours hroom text fmt.pieces _ (hpieces _)
          (fmt.stale room)) (fun _ => rfl)

end Meteo

end Ratfist.SentLine
