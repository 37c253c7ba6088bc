import Ratfist.Routing

/-!
`process_outgoing_message` and `process_outgoing_err_message`: a text is built in a
buffer on the stack, whose stale content is a parameter, and goes to the transmit
buffer in one write. Whatever is written is a frame; `none` is an access outside the
buffer or a subtraction below zero.
-/
namespace Ratfist.Transmit

open CString CheckedArray Constants Subsystem Assembler Routing FrameRoundTrip

variable {n : ℕ} {σ μ δ : Type}

/-- `snprintf(&buf[off], size, …)` for a call that produces `text`. -/
def snprintf (buf : Vector Byte n) (off size : ℕ) (text : List Byte) :
    Option (Vector Byte n × ℤ) := do
  let buf ← if size = 0 then some buf else writeList buf off (text.take (size - 1) ++ [0])
  some (buf, text.length)

/-- The '$' and the text behind it: the buffer and the position reached, or the error. -/
def startFrame (buf : Vector Byte n) (text : List Byte) :
    Option (Except ℤ (Vector Byte n × ℕ)) := do
  let buf ← write buf 0 dollar
  let (buf, prefixLen) ← snprintf buf 1 (← sub n 1) text
  if prefixLen ≤ 0 then some (.error messageFormattingError)
  else
    let posInBuf := 1 + prefixLen.toNat
    if n ≤ posInBuf then some (.error messageTooLongError) else some (.ok (buf, posInBuf))

/-- The checksum and CR LF: what goes to the transmit buffer, or the error. -/
def closeFrame (buf : Vector Byte n) (posInBuf : ℕ) : Option (Except ℤ (List Byte)) := do
  let csum ← calcChecksum (buf.toList.drop 1) (← sub posInBuf 1)
  let (buf, csumLen) ←
    snprintf buf posInBuf (← sub n posInBuf) (star :: (hex2 csum ++ [cr, lf]))
  if csumLen ≤ 0 then some (.error messageFormattingError)
  else
    let posInBuf := posInBuf + csumLen.toNat
    if n ≤ posInBuf then some (.error messageTooLongError)
    else some (.ok (buf.toList.take posInBuf))

/-- Transaction id, subsystem name and message name. -/
def messagePrefix (conf : SubsystemMessageConf σ μ δ) (handler : MessageHandler σ δ)
    (msg : Message δ) : List Byte :=
  decimal msg.transactionId ++ comma :: (cstr conf.subsystemName ++
    comma :: cstr handler.messageName)

/-- The text of a message, up to the write to the transmit buffer. -/
def formatMessage (buf : Vector Byte n) (conf : SubsystemMessageConf σ μ δ) (msg : Message δ)
    (env : σ) : Option (Except ℤ (List Byte)) :=
  match conf.messageHandlers[msg.type]? with
  | none => some (.error missingMessageHandlerError)
  | some handler =>
    match handler.serializationFunc with
    | none => some (.error missingMessageHandlerError)
    | some serializationFunc => do
      match ← startFrame buf (messagePrefix conf handler msg) with
      | .error code => some (.error code)
      | .ok (buf, posInBuf) =>
        let (output, payloadLen) := serializationFunc msg (← sub n posInBuf) env
        let buf ← writeList buf posInBuf output
        if payloadLen ≤ 0 then some (.error messageFormattingError)
        else
          let posInBuf := posInBuf + payloadLen.toNat
          if n ≤ posInBuf then some (.error messageTooLongError) else closeFrame buf posInBuf

/-- `taken` is what `os_char_buffer_write_buf` returns. -/
def processOutgoingMessage (buf : Vector Byte n) (taken : ℕ)
    (conf : SubsystemMessageConf σ μ δ) (msg : μ) (w : World σ μ δ) : Option (Result σ μ δ) := do
  match ← formatMessage buf conf (w.messages msg) w.env with
  | .error code => some (giveBack conf msg (w.scheduleErrMessage code) [.scheduled code])
  | .ok chars =>
    if taken ≠ chars.length then
      some (giveBack conf msg (w.scheduleErrMessage txBufferFull)
        [.written chars, .scheduled txBufferFull])
    else some (giveBack conf msg w [.written chars])

def errorText (subsystemName : List Byte) (code : ℤ) : List Byte :=
  cstr subsystemName ++ ascii ",ERROR," ++ decimalInt code

/-- The text of an error message; when it cannot be built nothing is sent. -/
def processOutgoingErrMessage (buf : Vector Byte n) (subsystemName : List Byte) (errCode : ℤ) :
    Option (Option (List Byte)) := do
  match ← startFrame buf (errorText subsystemName errCode) with
  | .error _ => some none
  | .ok (buf, posInBuf) => do
    match ← closeFrame buf posInBuf with
    | .error _ => some none
    | .ok chars => some (some chars)

theorem snprintf_spec {buf : Vector Byte n} {front : List Byte} (h : Holds buf front)
    (size : ℕ) (hpos : 0 < size) (hroom : front.length + size ≤ n) (text : List Byte) :
    ∃ buf', snprintf buf front.length size text = some (buf', (text.length : ℤ)) ∧
      Holds buf' (front ++ text.take (size - 1) ++ [0]) := by
  have hlen : (text.take (size - 1) ++ [0]).length ≤ size := by
    rw [List.length_append, List.length_take, List.length_singleton]
    omega
  obtain ⟨buf', hbuf', hholds⟩ := h.writeList (text.take (size - 1) ++ [0]) (by omega)
  refine ⟨buf', ?_, ?_⟩
  · simp only [snprintf, if_neg (Nat.ne_of_gt hpos), hbuf']
    rfl
  · rwa [← List.append_assoc] at hholds

/-- A text that fits is in the buffer behind the '$'; any other is reported. -/
theorem startFrame_cases (hn : 1 < n) (buf : Vector Byte n) {text : List Byte}
    (hne : text ≠ []) :
    (n ≤ 1 + text.length ∧ startFrame buf text = some (.error messageTooLongError)) ∨
      (1 + text.length < n ∧ ∃ buf', startFrame buf text = some (.ok (buf', 1 + text.length)) ∧
        Holds buf' (dollar :: text)) := by
  have hdollar : Holds (buf.set 0 dollar (by omega)) [dollar] :=
    (Holds.nil buf).push dollar (by simp; omega)
  obtain ⟨buf', hbuf', hnul⟩ := snprintf_spec hdollar (n - 1) (by omega)
    (by simp; omega) text
  have hholds := hnul.left
  have hlen : ¬ (text.length : ℤ) ≤ 0 := by
    have := List.length_pos_of_ne_nil hne
    omega
  have hstart : startFrame buf text = if n ≤ 1 + text.length then
      some (.error messageTooLongError) else some (.ok (buf', 1 + text.length)) := by
    rw [List.length_singleton] at hbuf'
    simp only [startFrame, write_of_lt buf dollar (by omega : 0 < n), sub_of_le (by omega : 1 ≤ n),
      Option.bind_eq_bind, Option.bind_some, hbuf', if_neg hlen, Int.toNat_natCast]
  by_cases hlong : n ≤ 1 + text.length
  · exact Or.inl ⟨hlong, by rw [hstart, if_pos hlong]⟩
  · refine Or.inr ⟨by omega, buf', by rw [hstart, if_neg hlong], ?_⟩
    rwa [List.take_of_length_le (by omega)] at hholds

/-- The frame of what is in the buffer, if it leaves room for one more byte. -/
theorem closeFrame_eq {buf : Vector Byte n} {body : List Byte} (h : Holds buf (dollar :: body))
    (hroom : 1 + body.length < n) :
    closeFrame buf (1 + body.length) =
      some (if n ≤ (frame body).length then .error messageTooLongError
        else .ok (frame body)) := by
  have hfront : (dollar :: body).length = 1 + body.length := Nat.add_comm _ _
  have hbody : (buf.toList.drop 1).take body.length = body := by
    rw [List.take_drop, ← hfront, h, List.drop_one, List.tail_cons]
  have hcsum : calcChecksum (buf.toList.drop 1) body.length = some (xorBytes body) := by
    rw [calcChecksum_eq _ _ (by simp; omega), hbody]
  obtain ⟨buf', hbuf', hnul⟩ := snprintf_spec h (n - (1 + body.length)) (by omega)
    (by omega) (star :: (hex2 (xorBytes body) ++ [cr, lf]))
  have hholds := hnul.left
  rw [hfront] at hbuf'
  have htail : (star :: (hex2 (xorBytes body) ++ [cr, lf])).length = 5 := rfl
  have hlen : (frame body).length = 1 + body.length + 5 := by
    rw [frame_length]
    omega
  rw [htail] at hbuf'
  have hclose : closeFrame buf (1 + body.length) = if n ≤ (frame body).length then
      some (.error messageTooLongError)
      else some (.ok (buf'.toList.take (frame body).length)) := by
    simp only [closeFrame, sub_of_le (Nat.le_add_right 1 _), sub_of_le (Nat.le_of_lt hroom),
      Nat.add_sub_cancel_left, Option.bind_eq_bind, Option.bind_some, hcsum, hbuf', hlen]
    rfl
  rw [hclose]
  by_cases hlong : n ≤ (frame body).length
  · rw [if_pos hlong, if_pos hlong]
  · rw [if_neg hlong, if_neg hlong]
    rw [List.take_of_length_le (by rw [htail]; omega)] at hholds
    have hframe : dollar :: body ++ star :: (hex2 (xorBytes body) ++ [cr, lf]) = frame body := rfl
    rw [hframe] at hholds
    rw [hholds]

/-- The serializer does not write beyond the room it is given. -/
def Bounded (conf : SubsystemMessageConf σ μ δ) : Prop :=
  ∀ handler ∈ conf.messageHandlers, ∀ f, handler.serializationFunc = some f →
    ∀ msg room env, (f msg room env).1.length ≤ room

/-- The frame of the prefix and of as many bytes as the serializer has reported: these begin
with those that it has written, or are the first of them. -/
inductive Framed (n : ℕ) (conf : SubsystemMessageConf σ μ δ) (msg : Message δ) (env : σ) :
    List Byte → Prop
  | mk (handler : MessageHandler σ δ) (serializationFunc : Message δ → ℕ → σ → List Byte × ℤ)
      (payload : List Byte) (hget : conf.messageHandlers[msg.type]? = some handler)
      (hser : handler.serializationFunc = some serializationFunc) (hne : payload ≠ [])
      (hlen : (payload.length : ℤ) =
        (serializationFunc msg (n - (1 + (messagePrefix conf handler msg).length)) env).2)
      (hbytes :
        payload <+: (serializationFunc msg
          (n - (1 + (messagePrefix conf handler msg).length)) env).1 ∨
        (serializationFunc msg (n - (1 + (messagePrefix conf handler msg).length)) env).1 <+:
          payload) :
      Framed n conf msg env (frame (messagePrefix conf handler msg ++ payload))

/-- A message is formatted without leaving the buffer, and what comes out is the frame of
the prefix and as many bytes as the serializer has reported. -/
theorem formatMessage_frame (hn : 1 < n) (buf : Vector Byte n)
    {conf : SubsystemMessageConf σ μ δ} (hconf : Bounded conf) (msg : Message δ) (env : σ) :
    ∃ r, formatMessage buf conf msg env = some r ∧
      ∀ chars, r = .ok chars → chars.length < n ∧ Framed n conf msg env chars := by
  have hnone (code : ℤ) (chars : List Byte) (h : (Except.error code : Except ℤ (List Byte)) =
      .ok chars) : chars.length < n ∧ Framed n conf msg env chars := by
    cases h
  unfold formatMessage
  cases hget : conf.messageHandlers[msg.type]? with
  | none => exact ⟨_, rfl, hnone missingMessageHandlerError⟩
  | some handler =>
    cases hser : handler.serializationFunc with
    | none => exact ⟨.error missingMessageHandlerError, by simp only [hser], hnone _⟩
    | some f =>
      have hne : messagePrefix conf handler msg ≠ [] := by simp [messagePrefix]
      have hbound := hconf handler (List.mem_of_getElem? hget) f hser msg
      have hframed (payload : List Byte) :=
        @Framed.mk σ μ δ n conf msg env handler f payload hget hser
      generalize hpre : messagePrefix conf handler msg = pre at hne hframed
      simp only [hser, hpre]
      rcases startFrame_cases hn buf hne with ⟨-, hstart⟩ | ⟨hroom, buf', hstart, hholds⟩
      · exact ⟨.error messageTooLongError, by simp only [hstart]; rfl, hnone _⟩
      have hbound := hbound (n - (1 + pre.length)) env
      rcases hout : f msg (n - (1 + pre.length)) env with ⟨output, payloadLen⟩
      rw [hout] at hbound hframed
      have hbound : output.length ≤ n - (1 + pre.length) := hbound
      obtain ⟨buf'', hwrite, hholds'⟩ := hholds.writeList output (by simp; omega)
      rw [List.length_cons, Nat.add_comm] at hwrite
      simp only [hstart, Option.bind_eq_bind, Option.bind_some, sub_of_le (Nat.le_of_lt hroom),
        hout, hwrite]
      split_ifs with hempty hlong
      · exact ⟨_, rfl, hnone _⟩
      · exact ⟨_, rfl, hnone _⟩
      · obtain ⟨payload, hpayload⟩ :
            ∃ payload, (buf''.toList.drop (dollar :: pre).length).take payloadLen.toNat = payload :=
          ⟨_, rfl⟩
        have hbody := hholds'.left.extend (k := payloadLen.toNat) (by simp; omega)
        have hlen : payload.length = payloadLen.toNat := by
          simp [← hpayload]
          omega
        have hwritten : output <+: buf''.toList.drop (dollar :: pre).length := by
          rw [hholds'.drop (by simp), List.drop_left]
          exact List.prefix_append _ _
        rw [hpayload] at hbody
        have hbody : Holds buf'' (dollar :: (pre ++ payload)) := hbody
        have hclose := closeFrame_eq hbody (by simp; omega)
        rw [List.length_append, hlen, ← Nat.add_assoc] at hclose
        refine ⟨_, hclose, ?_⟩
        intro chars hchars
        split_ifs at hchars with hfits
        cases hchars
        refine ⟨Nat.lt_of_not_le hfits, hframed payload ?_ ?_ ?_⟩
        · exact List.ne_nil_of_length_pos (by omega)
        · omega
        · exact List.prefix_or_prefix_of_prefix (hpayload ▸ List.take_prefix _ _) hwritten

section Text

variable {conf : SubsystemMessageConf σ μ δ} {handler : MessageHandler σ δ}
  {serializationFunc : Message δ → ℕ → σ → List Byte × ℤ} {msg : Message δ} {env : σ}
  {text output : List Byte}

theorem messagePrefix_ne_nil (conf : SubsystemMessageConf σ μ δ) (handler : MessageHandler σ δ)
    (msg : Message δ) : messagePrefix conf handler msg ≠ [] := by
  simp [messagePrefix]

theorem formatMessage_no_room (hn : 1 < n) (buf : Vector Byte n)
    (hget : conf.messageHandlers[msg.type]? = some handler)
    (hser : handler.serializationFunc = some serializationFunc)
    (hlong : n ≤ 1 + (messagePrefix conf handler msg).length) :
    formatMessage buf conf msg env = some (.error messageTooLongError) := by
  unfold formatMessage
  simp only [hget, hser]
  rcases startFrame_cases hn buf (messagePrefix_ne_nil conf handler msg) with
    ⟨-, hstart⟩ | ⟨hroom, -⟩
  · simp only [hstart]
    rfl
  · omega

/-- A serializer that writes nothing or fails. -/
theorem formatMessage_refused (hn : 1 < n) (buf : Vector Byte n)
    (hget : conf.messageHandlers[msg.type]? = some handler)
    (hser : handler.serializationFunc = some serializationFunc)
    (hroom : 1 + (messagePrefix conf handler msg).length < n) {len : ℤ}
    (hf : serializationFunc msg (n - (1 + (messagePrefix conf handler msg).length)) env =
      (output, len))
    (hbound : output.length ≤ n - (1 + (messagePrefix conf handler msg).length))
    (hlen : len ≤ 0) :
    formatMessage buf conf msg env = some (.error messageFormattingError) := by
  have hnamed := messagePrefix_ne_nil conf handler msg
  unfold formatMessage
  simp only [hget, hser]
  generalize messagePrefix conf handler msg = pre at *
  rcases startFrame_cases hn buf hnamed with ⟨hlong, -⟩ | ⟨-, buf', hstart, hholds⟩
  · omega
  obtain ⟨buf'', hwrite, -⟩ := hholds.writeList output (by simp; omega)
  rw [List.length_cons, Nat.add_comm] at hwrite
  simp only [hstart, Option.bind_eq_bind, Option.bind_some, sub_of_le (Nat.le_of_lt hroom), hf,
    hwrite, if_pos hlen]

/-- A text that the serializer has written in full makes a frame, or is too long. -/
theorem formatMessage_text (hn : 1 < n) (buf : Vector Byte n)
    (hget : conf.messageHandlers[msg.type]? = some handler)
    (hser : handler.serializationFunc = some serializationFunc) (hne : text ≠ [])
    (hroom : 1 + (messagePrefix conf handler msg).length < n)
    (hf : serializationFunc msg (n - (1 + (messagePrefix conf handler msg).length)) env =
      (output, (text.length : ℤ)))
    (hbound : output.length ≤ n - (1 + (messagePrefix conf handler msg).length))
    (htext : text.length < n - (1 + (messagePrefix conf handler msg).length) →
      text <+: output) :
    formatMessage buf conf msg env =
      some (if n ≤ (frame (messagePrefix conf handler msg ++ text)).length
        then .error messageTooLongError
        else .ok (frame (messagePrefix conf handler msg ++ text))) := by
  have hpos := List.length_pos_of_ne_nil hne
  have hnamed := messagePrefix_ne_nil conf handler msg
  unfold formatMessage
  simp only [hget, hser]
  generalize messagePrefix conf handler msg = pre at *
  rcases startFrame_cases hn buf hnamed with ⟨hlong, -⟩ | ⟨-, buf', hstart, hholds⟩
  · omega
  obtain ⟨buf'', hwrite, hholds'⟩ := hholds.writeList output (by simp; omega)
  rw [List.length_cons, Nat.add_comm] at hwrite
  have hframe : (frame (pre ++ text)).length = 1 + pre.length + text.length + 5 := by
    rw [frame_length, List.length_append]
    omega
  simp only [hstart, Option.bind_eq_bind, Option.bind_some, sub_of_le (Nat.le_of_lt hroom), hf,
    hwrite, if_neg (show ¬ (text.length : ℤ) ≤ 0 by omega), Int.toNat_natCast]
  by_cases hlong : n ≤ 1 + pre.length + text.length
  · rw [if_pos hlong, if_pos (by omega)]
  · obtain ⟨rest, rfl⟩ := htext (by omega)
    have hbody : Holds buf'' (dollar :: (pre ++ text)) := by
      rw [← List.append_assoc] at hholds'
      exact hholds'.left
    have hclose := closeFrame_eq hbody (by simp; omega)
    rw [List.length_append, ← Nat.add_assoc] at hclose
    rw [if_neg hlong, hclose]

/-- The serializer reports the length of its text also when that does not fit, as
`snprintf` does. -/
def Reports (serializationFunc : Message δ → ℕ → σ → List Byte × ℤ) (msg : Message δ) (env : σ)
    (text : List Byte) : Prop :=
  ∀ room, ∃ output, serializationFunc msg room env = (output, (text.length : ℤ)) ∧
    output.length ≤ room ∧ (text.length < room → text <+: output)

/-- Then all that counts is the length of the frame. -/
theorem formatMessage_reports (hn : 1 < n) (buf : Vector Byte n)
    (hget : conf.messageHandlers[msg.type]? = some handler)
    (hser : handler.serializationFunc = some serializationFunc) (hne : text ≠ [])
    (hreports : Reports serializationFunc msg env text) :
    formatMessage buf conf msg env =
      some (if n ≤ (frame (messagePrefix conf handler msg ++ text)).length
        then .error messageTooLongError
        else .ok (frame (messagePrefix conf handler msg ++ text))) := by
  by_cases hroom : 1 + (messagePrefix conf handler msg).length < n
  · obtain ⟨output, hf, hbound, htext⟩ :=
      hreports (n - (1 + (messagePrefix conf handler msg).length))
    exact formatMessage_text hn buf hget hser hne hroom hf hbound htext
  · have hlong : n ≤ (frame (messagePrefix conf handler msg ++ text)).length := by
      rw [frame_length, List.length_append]
      omega
    rw [if_pos hlong]
    exact formatMessage_no_room hn buf hget hser (Nat.le_of_not_lt hroom)

end Text

/-- The error that is scheduled when formatting has come to `r` and `taken` bytes are taken. -/
def scheduledCode (taken : ℕ) : Except ℤ (List Byte) → Option ℤ
  | .error code => some code
  | .ok chars => if taken = chars.length then none else some txBufferFull

/-- The calls before the message is freed, once formatting has come to `r`. -/
def callsFor (taken : ℕ) : Except ℤ (List Byte) → List (Call μ)
  | .error code => [.scheduled code]
  | .ok chars =>
    .written chars :: if taken = chars.length then [] else [.scheduled txBufferFull]

theorem freed_callsFor (taken : ℕ) (r : Except ℤ (List Byte)) :
    Call.freed (callsFor taken r : List (Call μ)) = [] := by
  cases r with
  | error code => rfl
  | ok chars =>
    rw [callsFor]
    split_ifs <;> rfl

theorem processOutgoingMessage_eq {buf : Vector Byte n} (taken : ℕ)
    {conf : SubsystemMessageConf σ μ δ} {free : μ → Message δ → σ → σ}
    (hfree : conf.freeMessage = some free) {msg : μ} {w : World σ μ δ}
    {r : Except ℤ (List Byte)} (hr : formatMessage buf conf (w.messages msg) w.env = some r) :
    processOutgoingMessage buf taken conf msg w = some (.ok
      ({ w with
          env := free msg (w.messages msg) w.env
          errMsgQueue := (scheduledCode taken r).elim w.errMsgQueue fun code =>
            (w.errMsgQueue.write code).2 }, callsFor taken r ++ [.free msg])) := by
  simp only [processOutgoingMessage, hr, Option.bind_eq_bind, Option.bind_some]
  cases r with
  | error code =>
    simp only [giveBack, hfree]
    rfl
  | ok chars =>
    by_cases htaken : taken = chars.length
    · simp only [htaken, ne_eq, not_true_eq_false, if_false, giveBack, hfree, callsFor,
        scheduledCode, if_true]
      rfl
    · simp only [htaken, ne_eq, not_false_eq_true, if_true, giveBack, hfree, callsFor,
        scheduledCode, if_false]
      rfl

structure Finished (conf : SubsystemMessageConf σ μ δ) (msg : μ) (w : World σ μ δ)
    (r : Except ℤ (List Byte)) (w' : World σ μ δ) (calls : List (Call μ)) : Prop where
  freed : Call.freed calls = [msg]
  env : ∃ free, conf.freeMessage = some free ∧ w'.env = free msg (w.messages msg) w.env
  messages : w'.messages = w.messages
  mailboxes : w'.mailboxes = w.mailboxes
  scheduled : Call.codes calls = [] ∧ w'.errMsgQueue = w.errMsgQueue ∨
    ∃ code, Call.codes calls = [code] ∧ w'.errMsgQueue = (w.errMsgQueue.write code).2
  failed : ∀ code, r = .error code → Call.writes calls = [] ∧ Call.codes calls = [code]
  written : ∀ chars, r = .ok chars → Call.writes calls = [chars] ∧
    (Call.codes calls = [] ∨ Call.codes calls = [txBufferFull])

theorem finished_of_eq (taken : ℕ) {conf : SubsystemMessageConf σ μ δ}
    {free : μ → Message δ → σ → σ} (hfree : conf.freeMessage = some free) {msg : μ}
    {w : World σ μ δ} (r : Except ℤ (List Byte)) :
    Finished conf msg w r
      { w with
        env := free msg (w.messages msg) w.env
        errMsgQueue := (scheduledCode taken r).elim w.errMsgQueue fun code =>
          (w.errMsgQueue.write code).2 } (callsFor taken r ++ [.free msg]) := by
  cases r with
  | error code =>
    refine ⟨rfl, ⟨free, hfree, rfl⟩, rfl, rfl, Or.inr ⟨code, rfl, rfl⟩, ?_, by simp⟩
    rintro code' ⟨⟩
    exact ⟨rfl, rfl⟩
  | ok chars =>
    by_cases htaken : taken = chars.length
    · simp only [scheduledCode, callsFor, if_pos htaken]
      refine ⟨rfl, ⟨free, hfree, rfl⟩, rfl, rfl, Or.inl ⟨rfl, rfl⟩, by simp, ?_⟩
      rintro chars' ⟨⟩
      exact ⟨rfl, Or.inl rfl⟩
    · simp only [scheduledCode, callsFor, if_neg htaken]
      refine ⟨rfl, ⟨free, hfree, rfl⟩, rfl, rfl, Or.inr ⟨txBufferFull, rfl, rfl⟩, by simp, ?_⟩
      rintro chars' ⟨⟩
      exact ⟨rfl, Or.inr rfl⟩

theorem processOutgoingMessage_finished {buf : Vector Byte n} (taken : ℕ)
    {conf : SubsystemMessageConf σ μ δ} {msg : μ} {w : World σ μ δ}
    {r : Except ℤ (List Byte)} (hfree : conf.freeMessage.isSome)
    (hr : formatMessage buf conf (w.messages msg) w.env = some r) :
    ∃ w' calls, processOutgoingMessage buf taken conf msg w = some (.ok (w', calls)) ∧
      Finished conf msg w r w' calls := by
  obtain ⟨free, hfree⟩ := Option.isSome_iff_exists.mp hfree
  exact ⟨_, _, processOutgoingMessage_eq taken hfree hr, finished_of_eq taken hfree r⟩

theorem outgoing_err_is_frame (hn : 1 < n) (buf : Vector Byte n) (subsystemName : List Byte)
    (errCode : ℤ) :
    ∃ r, processOutgoingErrMessage buf subsystemName errCode = some r ∧
      ∀ chars, r = some chars →
        chars = frame (errorText subsystemName errCode) := by
  unfold processOutgoingErrMessage
  generalize htext : errorText subsystemName errCode = text
  have hne : text ≠ [] := by
    rw [← htext]
    simp [errorText, ascii]
  rcases startFrame_cases hn buf hne with ⟨-, hstart⟩ | ⟨hroom, buf', hstart, hholds⟩
  · exact ⟨none, by simp only [hstart]; rfl, by simp⟩
  · simp only [hstart, closeFrame_eq hholds hroom, Option.bind_eq_bind, Option.bind_some]
    by_cases hlong : n ≤ (frame text).length
    · exact ⟨none, by simp only [if_pos hlong], by simp⟩
    · refine ⟨some (frame text), by simp only [if_neg hlong], ?_⟩
      intro chars hchars
      exact (Option.some.inj hchars).symm

end Ratfist.Transmit
