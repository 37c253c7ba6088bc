import Ratfist.RoutingOutcomes
import Ratfist.Transmit

/-!
The length limit in both directions. A frame may have `bspMaxMessageLength` bytes with
the '$' and the CR LF counted. The receive worker, which does not store the '$', takes
one byte more; `process_outgoing_message`, which keeps room for the NUL of `snprintf`,
sends one byte less.
-/
namespace Ratfist.LengthLimits

open CString CheckedArray Constants Subsystem Assembler FrameScan FrameRoundTrip Routing
  RoutingOutcomes Transmit

variable {σ μ δ : Type}

/-- A payload that no '$' and no CR LF interrupts. -/
structure Plain (payload : List Byte) : Prop where
  no_dollar : dollar ∉ payload
  no_crlf : ∀ i, ¬ (payload[i]? = some cr ∧ payload[i + 1]? = some lf)
  length_ge : 5 ≤ payload.length

theorem Plain.of_no_cr {payload : List Byte} (hdollar : dollar ∉ payload) (hcr : cr ∉ payload)
    (hlen : 5 ≤ payload.length) : Plain payload :=
  ⟨hdollar, fun _ h => hcr (List.mem_of_getElem? h.1), hlen⟩

theorem Plain.sendable {payload : List Byte} (h : Plain payload) :
    Sendable (frame payload).length payload :=
  ⟨h.no_dollar, h.no_crlf, h.length_ge, Nat.le_refl _⟩

/-- What the receive worker should make of the frame of `payload`. -/
def ReceivedByLimit (b : Board) (payload : List Byte) (events : List RxEvent) : Prop :=
  events = if (frame payload).length ≤ b.bspMaxMessageLength
    then [.delivered (payload ++ [0])] else [.scheduled messageTooLongError]

/-- What the transmit worker should do with a message of this payload; a write that the
transmit buffer does not take in full is reported besides. -/
def SentByLimit (b : Board) (payload : List Byte) (calls : List (Call μ)) : Prop :=
  if (frame payload).length ≤ b.bspMaxMessageLength then Call.writes calls = [frame payload]
  else Call.writes calls = [] ∧ Call.codes calls = [messageTooLongError]

/-- The message becomes `payload`: its prefix and a text whose length the serializer
always reports in full. -/
def Carries (conf : SubsystemMessageConf σ μ δ) (msg : Message δ) (env : σ)
    (text payload : List Byte) : Prop :=
  ∃ handler serializationFunc, conf.messageHandlers[msg.type]? = some handler ∧
    handler.serializationFunc = some serializationFunc ∧
    Reports serializationFunc msg env text ∧ payload = messagePrefix conf handler msg ++ text

/-- A serializer that reports nothing is refused, unless the prefix is already too long. -/
theorem formatMessage_empty {n : ℕ} (hn : 1 < n) (buf : Vector Byte n)
    {conf : SubsystemMessageConf σ μ δ} {msg : Message δ} {env : σ} {payload : List Byte}
    (h : Carries conf msg env [] payload) :
    formatMessage buf conf msg env = some (.error (if n + 5 ≤ (frame payload).length
      then messageTooLongError else messageFormattingError)) := by
  obtain ⟨handler, serializationFunc, hget, hser, hreports, rfl⟩ := h
  rw [List.append_nil]
  have hlen := frame_length (messagePrefix conf handler msg)
  by_cases hroom : 1 + (messagePrefix conf handler msg).length < n
  · obtain ⟨output, hf, hbound, -⟩ := hreports (n - (1 + (messagePrefix conf handler msg).length))
    rw [if_neg (by omega)]
    exact formatMessage_refused hn buf hget hser hroom hf hbound (Int.le_refl 0)
  · rw [if_pos (by omega)]
    exact formatMessage_no_room hn buf hget hser (Nat.le_of_not_lt hroom)

/-- The receive worker errs on frames of one byte more than the limit. -/
theorem receive_limit_iff (b : Board) {payload : List Byte} (hp : Plain payload)
    (process : Vector Byte b.bspMaxMessageLength → σ → Vector Byte b.bspMaxMessageLength × σ)
    (buf : Vector Byte b.bspMaxMessageLength) (subsystems : σ) (earlier : List Byte) :
    ∃ ctx₀ ctx before events,
      feed process (dispatcherInit buf subsystems) earlier = some (ctx₀, before) ∧
      feed process ctx₀ (frame payload) = some (ctx, events) ∧
      (ReceivedByLimit b payload events ↔
        (frame payload).length ≠ b.bspMaxMessageLength + 1) := by
  have hn : 0 < b.bspMaxMessageLength := by cases b <;> decide
  obtain ⟨ctx₀, hpre, href⟩ := feed_init hn process buf subsystems earlier
  obtain ⟨ctx, hfeed, -⟩ := feed_refines process ctx₀ _ href (frame payload)
  rw [scan_frame_limit hn hp.sendable] at hfeed
  refine ⟨ctx₀, ctx, _, _, hpre, hfeed, ?_⟩
  unfold ReceivedByLimit
  by_cases hle : (frame payload).length ≤ b.bspMaxMessageLength
  · rw [if_pos hle, if_pos (by omega)]
    simp only [true_iff]
    omega
  · rw [if_neg hle]
    by_cases heq : (frame payload).length = b.bspMaxMessageLength + 1
    · rw [if_pos (by omega)]
      simp [heq]
    · rw [if_neg (by omega)]
      simpa using heq

/-- The transmit worker errs on frames of exactly the limit, and on empty texts. -/
theorem send_limit_iff (b : Board) {payload text : List Byte}
    (buf : Vector Byte b.bspMaxMessageLength) (taken : ℕ) {conf : SubsystemMessageConf σ μ δ}
    (hfree : conf.freeMessage.isSome) (msg : μ) (w : World σ μ δ)
    (hc : Carries conf (w.messages msg) w.env text payload) :
    ∃ w' calls, processOutgoingMessage buf taken conf msg w = some (.ok (w', calls)) ∧
      (SentByLimit b payload calls ↔ (frame payload).length ≠ b.bspMaxMessageLength ∧
        (text = [] → b.bspMaxMessageLength + 5 ≤ (frame payload).length)) := by
  have hn : 1 < b.bspMaxMessageLength := by cases b <;> decide
  unfold SentByLimit
  by_cases hne : text = []
  · subst hne
    obtain ⟨w', calls, hrun, hfin⟩ :=
      processOutgoingMessage_finished taken hfree (formatMessage_empty hn buf hc)
    obtain ⟨hwrites, hcodes⟩ := hfin.failed _ rfl
    refine ⟨w', calls, hrun, ?_⟩
    rw [hwrites, hcodes]
    by_cases hlong : b.bspMaxMessageLength + 5 ≤ (frame payload).length
    · rw [if_neg (by omega), if_pos hlong]
      simp only [and_self, true_iff, hlong, implies_true, and_true]
      omega
    · have hcode : messageFormattingError ≠ messageTooLongError := by decide
      split_ifs <;> simp [hlong, hcode]
  · obtain ⟨handler, serializationFunc, hget, hser, hreports, rfl⟩ := hc
    have hformat := formatMessage_reports hn buf hget hser hne hreports
    generalize messagePrefix conf handler (w.messages msg) ++ text = payload at hformat
    obtain ⟨w', calls, hrun, hfin⟩ := processOutgoingMessage_finished taken hfree hformat
    refine ⟨w', calls, hrun, ?_⟩
    by_cases hlong : b.bspMaxMessageLength ≤ (frame payload).length
    · obtain ⟨hwrites, hcodes⟩ := hfin.failed messageTooLongError (if_pos hlong)
      rw [hwrites, hcodes]
      split_ifs with hle
      · have heq : (frame payload).length = b.bspMaxMessageLength := Nat.le_antisymm hle hlong
        simp [heq]
      · simp only [and_self, true_iff, hne, false_implies, and_true]
        omega
    · have hwrites := (hfin.written (frame payload) (if_neg hlong)).1
      rw [hwrites, if_pos (by omega)]
      simp only [true_iff, hne, false_implies, and_true]
      omega

/-- Both directions keep to the limit except at the two lengths where they differ. -/
theorem length_limits_iff (b : Board) {payload : List Byte} (hp : Plain payload) :
    (∀ (σ : Type)
      (process : Vector Byte b.bspMaxMessageLength → σ → Vector Byte b.bspMaxMessageLength × σ)
      (buf : Vector Byte b.bspMaxMessageLength) (subsystems : σ) (earlier : List Byte),
      ∃ ctx₀ ctx before events,
        feed process (dispatcherInit buf subsystems) earlier = some (ctx₀, before) ∧
        feed process ctx₀ (frame payload) = some (ctx, events) ∧
        (ReceivedByLimit b payload events ↔
          (frame payload).length ≠ b.bspMaxMessageLength + 1)) ∧
    (∀ (σ μ δ : Type) (text : List Byte) (buf : Vector Byte b.bspMaxMessageLength) (taken : ℕ)
      (conf : SubsystemMessageConf σ μ δ) (msg : μ) (w : World σ μ δ),
      conf.freeMessage.isSome → Carries conf (w.messages msg) w.env text payload →
      ∃ w' calls, processOutgoingMessage buf taken conf msg w = some (.ok (w', calls)) ∧
        (SentByLimit b payload calls ↔ (frame payload).length ≠ b.bspMaxMessageLength ∧
          (text = [] → b.bspMaxMessageLength + 5 ≤ (frame payload).length))) := by
  constructor
  · intro σ process buf subsystems earlier
    exact receive_limit_iff b hp process buf subsystems earlier
  · intro σ μ δ text buf taken conf msg w hfree hc
    exact send_limit_iff b buf taken hfree msg w hc

section TestRegistry

/-- A serializer of the dispatcher's tests that writes as much of its text as fits. -/
def fakeSerialize (text : List Byte) (_ : Message Unit) (room : ℕ) (_ : List ℕ) :
    List Byte × ℤ :=
  (text.take room, text.length)

theorem fakeSerialize_reports (text : List Byte) (msg : Message Unit) (env : List ℕ) :
    Reports (fakeSerialize text) msg env text := by
  intro room
  refine ⟨text.take room, rfl, List.length_take_le _ _, ?_⟩
  intro hroom
  exact ⟨[], by rw [List.append_nil, List.take_of_length_le (Nat.le_of_lt hroom)]⟩

def fakeConf (text : List Byte) : SubsystemMessageConf (List ℕ) ℕ Unit :=
  ⟨ascii "FAKE", [⟨ascii "SER_DES_MESSAGE", some fakeParse, some (fakeSerialize text)⟩],
    some 0, some 1, some 2, some fakeAlloc, some fun msg _ free => msg :: free⟩

theorem letters_plain (k : ℕ) (hk : 5 ≤ k) : Plain (List.replicate k 65) :=
  Plain.of_no_cr (by simp [dollar]) (by simp [cr]) (by simpa using hk)

theorem frame_letters_length (front : List Byte) (k : ℕ) :
    (frame (front ++ List.replicate k 65)).length = front.length + k + 6 := by
  rw [frame_length, List.length_append, List.length_replicate]

theorem fakeConf_carries (text : List Byte) :
    Carries (fakeConf text) (fakeWorld.messages 4) fakeWorld.env text
      (ascii "0,FAKE,SER_DES_MESSAGE" ++ text) :=
  ⟨_, _, rfl, rfl, fakeSerialize_reports text _ _, rfl⟩

theorem length_limits_of_reply :
    (∃ ctx₀ ctx before events,
      feed (fun buf (s : Unit) => (buf, s))
        (dispatcherInit (Vector.replicate Board.stm32f072discovery.bspMaxMessageLength 0) ()) [] =
          some (ctx₀, before) ∧
      feed (fun buf s => (buf, s)) ctx₀ (frame (ascii "0,FAKE,SER_DES_MESSAGE,OK")) =
        some (ctx, events) ∧
      (ReceivedByLimit .stm32f072discovery (ascii "0,FAKE,SER_DES_MESSAGE,OK") events ↔
        (frame (ascii "0,FAKE,SER_DES_MESSAGE,OK")).length ≠ 251)) ∧
    ∃ w' calls, processOutgoingMessage
        (Vector.replicate Board.stm32f072discovery.bspMaxMessageLength 0) 31
        (fakeConf (ascii ",OK")) 4 fakeWorld = some (.ok (w', calls)) ∧
      (SentByLimit .stm32f072discovery (ascii "0,FAKE,SER_DES_MESSAGE,OK") calls ↔
        (frame (ascii "0,FAKE,SER_DES_MESSAGE,OK")).length ≠ 250 ∧
        (ascii ",OK" = [] → 250 + 5 ≤ (frame (ascii "0,FAKE,SER_DES_MESSAGE,OK")).length)) := by
  have hp : Plain (ascii "0,FAKE,SER_DES_MESSAGE,OK") :=
    Plain.of_no_cr (by decide) (by decide) (by decide)
  constructor
  · exact (length_limits_iff .stm32f072discovery hp).1 Unit (fun buf s => (buf, s)) _ () []
  · exact (length_limits_iff .stm32f072discovery hp).2 _ _ _ (ascii ",OK") _ 31 _ 4 fakeWorld rfl
      (fakeConf_carries (ascii ",OK"))

/-- A frame of 251 bytes is delivered, and one of 250 bytes is not sent. -/
theorem boundary_frames :
    (∃ ctx, feed (fun buf (s : Unit) => (buf, s))
        (dispatcherInit (Vector.replicate Board.stm32f072discovery.bspMaxMessageLength 0) ())
        (frame (List.replicate 245 65)) =
          some (ctx, [.delivered (List.replicate 245 65 ++ [0])]) ∧
      (frame (List.replicate 245 65)).length = 251) ∧
    ∃ w' calls, processOutgoingMessage
        (Vector.replicate Board.stm32f072discovery.bspMaxMessageLength 0) 250
        (fakeConf (List.replicate 222 65)) 4 fakeWorld = some (.ok (w', calls)) ∧
      (frame (ascii "0,FAKE,SER_DES_MESSAGE" ++ List.replicate 222 65)).length = 250 ∧
      Call.writes calls = [] ∧ Call.codes calls = [messageTooLongError] := by
  constructor
  · have hlen : (frame (List.replicate 245 65)).length = 251 := frame_letters_length [] 245
    obtain ⟨ctx, hfeed, -⟩ := feed_refines (n := Board.stm32f072discovery.bspMaxMessageLength)
      (fun buf (s : Unit) => (buf, s)) (dispatcherInit (Vector.replicate _ 0) ()) none
      ⟨rfl, rfl, by decide⟩ (frame (List.replicate 245 65))
    rw [scan_frame_limit (by decide) (letters_plain 245 (by decide)).sendable,
      if_pos (by rw [hlen]; decide)] at hfeed
    exact ⟨ctx, hfeed, hlen⟩
  · have hlen : (frame (ascii "0,FAKE,SER_DES_MESSAGE" ++ List.replicate 222 65)).length = 250 :=
      frame_letters_length _ 222
    have hne : List.replicate 222 (65 : Byte) ≠ [] := List.cons_ne_nil _ _
    have hformat := formatMessage_reports (n := Board.stm32f072discovery.bspMaxMessageLength)
      (by decide) (Vector.replicate _ 0)
      (show (fakeConf (List.replicate 222 65)).messageHandlers[(fakeWorld.messages 4).type]? =
        some _ from rfl) rfl hne
      (fakeSerialize_reports (List.replicate 222 65) _ fakeWorld.env)
    obtain ⟨w', calls, hrun, hfin⟩ :=
      processOutgoingMessage_finished (w := fakeWorld) 250 rfl hformat
    exact ⟨w', calls, hrun, hlen,
      hfin.failed messageTooLongError (if_pos (Nat.le_of_eq hlen.symm))⟩

end TestRegistry

end Ratfist.LengthLimits
