import Ratfist.TransmitDrains

/-!
One message through `process_outgoing_message`: its frame in a single write or a single
error, and the message freed at the end of either way.
-/
namespace Ratfist.OutgoingFrames

open CString CheckedArray Constants Subsystem Routing RoutingOutcomes Transmit LengthLimits
  TransmitDrains

variable {n : ℕ} {σ μ δ : Type}

/-- What has been written and which errors have been scheduled, when the transmit buffer
takes `taken` bytes. -/
inductive SentOrReported (n : ℕ) (conf : SubsystemMessageConf σ μ δ) (msg : Message δ) (env : σ)
    (taken : ℕ) : List (List Byte) → List ℤ → Prop
  | sent (chars : List Byte) (hlen : chars.length < n) (hframed : Framed n conf msg env chars) :
      SentOrReported n conf msg env taken [chars]
        (if taken = chars.length then [] else [txBufferFull])
  | reported (code : ℤ) : SentOrReported n conf msg env taken [] [code]

theorem callsFor_sentOrReported {conf : SubsystemMessageConf σ μ δ} {msg : Message δ} {env : σ}
    {taken : ℕ} {r : Except ℤ (List Byte)}
    (hr : ∀ chars, r = .ok chars → chars.length < n ∧ Framed n conf msg env chars) :
    SentOrReported n conf msg env taken (Call.writes (callsFor taken r : List (Call μ)))
      (Call.codes (callsFor taken r : List (Call μ))) := by
  cases r with
  | error code => exact .reported code
  | ok chars =>
    obtain ⟨hlen, hframed⟩ := hr chars rfl
    have hsent : SentOrReported n conf msg env taken _ _ := .sent chars hlen hframed
    rw [callsFor]
    split_ifs at hsent ⊢ <;> exact hsent

/-- Whatever the names, the message and a serializer that keeps to its room are. -/
theorem outgoing_message_sent_or_reported (b : Board) (buf : Vector Byte b.bspMaxMessageLength)
    (taken : ℕ) {conf : SubsystemMessageConf σ μ δ} (hconf : Bounded conf)
    (hfree : conf.freeMessage.isSome) (msg : μ) (w : World σ μ δ) :
    ∃ w' calls, processOutgoingMessage buf taken conf msg w =
        some (.ok (w', calls ++ [.free msg])) ∧
      Call.freed calls = [] ∧
      SentOrReported b.bspMaxMessageLength conf (w.messages msg) w.env taken (Call.writes calls)
        (Call.codes calls) ∧
      ∃ r, formatMessage buf conf (w.messages msg) w.env = some r ∧
        Finished conf msg w r w' (calls ++ [.free msg]) := by
  have hn : 1 < b.bspMaxMessageLength := by cases b <;> decide
  obtain ⟨free, hfree⟩ := Option.isSome_iff_exists.mp hfree
  obtain ⟨r, hr, hframe⟩ := formatMessage_frame hn buf hconf (w.messages msg) w.env
  exact ⟨_, callsFor taken r, processOutgoingMessage_eq taken hfree hr, freed_callsFor taken r,
    callsFor_sentOrReported hframe, r, hr, finished_of_eq taken hfree r⟩

/-- A reply of which the transmit buffer takes only 30 bytes. -/
theorem cut_reply_sent_and_reported : ∃ w' calls,
    processOutgoingMessage (Vector.replicate Board.stm32f072discovery.bspMaxMessageLength 0) 30
        (fakeConf (ascii ",OK")) 4 fakeWorld = some (.ok (w', calls ++ [.free 4])) ∧
      Call.freed calls = [] ∧
      SentOrReported Board.stm32f072discovery.bspMaxMessageLength (fakeConf (ascii ",OK"))
        (fakeWorld.messages 4) fakeWorld.env 30 (Call.writes calls) (Call.codes calls) ∧
      ∃ r, formatMessage (Vector.replicate Board.stm32f072discovery.bspMaxMessageLength 0)
          (fakeConf (ascii ",OK")) (fakeWorld.messages 4) fakeWorld.env = some r ∧
        Finished (fakeConf (ascii ",OK")) 4 fakeWorld r w' (calls ++ [.free 4]) :=
  outgoing_message_sent_or_reported .stm32f072discovery _ 30
    (fakeConf_bounded (ascii ",OK") _ (List.mem_singleton.mpr rfl)) rfl 4 fakeWorld

end Ratfist.OutgoingFrames
