import Ratfist.SpinnerChannel

/-!
What a spinner channel remembers. A run is a list of requests with the block, if any,
that each reply gets; the state and the last stored plan are read off the messages
before a request, and `Reflects` says that the channel agrees with them.
-/
namespace Ratfist.SpinnerHistory

open Constants CheckedArray SpinnerMessages SpinnerChannel

variable {F : Type} {n : ℕ}

/-- A message to the spinner and the block that is free when its reply is allocated. -/
structure Request (n : ℕ) (F : Type) where
  transactionId : ℕ
  msg : SpinnerMessage n F
  block : Option (Block n F)

/-- One message: the channels afterwards and what is sent, with its transaction id. -/
def answer (channels : Channels F) (req : Request n F) :
    Option (Channels F × Option (ℕ × SpinnerMessage n F)) := do
  let (channels, sent) ← handleMessage channels req.msg
  match sent, req.block with
  | some (c, reply), some block =>
    let payload ← reply.fill c block
    pure (channels, some (req.transactionId, payload))
  | _, _ => pure (channels, none)

def run (channels : Channels F) :
    List (Request n F) → Option (Channels F × List (Option (ℕ × SpinnerMessage n F)))
  | [] => some (channels, [])
  | req :: reqs => do
    let (channels, reply) ← answer channels req
    let (channels, replies) ← run channels reqs
    pure (channels, reply :: replies)

/-! The history of channel 0, from the messages alone. -/

def moved (state : ChannelState) (event : SpinnerEvent n F) : ChannelState :=
  match event with
  | .setState data =>
    match state with
    | .stopped => if data.state = stateRunning then .running else .stopped
    | .running => if data.state = stateStopped then .spindown else .running
    | .spindown => .spindown
  | _ => state

/-- The plan of a SET_PLAN that arrives while the channel is stopped. -/
def storedBy (state : ChannelState) (event : SpinnerEvent n F) : Option (SpinPlanData n F) :=
  match event with
  | .setPlan data => if state = .stopped then some data else none
  | _ => none

def event0 (msg : SpinnerMessage n F) : Option (SpinnerEvent n F) :=
  msg.event.bind fun (chNum, event) => if chNum = 0 then some event else none

def nextState (state : ChannelState) (msg : SpinnerMessage n F) : ChannelState :=
  (event0 msg).elim state (moved state)

def stateAfter (earlier : List (SpinnerMessage n F)) : ChannelState :=
  earlier.foldl nextState .stopped

def lastStored (earlier : List (SpinnerMessage n F)) : Option (SpinPlanData n F) :=
  (List.range earlier.length).reverse.findSome? fun i =>
    (earlier[i]?.bind event0).bind (storedBy (stateAfter (earlier.take i)))

def legCountOf : Option (SpinPlanData n F) → ℕ
  | none => 0
  | some data => data.planLegCount.toNat

def legsOf : Option (SpinPlanData n F) → List (PwmLeg F)
  | none => []
  | some data => data.planLegs.toList.take data.planLegCount.toNat

theorem event0_eq_some_iff {msg : SpinnerMessage n F} {event : SpinnerEvent n F} :
    event0 msg = some event ↔ msg.event = some (0, event) := by
  unfold event0
  cases msg.event with
  | none => simp
  | some target =>
    obtain ⟨chNum, event'⟩ := target
    by_cases hch : chNum = 0 <;> simp [hch]

theorem stateAfter_snoc (earlier : List (SpinnerMessage n F)) (msg : SpinnerMessage n F) :
    stateAfter (earlier ++ [msg]) = nextState (stateAfter earlier) msg := by
  simp [stateAfter]

theorem lastStored_snoc (earlier : List (SpinnerMessage n F)) (msg : SpinnerMessage n F) :
    lastStored (earlier ++ [msg]) =
      ((event0 msg).bind (storedBy (stateAfter earlier))).or (lastStored earlier) := by
  have hsame : ∀ l : List ℕ, (∀ i ∈ l, i < earlier.length) →
      l.findSome? (fun i => ((earlier ++ [msg])[i]?.bind event0).bind
        (storedBy (stateAfter ((earlier ++ [msg]).take i)))) =
      l.findSome? (fun i => (earlier[i]?.bind event0).bind
        (storedBy (stateAfter (earlier.take i)))) := by
    intro l hl
    induction l with
    | nil => rfl
    | cons i l ih =>
      have hi : i < earlier.length := hl i (by simp)
      rw [List.findSome?_cons, List.findSome?_cons, ih (fun j hj => hl j (by simp [hj])),
        List.getElem?_append_left hi, List.take_append_of_le_length (Nat.le_of_lt hi)]
  unfold lastStored
  rw [List.length_append, List.length_singleton, List.range_succ, List.reverse_append,
    List.reverse_singleton, List.singleton_append, List.findSome?_cons,
    hsame _ (fun i hi => by simpa using hi)]
  simp only [List.getElem?_append_right (Nat.le_refl _), Nat.sub_self, List.getElem?_cons_zero,
    Option.bind_some, List.take_left]
  cases (event0 msg).bind (storedBy (stateAfter earlier)) <;> rfl

structure Agrees (c : Channel F) (state : ChannelState) (stored : Option (SpinPlanData n F)) :
    Prop where
  state : c.state = state
  planLen : c.planLen = legCountOf stored
  bounded : c.planLen ≤ rustPlanLegs
  plan : Holds c.plan (legsOf stored)

/-- The channel is what the earlier messages made it. -/
def Reflects (c : Channel F) (earlier : List (SpinnerMessage n F)) : Prop :=
  Agrees c (stateAfter earlier) (lastStored earlier)

theorem reflects_initial [Zero F] :
    Reflects (channel0 (initialChannels : Channels F)) ([] : List (SpinnerMessage n F)) :=
  ⟨rfl, rfl, Nat.zero_le _, Holds.nil _⟩

theorem setChannelState_spec (c : Channel F) (data : SmallSizeMsgData F) :
    (c.setChannelState data).state = moved (n := n) c.state (.setState data) ∧
      (c.setChannelState data).planLen = c.planLen ∧ (c.setChannelState data).plan = c.plan := by
  unfold Channel.setChannelState
  cases hstate : c.state with
  | stopped => simp only [moved]; split_ifs <;> simp_all
  | running => simp only [moved]; split_ifs <;> simp_all
  | spindown => simp [moved, hstate]

/-- Storing succeeds for ten legs and less; then the channel holds exactly these legs. -/
theorem setChannelPlan_stored (hn : rustPlanLegs ≤ n) {c c' : Channel F} {data : SpinPlanData n F}
    (hstate : c.state = .stopped) (h : c.setChannelPlan data = some c') :
    data.planLegCount.toNat ≤ rustPlanLegs ∧ c'.state = .stopped ∧
      c'.planLen = data.planLegCount.toNat ∧
      Holds c'.plan (data.planLegs.toList.take data.planLegCount.toNat) := by
  rw [Channel.setChannelPlan, if_neg (by simpa using hstate)] at h
  obtain ⟨plan, hplan, h⟩ := Option.bind_eq_some_iff.mp h
  cases h
  have hlen := planLen_le_of_copied hplan
  obtain ⟨plan', hplan', hholds⟩ := copyLegs_to_channel hn data c.plan hlen
  rw [hplan] at hplan'
  cases hplan'
  exact ⟨hlen, hstate, rfl, hholds⟩

/-- One message keeps the channel in step with the history. -/
theorem Reflects.step (hn : rustPlanLegs ≤ n) {channels channels' : Channels F}
    {msg : SpinnerMessage n F} {sent : Option (Channel F × Reply)}
    {earlier : List (SpinnerMessage n F)} (hr : Reflects (channel0 channels) earlier)
    (h : handleMessage channels msg = some (channels', sent)) :
    Reflects (channel0 channels') (earlier ++ [msg]) := by
  unfold Reflects at hr ⊢
  rw [stateAfter_snoc, lastStored_snoc, nextState]
  rcases handleMessage_cases h with ⟨rfl, -, hignored⟩ | ⟨event, c', reply, hevent, hsend, rfl, -⟩
  · have hnone : event0 msg = none := by
      refine Option.eq_none_iff_forall_ne_some.mpr fun event h => ?_
      exact hignored event (event0_eq_some_iff.mp h)
    rw [hnone]
    exact hr
  have hsome : event0 msg = some event := event0_eq_some_iff.mpr hevent
  simp only [hsome, Option.elim_some, Option.bind_some]
  rcases Channel.sendEvent_cases hsend with ⟨data, rfl, hstopped, hset, -⟩ |
    ⟨data, rfl, -, hset, -⟩ | ⟨rfl, hc, -⟩ | ⟨rfl, hc, -⟩ | ⟨hc, -, hrefused⟩
  · obtain ⟨hle, hstate, hlen, hholds⟩ := setChannelPlan_stored hn hstopped hset
    rw [← hr.state, hstopped, storedBy, if_pos rfl]
    exact ⟨hstate, hlen, by rw [hlen]; exact hle, hholds⟩
  · obtain ⟨hstate, hlen, hplan⟩ := setChannelState_spec (n := n) (channel0 channels) data
    rw [hset]
    exact ⟨by rw [hstate, hr.state], by rw [hlen]; exact hr.planLen,
      by rw [hlen]; exact hr.bounded, by rw [hplan]; exact hr.plan⟩
  · rw [hc]
    exact hr
  · rw [hc]
    exact hr
  · rw [hc]
    rcases hrefused with ⟨data, rfl, hstate⟩ | ⟨data, rfl, hstate⟩
    · rw [hr.state] at hstate
      rw [storedBy, if_neg hstate]
      exact hr
    · rw [hr.state] at hstate
      rw [hstate] at hr ⊢
      exact hr

theorem answer_handled {channels channels' : Channels F} {req : Request n F}
    {reply : Option (ℕ × SpinnerMessage n F)} (h : answer channels req = some (channels', reply)) :
    ∃ sent, handleMessage channels req.msg = some (channels', sent) ∧
      ∀ r, reply = some r → ∃ c kind block payload, sent = some (c, kind) ∧
        Reply.fill c block kind = some payload ∧ r = (req.transactionId, payload) := by
  obtain ⟨⟨mid, sent⟩, hhandle, h⟩ := Option.bind_eq_some_iff.mp h
  match sent, hblock : req.block with
  | none, _ =>
    cases h
    exact ⟨none, hhandle, by simp⟩
  | some (c, kind), none =>
    simp only [hblock] at h
    cases h
    exact ⟨_, hhandle, by simp⟩
  | some (c, kind), some block =>
    simp only [hblock] at h
    obtain ⟨payload, hfill, h⟩ := Option.bind_eq_some_iff.mp h
    cases h
    exact ⟨_, hhandle, fun r hr => ⟨c, kind, block, payload, rfl, hfill, by cases hr; rfl⟩⟩

/-- A channel after any messages that were all handled. -/
theorem Reflects.run (hn : rustPlanLegs ≤ n) {channels channels' : Channels F}
    {reqs : List (Request n F)} {replies : List (Option (ℕ × SpinnerMessage n F))}
    {earlier : List (SpinnerMessage n F)} (hr : Reflects (channel0 channels) earlier)
    (h : SpinnerHistory.run channels reqs = some (channels', replies)) :
    Reflects (channel0 channels') (earlier ++ reqs.map Request.msg) := by
  induction reqs generalizing channels replies earlier with
  | nil =>
    cases h
    simpa using hr
  | cons req reqs ih =>
    obtain ⟨⟨mid, reply⟩, hans, h⟩ := Option.bind_eq_some_iff.mp h
    obtain ⟨⟨last, later⟩, hrun, h⟩ := Option.bind_eq_some_iff.mp h
    cases h
    obtain ⟨sent, hhandle, -⟩ := answer_handled hans
    simpa using ih (hr.step hn hhandle) hrun

theorem rustPlanLegs_le (b : Board) : rustPlanLegs ≤ b.maxSpinPlanLegs := by
  cases b <;> decide

/-- A plan reply carries the channel's plan, and nothing of what its block held. -/
theorem sendSpinPlanReply_spec (hn : rustPlanLegs ≤ n) {c : Channel F}
    {stored : Option (SpinPlanData n F)} {state : ChannelState} (hc : Agrees c state stored)
    {stale data : SpinPlanData n F} (h : c.sendSpinPlanReply stale = some data) :
    data.planLegCount.toNat = legCountOf stored ∧
      data.planLegs.toList.take data.planLegCount.toNat = legsOf stored := by
  obtain ⟨data', hdata', -, hcount, hholds⟩ := copyLegs_to_reply hn c.plan
    { stale with channelNum := c.id, planLegCount := c.planLen.toUInt32 } hc.bounded
  rw [Channel.sendSpinPlanReply, hdata'] at h
  cases h
  have hbounded := hc.bounded
  have hlen : data.planLegCount.toNat = c.planLen := by
    rw [hcount]
    have hsmall : c.planLen < 2 ^ 32 := by
      unfold rustPlanLegs at hbounded
      omega
    simpa using hsmall
  have hlegs : (legsOf stored).length = c.planLen := by
    rw [hc.planLen] at hbounded ⊢
    cases stored with
    | none => rfl
    | some plan =>
      simp only [legsOf, legCountOf, List.length_take, Vector.length_toList] at hbounded ⊢
      omega
  refine ⟨by rw [hlen, hc.planLen], ?_⟩
  have hplan := hc.plan
  unfold Holds at hholds hplan
  rw [hlegs] at hplan
  rw [hplan, hlegs] at hholds
  rw [hlen]
  exact hholds

theorem channels_ext {channels channels' : Channels F}
    (h : channel0 channels = channel0 channels') : channels = channels' := by
  apply Vector.ext
  intro i hi
  have hzero : i = 0 := by
    unfold numChannels at hi
    omega
  subst hzero
  exact h

/-- Only a request that is answered with 0 changes the channel. -/
theorem sendEvent_unchanged {c c' : Channel F} {event : SpinnerEvent n F} {reply : Reply}
    (h : c.sendEvent event = some (c', reply)) (hreply : reply ≠ .returnVal 0) : c' = c := by
  rcases Channel.sendEvent_cases h with ⟨-, -, -, -, rfl⟩ | ⟨-, -, -, -, rfl⟩ | ⟨-, hc, -⟩ |
    ⟨-, hc, -⟩ | ⟨hc, -, -⟩
  · exact absurd rfl hreply
  · exact absurd rfl hreply
  all_goals exact hc

/-- Every reply of a run without a panic, by the requests before it. -/
theorem replies_tell_history [Zero F] (b : Board) (earlier : List (Request b.maxSpinPlanLegs F))
    (req : Request b.maxSpinPlanLegs F) (channels channels' : Channels F)
    (replies : List (Option (ℕ × SpinnerMessage b.maxSpinPlanLegs F)))
    (tid : ℕ) (payload : SpinnerMessage b.maxSpinPlanLegs F)
    (hrun : run initialChannels earlier = some (channels, replies))
    (hreq : answer channels req = some (channels', some (tid, payload))) :
    tid = req.transactionId ∧
      (∀ data, payload = .spinPlanReply data →
        data.planLegCount.toNat = legCountOf (lastStored (earlier.map Request.msg)) ∧
        data.planLegs.toList.take data.planLegCount.toNat =
          legsOf (lastStored (earlier.map Request.msg))) ∧
      (∀ data, payload = .returnValue data → data.retVal = 1 → channels' = channels) ∧
      (∀ data, payload = .spinStateReply data →
        data.state = Channel.stateCode (stateAfter (earlier.map Request.msg))) := by
  have hr := Reflects.run (rustPlanLegs_le b) reflects_initial hrun
  rw [List.nil_append] at hr
  obtain ⟨sent, hhandle, hreply⟩ := answer_handled hreq
  obtain ⟨c, kind, block, filled, rfl, hfill, hpair⟩ := hreply _ rfl
  cases hpair
  rcases handleMessage_cases hhandle with ⟨-, hnone, -⟩ | ⟨event, c', kind', -, hsend, hc', hsent⟩
  · cases hnone
  cases hsent
  refine ⟨rfl, ?_, ?_, ?_⟩
  · rintro data rfl
    cases kind with
    | spinPlanReply =>
      obtain ⟨data', hplan, heq⟩ := Option.map_eq_some_iff.mp hfill
      cases heq
      rw [sendEvent_unchanged hsend (by simp)] at hplan
      exact sendSpinPlanReply_spec (rustPlanLegs_le b) hr hplan
    | spinStateReply => cases hfill
    | returnVal v => cases hfill
  · rintro data rfl hone
    cases kind with
    | spinPlanReply => simp [Reply.fill] at hfill
    | spinStateReply => cases hfill
    | returnVal v =>
      cases hfill
      have hv : v = 1 := hone
      subst hv
      exact channels_ext (hc'.trans (sendEvent_unchanged hsend (by simp)))
  · rintro data rfl
    cases kind with
    | spinPlanReply => simp [Reply.fill] at hfill
    | spinStateReply =>
      cases hfill
      rw [sendEvent_unchanged hsend (by simp)]
      exact congrArg Channel.stateCode hr.state
    | returnVal v => cases hfill

section Example

def storeRequest : Request Board.stm32f072discovery.maxSpinPlanLegs ℕ :=
  ⟨1, .setSpinPlan ⟨0, 2, Vector.replicate _ ⟨300, 40⟩⟩, none⟩

def readRequest : Request Board.stm32f072discovery.maxSpinPlanLegs ℕ :=
  ⟨2, .getSpinPlan ⟨0, 0, 0, 0, 0⟩, some ⟨⟨7, 7, Vector.replicate _ ⟨7, 7⟩⟩, ⟨7, 7, 7, 7, 7⟩⟩⟩

def planReply : SpinnerMessage n F → Option (SpinPlanData n F)
  | .spinPlanReply data => some data
  | _ => none

/-- A plan whose own answer found no block, read back from a block with other contents. -/
theorem stored_plan_is_read_back :
    ∃ channels channels' replies tid data,
      run initialChannels [storeRequest] = some (channels, replies) ∧
      answer channels readRequest = some (channels', some (tid, .spinPlanReply data)) ∧
      tid = readRequest.transactionId ∧
      data.planLegCount.toNat = legCountOf (lastStored ([storeRequest].map Request.msg)) ∧
      data.planLegs.toList.take data.planLegCount.toNat =
        legsOf (lastStored ([storeRequest].map Request.msg)) := by
  have h : ((run initialChannels [storeRequest]).bind fun done =>
      (answer done.1 readRequest).bind fun answered =>
        answered.2.bind fun reply => planReply reply.2).isSome := by decide +kernel
  obtain ⟨data, h⟩ := Option.isSome_iff_exists.mp h
  obtain ⟨⟨channels, replies⟩, hrun, h⟩ := Option.bind_eq_some_iff.mp h
  obtain ⟨⟨channels', reply⟩, hreq, h⟩ := Option.bind_eq_some_iff.mp h
  obtain ⟨⟨tid, payload⟩, hreply, hdata⟩ := Option.bind_eq_some_iff.mp h
  cases hreply
  cases payload <;> cases hdata
  obtain ⟨htid, hplan, -⟩ :=
    replies_tell_history _ [storeRequest] readRequest channels channels' replies tid _ hrun hreq
  exact ⟨channels, channels', replies, tid, data, hrun, hreq, htid, hplan data rfl⟩

end Example

end Ratfist.SpinnerHistory
