import Ratfist.RequestRoundTrip
import Ratfist.SpinnerHistory

/-!
A spinner channel as a client sees it: a state, a plan of any length up to ten legs, and the
fields of the reply to each request. The channel of `spinner.rs` does the same on its messages,
and panics where the client's view has no answer.
-/
namespace Ratfist.ClientView

open CString CheckedArray Constants Subsystem Routing SpinnerMessages SpinnerChannel
  SpinnerHistory SpinnerPools SetPlanParsing Serializers FieldText RequestRoundTrip SentLine

variable {F : Type} {n : ℕ}

structure Output (F : Type) where
  state : ChannelState
  legs : List (PwmLeg F)

def stateName : ChannelState → List Byte
  | .stopped => ascii "STOPPED"
  | .running => ascii "RUNNING"
  | .spindown => ascii "SPINNING_DOWN"

/-- An output that is switched off spins down first. -/
def switched : ChannelState → Bool → ChannelState
  | .stopped, true => .running
  | .running, false => .spindown
  | state, _ => state

def done : List (List Byte) := [ascii "RET_VAL", ascii "0"]

def refused : List (List Byte) := [ascii "RET_VAL", ascii "1"]

/-- A request to the channel: what becomes of the channel, and the reply behind the name of the
subsystem. There is no answer to a plan that is too long to be stored. -/
def Output.serve [Zero F] (text : F → List Byte) (o : Output F) :
    RequestRoundTrip.Request F → Option (Output F × List (List Byte))
  | .setPlan _ legs =>
    if o.state ≠ .stopped then some (o, refused)
    else if legs.length ≤ rustPlanLegs then some ({ o with legs := legs }, done)
    else none
  | .getPlan _ =>
    some (o, ascii "PLAN_REPLY" :: decimal 0 :: o.legs.flatMap (Request.legFields text))
  | .setState _ running =>
    if o.state = .spindown then some (o, refused)
    else some ({ o with state := switched o.state running }, done)
  | .getState _ =>
    some (o, [ascii "STATE_REPLY", decimal 0, stateName o.state, decimal 0, text 0])

/-- Channel 0 is the only one; requests to others are not answered. -/
def Output.answer [Zero F] (text : F → List Byte) (o : Output F)
    (request : ℕ × RequestRoundTrip.Request F) : Option (Output F × Option (List Byte)) :=
  if request.2.channelNum = 0 then
    (o.serve text request.2).map fun (o, fields) =>
      (o, some (joined comma (decimal request.1 :: ascii "SPINNER" :: fields)))
  else some (o, none)

structure Shown [Zero F] (c : Channel F) (o : Output F) : Prop where
  id : c.id = 0
  state : c.state = o.state
  planLen : c.planLen = o.legs.length
  bounded : o.legs.length ≤ rustPlanLegs
  plan : Holds c.plan o.legs
  elapsed : c.elapsedTimeMsecs = 0
  output : c.outputValPct = 0

theorem shown_initial [Zero F] :
    Shown (channel0 (initialChannels : Channels F)) ⟨.stopped, []⟩ :=
  ⟨rfl, rfl, rfl, Nat.zero_le _, Holds.nil _, rfl, rfl⟩

def fieldsOf [Zero F] (text : F → List Byte) (o : Output F) : Reply → List (List Byte)
  | .spinPlanReply =>
    ascii "PLAN_REPLY" :: decimal 0 :: o.legs.flatMap (Request.legFields text)
  | .spinStateReply =>
    [ascii "STATE_REPLY", decimal 0, stateName o.state, decimal 0, text 0]
  | .returnVal v => [ascii "RET_VAL", decimalInt v]

theorem stored_legs {data : SpinPlanData n F} {chNum : ℕ} {legs : List (PwmLeg F)}
    (h : Stores data chNum legs) : data.planLegs.toList.take data.planLegCount.toNat = legs := by
  rw [h.planLegCount]
  apply List.ext_getElem?
  intro i
  by_cases hi : i < legs.length
  · rw [List.getElem?_take_of_lt hi, ← h.planLegs i hi, Vector.getElem?_toList]
  · rw [List.getElem?_eq_none (by simp; omega), List.getElem?_eq_none (by omega)]

section Served

variable [Zero F] {text : F → List Byte} {c : Channel F} {o : Output F}

theorem setPlan_shown (hn : rustPlanLegs ≤ n) (text : F → List Byte) (hc : Shown c o) {ch : UInt8}
    {legs : List (PwmLeg F)} {data : SpinPlanData n F} (hdata : Stores data ch.toNat legs) :
    (o.serve text (.setPlan ch legs) = none ∧ c.sendEvent (.setPlan data) = none) ∨
      ∃ o' c' reply, o.serve text (.setPlan ch legs) = some (o', fieldsOf text o' reply) ∧
        c.sendEvent (.setPlan data) = some (c', reply) ∧ Shown c' o' := by
  have hstate := hc.state
  by_cases hstopped : o.state = .stopped
  · have hcstopped : c.state = .stopped := by rw [hstate, hstopped]
    have hsend : c.sendEvent (.setPlan data) =
        (c.setChannelPlan data).map fun c' => (c', .returnVal 0) := by
      simp only [Channel.sendEvent, hcstopped]
      cases c.setChannelPlan data <;> rfl
    by_cases hlen : legs.length ≤ rustPlanLegs
    · obtain ⟨plan, hplan, hholds⟩ := copyLegs_to_channel hn data c.plan
        (show data.planLegCount.toNat ≤ rustPlanLegs by rw [hdata.planLegCount]; exact hlen)
      rw [stored_legs hdata] at hholds
      have hset : c.setChannelPlan data =
          some { c with plan := plan, planLen := data.planLegCount.toNat } := by
        rw [Channel.setChannelPlan, if_neg (by simpa using hcstopped)]
        simp only [hplan, Option.bind_eq_bind, Option.bind_some]
        rfl
      refine Or.inr ⟨{ o with legs := legs }, _, .returnVal 0, ?_, by rw [hsend, hset]; rfl, ?_⟩
      · simp only [Output.serve, hstopped, ne_eq, not_true_eq_false, if_false, hlen, if_true]
        rfl
      · exact ⟨hc.id, hstate, hdata.planLegCount, hlen, hholds, hc.elapsed, hc.output⟩
    · refine Or.inl ⟨?_, ?_⟩
      · simp only [Output.serve, hstopped, ne_eq, not_true_eq_false, if_false, hlen]
      · rw [hsend, Option.map_eq_none_iff]
        by_contra hsome
        obtain ⟨c', hset⟩ := Option.ne_none_iff_exists'.mp hsome
        obtain ⟨hle, -⟩ := setChannelPlan_stored hn hcstopped hset
        rw [hdata.planLegCount] at hle
        exact hlen hle
  · have hcstate : c.state ≠ .stopped := by rw [hstate]; exact hstopped
    refine Or.inr ⟨o, c, .returnVal 1, ?_, ?_, hc⟩
    · simp only [Output.serve, ne_eq, hstopped, not_false_eq_true, if_true]
      rfl
    · cases hs : c.state with
      | stopped => exact absurd hs hcstate
      | running => simp only [Channel.sendEvent, hs]
      | spindown => simp only [Channel.sendEvent, hs]

omit [Zero F] in
theorem setChannelState_eq (c : Channel F) {data : SmallSizeMsgData F} {running : Bool}
    (hdata : data.state = if running then stateRunning else stateStopped) :
    c.setChannelState data = { c with state := switched c.state running } := by
  have hcodes : stateRunning ≠ stateStopped ∧ stateStopped ≠ stateRunning := by decide
  obtain ⟨id, state, plan, planLen, elapsed, output⟩ := c
  cases state <;> cases running <;> simp [Channel.setChannelState, hdata, hcodes, switched]

theorem setState_shown (text : F → List Byte) (hc : Shown c o) {ch : UInt8} {running : Bool}
    {data : SmallSizeMsgData F}
    (hdata : data.state = if running then stateRunning else stateStopped) :
    ∃ o' c' reply, o.serve text (.setState ch running) = some (o', fieldsOf text o' reply) ∧
      c.sendEvent (.setState (n := n) data) = some (c', reply) ∧ Shown c' o' := by
  have hstate := hc.state
  by_cases hspindown : o.state = .spindown
  · rw [hspindown] at hstate
    refine ⟨o, c, .returnVal 1, ?_, by simp only [Channel.sendEvent, hstate], hc⟩
    simp only [Output.serve, hspindown, if_true]
    rfl
  · have hset := setChannelState_eq c hdata
    rw [hstate] at hset
    refine ⟨{ o with state := switched o.state running }, c.setChannelState data, .returnVal 0, ?_,
      ?_, ?_⟩
    · simp only [Output.serve, hspindown, if_false]
      rfl
    · rw [← hstate] at hspindown
      cases hs : c.state with
      | spindown => exact absurd hs hspindown
      | stopped => simp only [Channel.sendEvent, hs]
      | running => simp only [Channel.sendEvent, hs]
    · rw [hset]
      exact ⟨hc.id, rfl, hc.planLen, hc.bounded, hc.plan, hc.elapsed, hc.output⟩

/-- What the state table does with a request. -/
theorem sendEvent_shown (hn : rustPlanLegs ≤ n) (text : F → List Byte) (hc : Shown c o)
    {req : RequestRoundTrip.Request F} {read : SpinnerMessage n F} {event : SpinnerEvent n F}
    (hread : req.ReadAs read) (hevent : read.event = some (req.channelNum, event)) :
    (o.serve text req = none ∧ c.sendEvent event = none) ∨
      ∃ o' c' reply, o.serve text req = some (o', fieldsOf text o' reply) ∧
        c.sendEvent event = some (c', reply) ∧ Shown c' o' := by
  cases req with
  | setPlan ch legs =>
    cases read with
    | setSpinPlan data =>
      cases hevent
      exact setPlan_shown hn text hc hread
    | _ => exact hread.elim
  | getPlan ch =>
    cases read with
    | getSpinPlan data =>
      cases hevent
      exact Or.inr ⟨o, c, .spinPlanReply, rfl,
        by cases hs : c.state <;> simp [Channel.sendEvent, hs], hc⟩
    | _ => exact hread.elim
  | setState ch running =>
    cases read with
    | setSpinState data =>
      cases hevent
      exact Or.inr (setState_shown text hc hread.2)
    | _ => exact hread.elim
  | getState ch =>
    cases read with
    | getSpinState data =>
      cases hevent
      exact Or.inr ⟨o, c, .spinStateReply, rfl,
        by cases hs : c.state <;> simp [Channel.sendEvent, hs], hc⟩
    | _ => exact hread.elim

omit [Zero F] in
theorem readAs_event {req : RequestRoundTrip.Request F} {read : SpinnerMessage n F}
    (h : req.ReadAs read) : ∃ event, read.event = some (req.channelNum, event) := by
  cases req with
  | setPlan ch legs =>
    cases read with
    | setSpinPlan data =>
      have hch : data.channelNum = ch := UInt8.toNat_inj.mp h.channelNum
      exact ⟨.setPlan data, by rw [SpinnerMessage.event, hch]; rfl⟩
    | _ => exact h.elim
  | getPlan ch =>
    cases read with
    | getSpinPlan data =>
      exact ⟨.getPlan, by rw [SpinnerMessage.event, show data.channelNum = ch from h]; rfl⟩
    | _ => exact h.elim
  | setState ch running =>
    cases read with
    | setSpinState data => exact ⟨.setState data, by rw [SpinnerMessage.event, h.1]; rfl⟩
    | _ => exact h.elim
  | getState ch =>
    cases read with
    | getSpinState data =>
      exact ⟨.getState, by rw [SpinnerMessage.event, show data.channelNum = ch from h]; rfl⟩
    | _ => exact h.elim

/-- One request: the channels of the spinner and the client's view go on alike. -/
theorem handleMessage_shown (hn : rustPlanLegs ≤ n) (text : F → List Byte) {channels : Channels F}
    (hc : Shown (channel0 channels) o) {req : RequestRoundTrip.Request F}
    {read : SpinnerMessage n F} (hread : req.ReadAs read) (tid : ℕ) :
    (o.answer text (tid, req) = none ∧ handleMessage channels read = none) ∨
      (o.answer text (tid, req) = some (o, none) ∧
        handleMessage channels read = some (channels, none)) ∨
      ∃ o' channels' reply, o.answer text (tid, req) = some (o', some
          (joined comma (decimal tid :: ascii "SPINNER" :: fieldsOf text o' reply))) ∧
        handleMessage channels read = some (channels', some (channel0 channels', reply)) ∧
        Shown (channel0 channels') o' := by
  obtain ⟨event, hevent⟩ := readAs_event hread
  by_cases hzero : req.channelNum = 0
  · have hlt : (0 : UInt8).toNat < numChannels := Nat.one_pos
    rw [hzero] at hevent
    have hhandle : handleMessage channels read =
        ((channel0 channels).sendEvent event).map fun served =>
          (channels.set 0 served.1 Nat.one_pos, some served) := by
      simp only [handleMessage, hevent, hlt, dite_true]
      change ((channel0 channels).sendEvent event).bind _ = _
      cases (channel0 channels).sendEvent event <;> rfl
    rcases sendEvent_shown hn text hc hread (by rw [hevent, hzero]) with
      ⟨hserve, hsend⟩ | ⟨o', c', reply, hserve, hsend, hc'⟩
    · refine Or.inl ⟨?_, by rw [hhandle, hsend]; rfl⟩
      simp only [Output.answer, hzero, if_true, hserve, Option.map_none]
    · have hset : channel0 (channels.set 0 c' Nat.one_pos) = c' := Vector.getElem_set_self _
      refine Or.inr (Or.inr ⟨o', channels.set 0 c' Nat.one_pos, reply, ?_, ?_, by rwa [hset]⟩)
      · simp only [Output.answer, hzero, if_true, hserve, Option.map_some]
      · rw [hhandle, hsend, hset]
        rfl
  · have hge : ¬ req.channelNum.toNat < numChannels := by
      have hne : req.channelNum.toNat ≠ 0 := fun h => hzero (UInt8.toNat_inj.mp h)
      unfold numChannels
      omega
    refine Or.inr (Or.inl ⟨by simp [Output.answer, hzero], ?_⟩)
    simp only [handleMessage, hevent, hge, dite_false]

end Served

/-- What a serializer writes of a reply. -/
def saidBy (text : F → List Byte) : SpinnerMessage n F → Option (List Byte)
  | .spinPlanReply data => some (planText text data)
  | .spinStateReply data => (spinStateLut[data.state.toNat]?).map (stateText text data)
  | .returnValue data => some (retText data)
  | _ => none

def Proper : SpinnerMessage n F → Prop
  | .spinPlanReply data => data.planLegCount.toNat ≤ n
  | .spinStateReply data | .returnValue data => data.state.toNat < spinStateLut.length
  | _ => False

theorem legs_text (text : F → List Byte) (legs : List (PwmLeg F)) :
    (legs.flatMap (Request.legFields text)).flatMap (comma :: ·) = legs.flatMap (legText text) := by
  rw [List.flatMap_assoc]
  congr 1
  funext leg
  simp [Request.legFields, legText]

/-- A reply is filled in, whatever its block still holds, and says what the view says. -/
theorem fill_shown [Zero F] (hn : rustPlanLegs ≤ n) (text : F → List Byte) {c : Channel F}
    {o : Output F} (hc : Shown c o) (reply : Reply) (block : Block n F)
    (hblock : block.small.state.toNat < spinStateLut.length) :
    ∃ payload, reply.fill c block = some payload ∧ Proper payload ∧
      saidBy text payload = some ((fieldsOf text o reply).tail.flatMap (comma :: ·)) := by
  cases reply with
  | spinPlanReply =>
    have hlen : c.planLen ≤ rustPlanLegs := by rw [hc.planLen]; exact hc.bounded
    obtain ⟨data, hdata, hchannel, hcount, hholds⟩ := copyLegs_to_reply hn c.plan
      { block.plan with channelNum := c.id, planLegCount := c.planLen.toUInt32 } hlen
    have hsmall : c.planLen < 2 ^ 32 := by
      unfold rustPlanLegs at hlen
      omega
    have hcount : data.planLegCount.toNat = c.planLen := by
      rw [hcount]
      exact UInt32.toNat_ofNat_of_lt' hsmall
    have hplan : c.plan.toList.take c.planLen = o.legs := by rw [hc.planLen]; exact hc.plan
    have hlegs : data.planLegs.toList.take data.planLegCount.toNat = o.legs := by
      rw [hplan] at hholds
      rw [hcount, hc.planLen]
      exact hholds
    refine ⟨.spinPlanReply data, ?_, ?_, ?_⟩
    · simp only [Reply.fill, Channel.sendSpinPlanReply, hdata, Option.map_some]
    · change data.planLegCount.toNat ≤ n
      omega
    · have hzero : decimal data.channelNum.toNat = decimal 0 := by
        rw [hchannel, hc.id]
        rfl
      simp only [saidBy, planText, fieldsOf, List.tail_cons, List.flatMap_cons, legs_text, hlegs,
        hzero]
  | spinStateReply =>
    refine ⟨_, rfl, ?_, ?_⟩
    · change (Channel.stateCode c.state).toNat < _
      cases c.state <;> decide
    · have hname : spinStateLut[(Channel.stateCode c.state).toNat]? = some (stateName o.state) := by
        rw [hc.state]
        cases o.state <;> rfl
      simp only [saidBy, Channel.sendSpinStateReply, hname, Option.map_some, stateText, hc.id,
        hc.elapsed, hc.output, fieldsOf, List.tail_cons, List.flatMap_cons]
      simp
  | returnVal v =>
    refine ⟨_, rfl, hblock, ?_⟩
    simp [saidBy, Channel.sendReturnVal, retText, fieldsOf]

end Ratfist.ClientView
