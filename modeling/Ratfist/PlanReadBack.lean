import Ratfist.Serializers
import Ratfist.SpinnerBounds
import Ratfist.SpinnerPools

/-!
A plan from its SET_PLAN payload to its PLAN_REPLY frame. The reply writes every target
with six decimals, so that a plan whose SET_PLAN fits need not have a reply that does;
then the guards of the serializer and of the dispatcher report it and send nothing.
-/
namespace Ratfist.PlanReadBack

open CString Constants CheckedArray Subsystem FrameRoundTrip Routing Transmit SpinnerMessages
  Serializers SpinnerBounds SpinnerPools

variable {F : Type} {n : ℕ}

def describedLegs (libc : Libc F) : List (List Byte) → List (PwmLeg F)
  | duration :: target :: later =>
    ⟨(strtoul 10 duration).value.toUInt32, (libc.strtof target).value⟩ :: describedLegs libc later
  | _ => []

structure HoldsPlan (libc : Libc F) (payload : Option (List Byte)) (data : SpinPlanData n F) :
    Prop where
  channel : (parseChannelNum libc payload).map Prod.fst = some data.channelNum
  count : data.planLegCount.toNat = legPairs payload
  legs : data.planLegs.toList.take (legPairs payload) =
    describedLegs libc (savedTokens comma payload).tail

/-- The serializers of `spinner.c`, on the payload that the message points to. -/
def spinnerSerializers (text : F → List Byte) (stale : (room : ℕ) → Vector Byte room) :
    SpinnerPools.Serializers n F where
  serializePlanReply msg room mem :=
    asCallback (fun _ => serializePlanReply text (mem.plans msg.data.idx)) stale room
  serializeStateReply msg room mem :=
    asCallback (fun _ => serializeStateReply text (mem.smalls msg.data.idx)) stale room
  serializeRetVal msg room mem :=
    asCallback (fun _ => serializeRetVal (mem.smalls msg.data.idx)) stale room

def describedText (libc : Libc F) (text : F → List Byte) (payload : Option (List Byte)) :
    List Byte :=
  match parseChannelNum libc payload with
  | none => []
  | some (chNum, _) => comma :: decimal chNum.toNat ++
    (describedLegs libc (savedTokens comma payload).tail).flatMap (legText text)

def planReplyFrame (libc : Libc F) (text : F → List Byte) (tid : ℕ)
    (payload : Option (List Byte)) : List Byte :=
  frame (decimal tid ++ ascii ",SPINNER,PLAN_REPLY" ++ describedText libc text payload)

theorem HoldsPlan.planText_eq {libc : Libc F} {payload : Option (List Byte)}
    {data : SpinPlanData n F} (h : HoldsPlan libc payload data) (text : F → List Byte) :
    planText text data = describedText libc text payload := by
  obtain ⟨⟨chNum, rest⟩, hch, hnum⟩ := Option.map_eq_some_iff.mp h.channel
  simp only at hnum
  rw [planText, describedText, hch, h.count, h.legs, ← hnum]

theorem describedLegs_length (libc : Libc F) (toks : List (List Byte)) :
    (describedLegs libc toks).length = toks.length / 2 := by
  induction toks using describedLegs.induct with
  | case1 duration target later ih =>
    rw [describedLegs, List.length_cons, ih, List.length_cons, List.length_cons]
    omega
  | case2 toks h =>
    rcases toks with _ | ⟨a, _ | ⟨b, later⟩⟩
    · rfl
    · simp [describedLegs]
    · exact absurd rfl (h a b later)

theorem Holds.setLeg {front : List (PwmLeg F)} {data : SpinPlanData n F}
    (h : Holds data.planLegs front) {i : Fin n} (hi : i.val = front.length) (d : UInt32) (t : F) :
    Holds ((data.setDuration i d).setTarget i t).planLegs (front ++ [⟨d, t⟩]) := by
  obtain ⟨k, hk⟩ := i
  simp only at hi
  subst hi
  have hset : ((data.setDuration ⟨front.length, hk⟩ d).setTarget ⟨front.length, hk⟩ t).planLegs =
      data.planLegs.set front.length ⟨d, t⟩ hk := by
    simp [SpinPlanData.setDuration, SpinPlanData.setTarget]
  rw [hset]
  exact h.push ⟨d, t⟩ hk

/-- The loop over the legs stores one leg for each pair of tokens. -/
theorem parseLegs_holds (libc : Libc F) {indices : List (Fin n)} {front : List (PwmLeg F)}
    {data data' : SpinPlanData n F} {savePtr rest : Option (List Byte)}
    (hindices : indices = (List.finRange n).drop front.length) (hdata : Holds data.planLegs front)
    (h : parseLegs libc indices data savePtr = (true, data', rest))
    (hall : savedTokens comma rest = []) :
    Holds data'.planLegs (front ++ describedLegs libc (savedTokens comma savePtr)) := by
  induction indices generalizing data savePtr front with
  | nil =>
    cases h
    rw [hall]
    simpa [describedLegs] using hdata
  | cons i later ih =>
    have hlt : front.length < (List.finRange n).length := by
      by_contra hge
      rw [List.drop_of_length_le (Nat.le_of_not_lt hge)] at hindices
      cases hindices
    rw [List.drop_eq_getElem_cons hlt, List.getElem_finRange] at hindices
    obtain ⟨hi, hlater⟩ := List.cons.inj hindices
    have hival : i.val = front.length := by rw [hi]; rfl
    rcases parseLegs_cons h with ⟨hnil, rfl, -⟩ | ⟨duration, target, save, htoks, hmore⟩
    · rw [hnil]
      simpa [describedLegs] using hdata
    have hrest := ih (by rw [hlater, List.length_append]; rfl) (Holds.setLeg hdata hival _ _)
      hmore
    rw [htoks, describedLegs]
    simpa using hrest

/-- What an accepted SET_PLAN has stored, with the number of its legs, is its plan. -/
theorem AcceptedPlan.holdsPlan {libc : Libc F} (plan : AcceptedPlan libc n)
    {data : SpinPlanData n F} (hch : data.channelNum = plan.data.channelNum)
    (hlegs : data.planLegs = plan.data.planLegs)
    (hcount : data.planLegCount.toNat = legPairs plan.payload) :
    HoldsPlan libc plan.payload data := by
  obtain ⟨chNum, rest, rest', -, hparse, htail, hnil⟩ := parseSetPlan_accepted plan.accepted
  have hholds := parseLegs_holds libc (by rfl) (Holds.nil _) hparse hnil
  rw [List.nil_append, htail] at hholds
  refine ⟨by rw [hch, (parseSetPlan_spec plan.accepted).1], hcount, ?_⟩
  rw [hlegs, legPairs, ← List.length_tail, ← describedLegs_length libc]
  exact hholds

/-- Up to one leg less than the maximum that is the block itself. -/
theorem AcceptedPlan.holdsPlan_data {libc : Libc F} (plan : AcceptedPlan libc n)
    (hn : n < 2 ^ 32) (hk : legPairs plan.payload < n) : HoldsPlan libc plan.payload plan.data := by
  refine AcceptedPlan.holdsPlan plan rfl rfl ?_
  rw [(parseSetPlan_spec plan.accepted).2.2, if_pos hk]
  have hsmall : legPairs plan.payload < 2 ^ 32 := by omega
  simpa using hsmall

section Format

variable {σ μ δ : Type} {conf : SubsystemMessageConf σ μ δ} {handler : MessageHandler σ δ}
  {serializationFunc : Message δ → ℕ → σ → List Byte × ℤ} {text : List Byte}

/-- With a serializer that gives up on a text that does not fit, the frame is complete or
there is one of two errors. -/
theorem formatMessage_honours (hn : 1 < n) (buf : Vector Byte n) (msg : Message δ) (env : σ)
    (hget : conf.messageHandlers[msg.type]? = some handler)
    (hser : handler.serializationFunc = some serializationFunc) (hne : text ≠ [])
    (hf : ∀ room, 0 < room → ∃ output len, serializationFunc msg room env = (output, len) ∧
      output.length ≤ room ∧ (text.length < room → len = text.length ∧ text <+: output) ∧
      (room ≤ text.length → len = -1)) :
    ∃ r, formatMessage buf conf msg env = some r ∧
      if (frame (messagePrefix conf handler msg ++ text)).length < n
      then r = .ok (frame (messagePrefix conf handler msg ++ text))
      else r = .error messageFormattingError ∨ r = .error messageTooLongError := by
  have hlen : (frame (messagePrefix conf handler msg ++ text)).length =
      (messagePrefix conf handler msg).length + text.length + 6 := by
    rw [frame_length, List.length_append]
  by_cases hroom : 1 + (messagePrefix conf handler msg).length < n
  · obtain ⟨output, len, hrun, hbound, hfits, hlong⟩ :=
      hf (n - (1 + (messagePrefix conf handler msg).length)) (by omega)
    by_cases htext : text.length < n - (1 + (messagePrefix conf handler msg).length)
    · obtain ⟨rfl, hbegins⟩ := hfits htext
      have hformat := formatMessage_text hn buf hget hser hne hroom hrun hbound fun _ => hbegins
      refine ⟨_, hformat, ?_⟩
      by_cases hframe : (frame (messagePrefix conf handler msg ++ text)).length < n
      · rw [if_pos hframe, if_neg (Nat.not_le.mpr hframe)]
      · rw [if_neg hframe, if_pos (Nat.le_of_not_lt hframe)]
        exact Or.inr rfl
    · have hminus := hlong (Nat.le_of_not_lt htext)
      refine ⟨_, formatMessage_refused hn buf hget hser hroom hrun hbound (by omega), ?_⟩
      rw [if_neg (by omega)]
      exact Or.inl rfl
  · refine ⟨_, formatMessage_no_room hn buf hget hser (Nat.le_of_not_lt hroom), ?_⟩
    rw [if_neg (by omega)]
    exact Or.inr rfl

end Format

/-- The frame goes out in one piece if it leaves a byte of the buffer free, and otherwise
one of two errors is reported and nothing goes out. -/
structure Answered (max : ℕ) (chars : List Byte) (calls : List (Call ℕ)) : Prop where
  fits : chars.length < max → Call.writes calls = [chars] ∧
    (Call.codes calls = [] ∨ Call.codes calls = [txBufferFull])
  tooLong : max ≤ chars.length → Call.writes calls = [] ∧
    (Call.codes calls = [messageFormattingError] ∨ Call.codes calls = [messageTooLongError])

theorem planReply_prefix {legs : ℕ} (libc : Libc F) (ser : SpinnerPools.Serializers legs F)
    {handler : MessageHandler (Memory legs F) DataPtr}
    (h : (spinnerConf libc ser).messageHandlers[planReply]? = some handler) (tid : ℕ)
    (data : DataPtr) : messagePrefix (spinnerConf libc ser) handler ⟨planReply, tid, data⟩ =
      decimal tid ++ ascii ",SPINNER,PLAN_REPLY" := by
  cases h
  have hnames : comma :: (cstr (ascii "SPINNER") ++ comma :: cstr (ascii "PLAN_REPLY")) =
      ascii ",SPINNER,PLAN_REPLY" := by decide
  exact congrArg (decimal tid ++ ·) hnames

theorem planReply_answered (hn : 1 < n) {legs : ℕ} (libc : Libc F) (text : F → List Byte)
    (stale : (room : ℕ) → Vector Byte room) {payload : Option (List Byte)}
    (hpairs : legPairs payload ≤ legs) (tid : ℕ) (buf : Vector Byte n) (taken msg idx : ℕ)
    (w : World (Memory legs F) ℕ DataPtr)
    (hmsg : w.messages msg = ⟨planReply, tid, ⟨.plans, idx⟩⟩)
    (hdata : HoldsPlan libc payload (w.env.plans idx)) :
    ∃ w' calls, processOutgoingMessage buf taken
        (spinnerConf libc (spinnerSerializers text stale)) msg w = some (.ok (w', calls)) ∧
      Answered n (planReplyFrame libc text tid payload) calls := by
  obtain ⟨handler, hget, hser⟩ : ∃ handler,
      (spinnerConf (n := legs) libc (spinnerSerializers text stale)).messageHandlers[planReply]? =
        some handler ∧
      handler.serializationFunc = some (spinnerSerializers text stale).serializePlanReply :=
    ⟨_, rfl, rfl⟩
  have hne : planText text (w.env.plans idx) ≠ [] := by simp [planText]
  have hcallback (room : ℕ) (hroom : 0 < room) :=
    asCallback_honours (fun _ => serializePlanReply text (w.env.plans idx)) stale
      (serializePlanReply_honours hroom text (w.env.plans idx) (by rw [hdata.count]; exact hpairs)
        (stale room))
  have hformat := formatMessage_honours hn buf (w.messages msg) w.env (by rw [hmsg]; exact hget)
    hser hne (by rw [hmsg]; exact hcallback)
  have hframe : planReplyFrame libc text tid payload = frame (messagePrefix
      (spinnerConf libc (spinnerSerializers text stale)) handler (w.messages msg) ++
      planText text (w.env.plans idx)) := by
    rw [planReplyFrame, hdata.planText_eq, hmsg, planReply_prefix libc _ hget]
  rw [← hframe] at hformat
  obtain ⟨r, hr, hout⟩ := hformat
  obtain ⟨w', calls, hrun, hfin⟩ := processOutgoingMessage_finished taken rfl hr
  refine ⟨w', calls, hrun, ?_, ?_⟩
  · intro hfits
    rw [if_pos hfits] at hout
    exact hfin.written _ hout
  · intro hlong
    rw [if_neg (Nat.not_lt.mpr hlong)] at hout
    rcases hout with hout | hout
    · obtain ⟨hwrites, hcodes⟩ := hfin.failed _ hout
      exact ⟨hwrites, Or.inl hcodes⟩
    · obtain ⟨hwrites, hcodes⟩ := hfin.failed _ hout
      exact ⟨hwrites, Or.inr hcodes⟩

/-- Every accepted plan, for every transaction id and in every state of the worker. -/
theorem plan_reply_by_length (b : Board) (libc : Libc F) (text : F → List Byte)
    (stale : (room : ℕ) → Vector Byte room) (plan : AcceptedPlan libc b.maxSpinPlanLegs)
    (tid : ℕ) :
    (legPairs plan.payload < b.maxSpinPlanLegs → HoldsPlan libc plan.payload plan.data) ∧
    ∀ (buf : Vector Byte b.bspMaxMessageLength) (taken msg idx : ℕ)
      (w : World (Memory b.maxSpinPlanLegs F) ℕ DataPtr),
      w.messages msg = ⟨planReply, tid, ⟨.plans, idx⟩⟩ →
      HoldsPlan libc plan.payload (w.env.plans idx) →
      ∃ w' calls, processOutgoingMessage buf taken
          (spinnerConf libc (spinnerSerializers text stale)) msg w = some (.ok (w', calls)) ∧
        Answered b.bspMaxMessageLength (planReplyFrame libc text tid plan.payload) calls := by
  have hlegs : b.maxSpinPlanLegs < 2 ^ 32 := by cases b <;> decide
  have hn : 1 < b.bspMaxMessageLength := by cases b <;> decide
  constructor
  · intro hk
    exact AcceptedPlan.holdsPlan_data plan hlegs hk
  · intro buf taken msg idx w hmsg hdata
    exact planReply_answered hn libc text stale (parseSetPlan_spec plan.accepted).2.1 tid buf
      taken msg idx w hmsg hdata

section TenLegs

/-- Ten legs of the longest duration, with targets of ten digits. -/
def tenLegs : List Byte := ascii "0" ++
  (List.replicate 10 (ascii ",4294967295,1000000000")).flatten

def tenLegsStale : SpinPlanData Board.stm32f072discovery.maxSpinPlanLegs ℕ :=
  ⟨0, 0, Vector.replicate _ ⟨0, 0⟩⟩

/-- The plan as `parse_set_plan` stores it. -/
def tenLegsPlan : AcceptedPlan wholeNumbers Board.stm32f072discovery.maxSpinPlanLegs :=
  ⟨tenLegsStale, some tenLegs, (parseSetPlan wholeNumbers tenLegsStale (some tenLegs)).2, by
    rfl⟩

def replyWorld : World (Memory Board.stm32f072discovery.maxSpinPlanLegs ℕ) ℕ DataPtr :=
  ⟨⟨[], fun _ => [], fun _ => ⟨planReply, 7, ⟨.plans, 0⟩⟩, fun _ => tenLegsPlan.data,
      fun _ => ⟨0, 0, 0, 0, 0⟩⟩,
    fun _ => ⟨planReply, 7, ⟨.plans, 0⟩⟩, fun _ => ⟨10, []⟩, ⟨10, []⟩⟩

def zeros (room : ℕ) : Vector Byte room := Vector.replicate room 0

theorem tenLegs_fewer :
    legPairs tenLegsPlan.payload < Board.stm32f072discovery.maxSpinPlanLegs := by
  decide +kernel

theorem tenLegs_reply_length : 250 ≤
    (planReplyFrame wholeNumbers wholeText 7 tenLegsPlan.payload).length := by
  decide +kernel

/-- The SET_PLAN frame has 246 bytes, and its plan is not sent back. -/
theorem ten_legs_not_sent :
    (frame (ascii "7,SPINNER,SET_PLAN," ++ tenLegs)).length = 246 ∧
      parseSetPlan wholeNumbers tenLegsStale (some tenLegs) = (true, tenLegsPlan.data) ∧
      ∃ w' calls, processOutgoingMessage (zeros Board.stm32f072discovery.bspMaxMessageLength) 0
          (spinnerConf wholeNumbers (spinnerSerializers wholeText zeros)) 0 replyWorld =
            some (.ok (w', calls)) ∧
        Call.writes calls = [] ∧ (Call.codes calls = [messageFormattingError] ∨
          Call.codes calls = [messageTooLongError]) := by
  refine ⟨by decide +kernel, tenLegsPlan.accepted, ?_⟩
  have hdata : HoldsPlan wholeNumbers (some tenLegs) tenLegsPlan.data :=
    AcceptedPlan.holdsPlan_data tenLegsPlan (by decide) tenLegs_fewer
  obtain ⟨w', calls, hrun, hanswered⟩ := planReply_answered (by decide) wholeNumbers wholeText zeros
    (Nat.le_of_lt tenLegs_fewer) 7 (zeros Board.stm32f072discovery.bspMaxMessageLength) 0 0 0
    replyWorld rfl hdata
  exact ⟨w', calls, hrun, hanswered.tooLong tenLegs_reply_length⟩

theorem plan_reply_of_ten_legs :
    ∃ w' calls, processOutgoingMessage (zeros Board.stm32f072discovery.bspMaxMessageLength) 0
        (spinnerConf wholeNumbers (spinnerSerializers wholeText zeros)) 0 replyWorld =
          some (.ok (w', calls)) ∧
      Answered 250 (planReplyFrame wholeNumbers wholeText 7 (some tenLegs)) calls := by
  obtain ⟨hstored, hsent⟩ :=
    plan_reply_by_length .stm32f072discovery wholeNumbers wholeText zeros tenLegsPlan 7
  exact hsent (zeros _) 0 0 0 replyWorld rfl (hstored tenLegs_fewer)

end TenLegs

end Ratfist.PlanReadBack
