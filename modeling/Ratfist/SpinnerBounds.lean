import Ratfist.SpinnerHistory

/-!
Which plans the spinner's array accesses survive. The parser admits as many legs as the
board's constant, the Rust part indexes ten, and the count of a plan with exactly the
maximal number of legs is left over from the block's last user. A run goes through if
and only if every plan that reaches the stopped channel fits.
-/
namespace Ratfist.SpinnerBounds

open CString Constants CheckedArray Routing SpinnerMessages SpinnerChannel SpinnerHistory

variable {F : Type} {n : ℕ}

/-- The number of legs a SET_PLAN payload describes: what follows the channel, in pairs. -/
def legPairs (payload : Option (List Byte)) : ℕ := ((savedTokens comma payload).length - 1) / 2

theorem parseChannelNum_rest {libc : Libc F} {savePtr rest : Option (List Byte)} {chNum : UInt8}
    (h : parseChannelNum libc savePtr = some (chNum, rest)) :
    savedTokens comma rest = (savedTokens comma savePtr).tail := by
  unfold parseChannelNum at h
  rcases hs : strtokR libc.nullAtEnd comma savePtr with ⟨_ | token, save⟩
  · simp [hs] at h
  · simp only [hs] at h
    split_ifs at h
    cases h
    rw [strtokR_some hs, List.tail_cons]

/-- The loop ends at the end of the text, or stores a leg and goes on behind two tokens. -/
theorem parseLegs_cons {libc : Libc F} {i : Fin n} {later : List (Fin n)}
    {data data' : SpinPlanData n F} {savePtr rest : Option (List Byte)}
    (h : parseLegs libc (i :: later) data savePtr = (true, data', rest)) :
    (savedTokens comma savePtr = [] ∧ data' = { data with planLegCount := i.val.toUInt32 } ∧
      savedTokens comma rest = []) ∨
    ∃ duration target save,
      savedTokens comma savePtr = duration :: target :: savedTokens comma save ∧
      parseLegs libc later ((data.setDuration i (strtoul 10 duration).value.toUInt32).setTarget i
        (libc.strtof target).value) save = (true, data', rest) := by
  rcases hs : strtokR libc.nullAtEnd comma savePtr with ⟨_ | duration, save⟩
  · obtain ⟨hnil, hend⟩ := strtokR_none hs
    simp only [parseLegs, hs] at h
    cases h
    exact Or.inl ⟨hnil, rfl, hend⟩
  simp only [parseLegs, hs] at h
  split_ifs at h
  · cases h
  rcases hs' : strtokR libc.nullAtEnd comma save with ⟨_ | target, save'⟩
  · simp [hs'] at h
  simp only [hs'] at h
  split_ifs at h
  · cases h
  exact Or.inr ⟨duration, target, save', by rw [strtokR_some hs, strtokR_some hs'], h⟩

/-- The loop over the legs stores the number of pairs unless it runs into its bound. -/
theorem parseLegs_spec (libc : Libc F) (indices : List (Fin n)) (data data' : SpinPlanData n F)
    (savePtr rest : Option (List Byte))
    (h : parseLegs libc indices data savePtr = (true, data', rest)) :
    data'.channelNum = data.channelNum ∧
      data'.planLegCount = (indices[(savedTokens comma savePtr).length / 2]?).elim
        data.planLegCount (fun i => i.val.toUInt32) ∧
      savedTokens comma rest = (savedTokens comma savePtr).drop (2 * indices.length) := by
  induction indices generalizing data savePtr with
  | nil =>
    cases h
    exact ⟨rfl, rfl, rfl⟩
  | cons i later ih =>
    rcases parseLegs_cons h with ⟨hnil, rfl, hend⟩ | ⟨duration, target, save, htoks, hlater⟩
    · exact ⟨rfl, by simp [hnil], by rw [hend, hnil]; rfl⟩
    obtain ⟨hch, hcount, hrest⟩ := ih _ save hlater
    refine ⟨hch, ?_, ?_⟩
    · rw [hcount, htoks]
      have hlen : (duration :: target :: savedTokens comma save).length / 2 =
          (savedTokens comma save).length / 2 + 1 := by
        simp only [List.length_cons]
        omega
      rw [hlen]
      rfl
    · rw [hrest, htoks, List.length_cons, Nat.mul_add]
      rfl

/-- An accepted SET_PLAN is a channel and legs up to the end of the text. -/
theorem parseSetPlan_accepted {libc : Libc F} {stale data : SpinPlanData n F}
    {payload : Option (List Byte)} (h : parseSetPlan libc stale payload = (true, data)) :
    ∃ chNum rest rest', parseChannelNum libc payload = some (chNum, rest) ∧
      parseLegs libc (List.finRange n) { stale with channelNum := chNum } rest =
        (true, data, rest') ∧
      savedTokens comma rest = (savedTokens comma payload).tail ∧
      savedTokens comma rest' = [] := by
  unfold parseSetPlan at h
  rcases hch : parseChannelNum libc payload with _ | ⟨chNum, rest⟩
  · simp [hch] at h
  simp only [hch] at h
  rcases hlegs : parseLegs libc (List.finRange n) { stale with channelNum := chNum } rest with
    ⟨_ | _, data', rest'⟩
  · simp [hlegs] at h
  simp only [hlegs, Prod.mk.injEq] at h
  obtain ⟨hend, rfl⟩ := h
  refine ⟨chNum, rest, rest', rfl, hlegs, parseChannelNum_rest hch, ?_⟩
  obtain ⟨hhead, -⟩ := strtokR_spec libc.nullAtEnd comma rest'
  rw [Option.isNone_iff_eq_none.mp hend] at hhead
  exact List.head?_eq_none_iff.mp hhead.symm

/-- An accepted SET_PLAN: its channel is the first token, it has at most `n` legs, and
with exactly `n` of them the stored count is the one the block came with. -/
theorem parseSetPlan_spec {libc : Libc F} {stale data : SpinPlanData n F}
    {payload : Option (List Byte)} (h : parseSetPlan libc stale payload = (true, data)) :
    (parseChannelNum libc payload).map Prod.fst = some data.channelNum ∧
      legPairs payload ≤ n ∧
      data.planLegCount = (if legPairs payload < n then (legPairs payload).toUInt32
        else stale.planLegCount) := by
  obtain ⟨chNum, rest, rest', hch, hlegs, htail, hnil⟩ := parseSetPlan_accepted h
  obtain ⟨hch', hcount, hrest⟩ := parseLegs_spec libc _ _ _ _ _ hlegs
  have hpairs : (savedTokens comma rest).length / 2 = legPairs payload := by
    rw [htail, List.length_tail, legPairs]
  rw [hpairs] at hcount
  refine ⟨by simp [hch, hch'], ?_, ?_⟩
  · rw [hnil, List.length_finRange] at hrest
    have hlen := congrArg List.length hrest
    simp only [List.length_nil, List.length_drop] at hlen
    omega
  · rw [hcount]
    split_ifs with hk
    · simp [hk]
    · simp [hk]

/-- Only storing a plan can panic, and it does with more than ten legs. -/
theorem sendEvent_isSome_iff (hn : rustPlanLegs ≤ n) (c : Channel F) (event : SpinnerEvent n F) :
    (c.sendEvent event).isSome ↔ ∀ data, event = .setPlan data → c.state = .stopped →
      data.planLegCount.toNat ≤ rustPlanLegs := by
  constructor
  · rintro h data rfl hstate
    obtain ⟨⟨c', reply⟩, hsend⟩ := Option.isSome_iff_exists.mp h
    simp only [Channel.sendEvent, hstate] at hsend
    obtain ⟨stored, hset, -⟩ := Option.bind_eq_some_iff.mp hsend
    exact (setChannelPlan_stored hn hstate hset).1
  · intro h
    unfold Channel.sendEvent
    cases hstate : c.state <;> cases event <;> try rfl
    case stopped.setPlan data =>
      obtain ⟨plan, hplan, -⟩ := copyLegs_to_channel hn data c.plan (h data rfl hstate)
      simp [Channel.setChannelPlan, hstate, hplan]

theorem handleMessage_isSome_iff (channels : Channels F) (msg : SpinnerMessage n F) :
    (handleMessage channels msg).isSome ↔
      ∀ event, event0 msg = some event → ((channel0 channels).sendEvent event).isSome := by
  simp only [event0_eq_some_iff]
  unfold handleMessage
  cases hev : msg.event with
  | none => simp
  | some target =>
    obtain ⟨chNum, event⟩ := target
    dsimp only
    split_ifs with hch
    · have hzero : chNum = 0 := by
        unfold numChannels at hch
        exact UInt8.toNat_inj.mp (by simpa using hch)
      subst hzero
      have hget : channels[(0 : UInt8).toNat] = channel0 channels := rfl
      rw [hget]
      cases hsend : (channel0 channels).sendEvent event <;> simp [hsend]
    · have hch0 : chNum ≠ 0 := by
        rintro rfl
        exact hch Nat.one_pos
      simp [hch0]

/-- The plan is stored at once or the worker hangs; a reply that is filled never panics. -/
theorem answer_isSome_iff (hn : rustPlanLegs ≤ n) {channels : Channels F} (req : Request n F)
    {earlier : List (SpinnerMessage n F)} (hr : Reflects (channel0 channels) earlier) :
    (answer channels req).isSome ↔ ∀ data, event0 req.msg = some (.setPlan data) →
      stateAfter earlier = .stopped → data.planLegCount.toNat ≤ rustPlanLegs := by
  have hhandled : (handleMessage channels req.msg).isSome ↔
      ∀ data, event0 req.msg = some (.setPlan data) → stateAfter earlier = .stopped →
        data.planLegCount.toNat ≤ rustPlanLegs := by
    rw [handleMessage_isSome_iff]
    simp only [sendEvent_isSome_iff hn, hr.state]
    constructor
    · intro h data hevent
      exact h _ hevent data rfl
    · rintro h event hevent data rfl
      exact h data hevent
  rw [← hhandled]
  constructor
  · intro h
    obtain ⟨⟨channels', reply⟩, hans⟩ := Option.isSome_iff_exists.mp h
    obtain ⟨sent, hhandle, -⟩ := answer_handled hans
    rw [hhandle]
    rfl
  · intro h
    obtain ⟨⟨channels', sent⟩, hhandle⟩ := Option.isSome_iff_exists.mp h
    simp only [answer, hhandle, Option.bind_eq_bind, Option.bind_some]
    match sent, hblock : req.block with
    | none, _ => rfl
    | some (c, kind), none => rfl
    | some (c, kind), some block =>
      have hbounded := (hr.step hn hhandle).bounded
      rcases handleMessage_cases hhandle with ⟨-, hnone, -⟩ | ⟨event, c', kind', -, -, hc, hsent⟩
      · cases hnone
      cases hsent
      rw [hc] at hbounded
      cases kind with
      | spinPlanReply =>
        obtain ⟨data, hfill, -⟩ := copyLegs_to_reply hn c.plan
          { block.plan with channelNum := c.id, planLegCount := c.planLen.toUInt32 } hbounded
        simp [Reply.fill, Channel.sendSpinPlanReply, hfill]
      | spinStateReply => rfl
      | returnVal v => rfl

/-- A whole run, whatever blocks the replies get. -/
theorem run_isSome_iff (hn : rustPlanLegs ≤ n) {channels : Channels F}
    {earlier : List (SpinnerMessage n F)} (hr : Reflects (channel0 channels) earlier)
    (reqs : List (Request n F)) :
    (run channels reqs).isSome ↔ ∀ pre req post data, reqs = pre ++ req :: post →
      event0 req.msg = some (.setPlan data) →
      stateAfter (earlier ++ pre.map Request.msg) = .stopped →
      data.planLegCount.toNat ≤ rustPlanLegs := by
  induction reqs generalizing channels earlier with
  | nil => simp [run]
  | cons req reqs ih =>
    cases hans : answer channels req with
    | none =>
      have hfirst := (answer_isSome_iff hn req hr).not
      simp only [hans, Option.isSome_none, Bool.false_eq_true, not_false_eq_true, true_iff,
        not_forall] at hfirst
      obtain ⟨data, hevent, hstopped, hbig⟩ := hfirst
      simp only [run, hans, Option.bind_eq_bind, Option.bind_none, Option.isSome_none,
        Bool.false_eq_true, false_iff]
      intro h
      exact hbig (h [] req reqs data rfl hevent (by simpa using hstopped))
    | some done =>
      obtain ⟨channels', reply⟩ := done
      obtain ⟨sent, hhandle, -⟩ := answer_handled hans
      have hfirst := (answer_isSome_iff hn req hr).mp (by rw [hans]; rfl)
      have hrun : (run channels (req :: reqs)).isSome = (run channels' reqs).isSome := by
        simp only [run, hans, Option.bind_eq_bind, Option.bind_some]
        cases run channels' reqs <;> rfl
      rw [hrun, ih (hr.step hn hhandle)]
      constructor
      · intro h pre r post data heq hevent hstopped
        cases pre with
        | nil =>
          cases heq
          exact hfirst data hevent (by simpa using hstopped)
        | cons p pre =>
          cases heq
          exact h pre r post data rfl hevent (by simpa using hstopped)
      · intro h pre r post data heq hevent hstopped
        exact h (req :: pre) r post data (by rw [heq]; rfl) hevent (by simpa using hstopped)

/-- A payload that `parse_set_plan` accepts into a block with any previous content. -/
structure AcceptedPlan (libc : Libc F) (n : ℕ) where
  stale : SpinPlanData n F
  payload : Option (List Byte)
  data : SpinPlanData n F
  accepted : parseSetPlan libc stale payload = (true, data)

inductive Arrival (libc : Libc F) (n : ℕ)
  | setPlan (plan : AcceptedPlan libc n)
  | getPlan (data : SmallSizeMsgData F)
  | setState (data : SmallSizeMsgData F)
  | getState (data : SmallSizeMsgData F)

namespace Arrival

variable {libc : Libc F}

def msg : Arrival libc n → SpinnerMessage n F
  | setPlan plan => .setSpinPlan plan.data
  | getPlan data => .getSpinPlan data
  | setState data => .setSpinState data
  | getState data => .getSpinState data

def request (arrived : ℕ × Arrival libc n × Option (Block n F)) : Request n F :=
  ⟨arrived.1, arrived.2.1.msg, arrived.2.2⟩

end Arrival

/-- At most ten legs, unless there are as many as the parser admits: then the count is
the one left over in the block, and that must not exceed ten. -/
def AcceptedPlan.Fits {libc : Libc F} (plan : AcceptedPlan libc n) : Prop :=
  if legPairs plan.payload < n then legPairs plan.payload ≤ rustPlanLegs
  else plan.stale.planLegCount.toNat ≤ rustPlanLegs

theorem AcceptedPlan.fits_iff {libc : Libc F} (plan : AcceptedPlan libc n) (hn : n < 2 ^ 32) :
    plan.data.planLegCount.toNat ≤ rustPlanLegs ↔ plan.Fits := by
  obtain ⟨-, -, hcount⟩ := parseSetPlan_spec plan.accepted
  rw [hcount, Fits]
  split_ifs with hk
  · have hsmall : (legPairs plan.payload).toUInt32.toNat = legPairs plan.payload := by
      have : legPairs plan.payload < 2 ^ 32 := by omega
      simpa using this
    rw [hsmall]
  · rfl

/-- No array access of a run goes wrong exactly when every plan that is handled while
channel 0 is stopped fits. -/
theorem plans_in_bounds_iff [Zero F] (b : Board) (libc : Libc F)
    (arrivals : List (ℕ × Arrival libc b.maxSpinPlanLegs × Option (Block b.maxSpinPlanLegs F))) :
    (run (initialChannels : Channels F) (arrivals.map Arrival.request)).isSome ↔
      ∀ pre tid plan block post, arrivals = pre ++ (tid, .setPlan plan, block) :: post →
        (parseChannelNum libc plan.payload).map Prod.fst = some 0 →
        stateAfter (pre.map fun arrived => arrived.2.1.msg) = .stopped → plan.Fits := by
  have hn : b.maxSpinPlanLegs < 2 ^ 32 := by cases b <;> decide
  rw [run_isSome_iff (rustPlanLegs_le b) reflects_initial]
  constructor
  · rintro h pre tid plan block post rfl hch hstopped
    rw [(parseSetPlan_spec plan.accepted).1] at hch
    rw [← plan.fits_iff hn]
    refine h (pre.map Arrival.request) (Arrival.request (tid, .setPlan plan, block))
      (post.map Arrival.request) plan.data (by simp) (event0_eq_some_iff.mpr ?_) ?_
    · have h0 : plan.data.channelNum = 0 := by simpa using hch
      simp [Arrival.request, Arrival.msg, SpinnerMessage.event, h0]
    · simpa [Arrival.request, Function.comp_def] using hstopped
  · intro h pre req post data heq hevent hstopped
    obtain ⟨pre', rest, rfl, rfl, hrest⟩ := List.map_eq_append_iff.mp heq
    obtain ⟨⟨tid, arrival, block⟩, post', rfl, rfl, -⟩ := List.map_eq_cons_iff.mp hrest
    rw [event0_eq_some_iff] at hevent
    cases arrival with
    | setPlan plan =>
      simp only [Arrival.request, Arrival.msg, SpinnerMessage.event, Option.some.injEq,
        Prod.mk.injEq, SpinnerEvent.setPlan.injEq] at hevent
      obtain ⟨h0, rfl⟩ := hevent
      rw [plan.fits_iff hn]
      refine h pre' tid plan block post' rfl ?_ ?_
      · rw [(parseSetPlan_spec plan.accepted).1, h0]
      · simpa [Arrival.request, Function.comp_def] using hstopped
    | getPlan d => simp [Arrival.request, Arrival.msg, SpinnerMessage.event] at hevent
    | setState d => simp [Arrival.request, Arrival.msg, SpinnerMessage.event] at hevent
    | getState d => simp [Arrival.request, Arrival.msg, SpinnerMessage.event] at hevent

/-- Eleven legs are accepted, and storing them on the channel panics. -/
theorem eleven_legs_panic :
    ∃ data : SpinPlanData Board.stm32f072discovery.maxSpinPlanLegs ℕ,
      parseSetPlan wholeNumbers ⟨0, 0, Vector.replicate _ ⟨0, 0⟩⟩
        (some (ascii "0,9,1,9,2,9,3,9,4,9,5,9,6,9,7,9,8,9,9,9,10,9,11")) = (true, data) ∧
      run (initialChannels : Channels ℕ) [⟨1, .setSpinPlan data, none⟩] = none := by
  refine ⟨_, rfl, ?_⟩
  decide +kernel

end Ratfist.SpinnerBounds
