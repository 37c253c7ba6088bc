import Ratfist.SpinnerMessages
import Ratfist.CheckedArray

/-!
A spinner channel (`spinner.rs`): its state table and the three functions that fill a
reply. The Rust part declares the shared plan structure a second time, with ten legs,
and indexes it through that declaration; `none` is a bounds panic. A request is
handled up to the allocation of its reply, which is left to the caller.
-/
namespace Ratfist.SpinnerChannel

open Constants CheckedArray SpinnerMessages

variable {F : Type} {n : ℕ}

inductive ChannelState
  | stopped
  | running
  | spindown
deriving DecidableEq, Repr

structure Channel (F : Type) where
  id : UInt8
  state : ChannelState
  plan : Vector (PwmLeg F) rustMaxSpinPlanLegs
  planLen : ℕ
  elapsedTimeMsecs : UInt32
  outputValPct : F
deriving DecidableEq

inductive SpinnerEvent (n : ℕ) (F : Type)
  | setPlan (data : SpinPlanData n F)
  | getPlan
  | setState (data : SmallSizeMsgData F)
  | getState

/-- The send function that ends `send_event`. -/
inductive Reply
  | spinPlanReply
  | spinStateReply
  | returnVal (v : ℤ)
deriving DecidableEq, Repr

def Reply.msgType : Reply → ℕ
  | .spinPlanReply => planReply
  | .spinStateReply => stateReply
  | .returnVal _ => retVal

/-- `data.plan_legs[leg_idx]` under the Rust declaration. -/
def readLeg (data : SpinPlanData n F) (legIdx : ℕ) : Option (PwmLeg F) :=
  if legIdx < rustPlanLegs then CheckedArray.read data.planLegs legIdx else none

def writeLeg (data : SpinPlanData n F) (legIdx : ℕ) (leg : PwmLeg F) :
    Option (SpinPlanData n F) :=
  if legIdx < rustPlanLegs then
    (write data.planLegs legIdx leg).map (fun legs => { data with planLegs := legs })
  else none

/-- `for leg_idx in 0..plan_len`, storing each leg read. -/
def copyLegs {α : Type} (readSrc : ℕ → Option (PwmLeg F)) (writeDst : α → ℕ → PwmLeg F → Option α)
    (dst : α) : ℕ → Option α
  | 0 => some dst
  | planLen + 1 => do
    let dst ← copyLegs readSrc writeDst dst planLen
    writeDst dst planLen (← readSrc planLen)

namespace Channel

/-- `Channel::default`. -/
def default [Zero F] : Channel F :=
  ⟨0, .stopped, Vector.replicate rustMaxSpinPlanLegs ⟨0, 0⟩, 0, 0, 0⟩

def setChannelState (c : Channel F) (data : SmallSizeMsgData F) : Channel F :=
  if c.state = .running ∧ data.state = stateStopped then { c with state := .spindown }
  else if c.state = .stopped ∧ data.state = stateRunning then { c with state := .running }
  else c

def setChannelPlan (c : Channel F) (data : SpinPlanData n F) : Option (Channel F) :=
  if c.state ≠ .stopped then some c
  else do
    let planLen := data.planLegCount.toNat
    let plan ← copyLegs (readLeg data) write c.plan planLen
    pure { c with plan, planLen }

/-- `send_event`, up to the call of the send function. -/
def sendEvent (c : Channel F) (event : SpinnerEvent n F) : Option (Channel F × Reply) :=
  match c.state with
  | .stopped =>
    match event with
    | .setPlan data => do
      let c ← c.setChannelPlan data
      pure (c, .returnVal 0)
    | .getPlan => some (c, .spinPlanReply)
    | .setState data => some (c.setChannelState data, .returnVal 0)
    | .getState => some (c, .spinStateReply)
  | .running =>
    match event with
    | .getPlan => some (c, .spinPlanReply)
    | .setState data => some (c.setChannelState data, .returnVal 0)
    | .getState => some (c, .spinStateReply)
    | .setPlan _ => some (c, .returnVal 1)
  | .spindown =>
    match event with
    | .getPlan => some (c, .spinPlanReply)
    | .getState => some (c, .spinStateReply)
    | .setPlan _ | .setState _ => some (c, .returnVal 1)

/-- `send_spin_plan_reply` on an allocated payload. -/
def sendSpinPlanReply (c : Channel F) (data : SpinPlanData n F) : Option (SpinPlanData n F) :=
  copyLegs (CheckedArray.read c.plan) writeLeg
    { data with channelNum := c.id, planLegCount := c.planLen.toUInt32 } c.planLen

def stateCode : ChannelState → UInt32
  | .stopped => stateStopped
  | .running => stateRunning
  | .spindown => stateSpinningDown

/-- `send_spin_state_reply` on an allocated payload. -/
def sendSpinStateReply (c : Channel F) (data : SmallSizeMsgData F) : SmallSizeMsgData F :=
  { data with
    channelNum := c.id
    state := stateCode c.state
    planTimeElapsedMsecs := c.elapsedTimeMsecs
    outputValPct := c.outputValPct }

/-- `send_return_val` on an allocated payload. -/
def sendReturnVal (v : ℤ) (data : SmallSizeMsgData F) : SmallSizeMsgData F :=
  { data with retVal := v }

end Channel

/-- `Message`: what `try_from` makes of a message pointer. -/
inductive SpinnerMessage (n : ℕ) (F : Type)
  | setSpinPlan (data : SpinPlanData n F)
  | getSpinPlan (data : SmallSizeMsgData F)
  | spinPlanReply (data : SpinPlanData n F)
  | setSpinState (data : SmallSizeMsgData F)
  | getSpinState (data : SmallSizeMsgData F)
  | spinStateReply (data : SmallSizeMsgData F)
  | returnValue (data : SmallSizeMsgData F)
deriving DecidableEq

/-- The channel and the event that `spinner_comm_loop` takes from a message. -/
def SpinnerMessage.event : SpinnerMessage n F → Option (UInt8 × SpinnerEvent n F)
  | .setSpinPlan data => some (data.channelNum, .setPlan data)
  | .getSpinPlan data => some (data.channelNum, .getPlan)
  | .setSpinState data => some (data.channelNum, .setState data)
  | .getSpinState data => some (data.channelNum, .getState)
  | .spinPlanReply _ | .spinStateReply _ | .returnValue _ => none

abbrev Channels (F : Type) := Vector (Channel F) numChannels

def initialChannels [Zero F] : Channels F := Vector.replicate numChannels Channel.default

/-- `spinner_comm_loop` on one message: the channels afterwards and, if a channel
took the event, its reply and what that channel now is. -/
def handleMessage (channels : Channels F) (msg : SpinnerMessage n F) :
    Option (Channels F × Option (Channel F × Reply)) :=
  match msg.event with
  | none => some (channels, none)
  | some (chNum, event) =>
    if h : chNum.toNat < numChannels then do
      let (c, reply) ← channels[chNum.toNat].sendEvent event
      pure (channels.set chNum.toNat c h, some (c, reply))
    else some (channels, none)

structure Block (n : ℕ) (F : Type) where
  plan : SpinPlanData n F
  small : SmallSizeMsgData F

def Reply.fill (c : Channel F) (block : Block n F) : Reply → Option (SpinnerMessage n F)
  | .spinPlanReply => (c.sendSpinPlanReply block.plan).map .spinPlanReply
  | .spinStateReply => some (.spinStateReply (c.sendSpinStateReply block.small))
  | .returnVal v => some (.returnValue (Channel.sendReturnVal v block.small))

/-- What a channel can do with an event, with the guards that decide it. -/
theorem Channel.sendEvent_cases {c c' : Channel F} {event : SpinnerEvent n F} {reply : Reply}
    (h : c.sendEvent event = some (c', reply)) :
    (∃ data, event = .setPlan data ∧ c.state = .stopped ∧ c.setChannelPlan data = some c' ∧
        reply = .returnVal 0) ∨
      (∃ data, event = .setState data ∧ c.state ≠ .spindown ∧ c' = c.setChannelState data ∧
        reply = .returnVal 0) ∨
      (event = .getPlan ∧ c' = c ∧ reply = .spinPlanReply) ∨
      (event = .getState ∧ c' = c ∧ reply = .spinStateReply) ∨
      (c' = c ∧ reply = .returnVal 1 ∧
        ((∃ data, event = .setPlan data ∧ c.state ≠ .stopped) ∨
          ∃ data, event = .setState data ∧ c.state = .spindown)) := by
  unfold Channel.sendEvent at h
  cases hstate : c.state <;> cases event <;> simp only [hstate] at h
  case stopped.setPlan data =>
    obtain ⟨mid, hmid, h⟩ := Option.bind_eq_some_iff.mp h
    cases h
    exact Or.inl ⟨data, rfl, rfl, hmid, rfl⟩
  all_goals
    cases h
    simp

section Copying

variable {α : Type} {readSrc : ℕ → Option (PwmLeg F)} {writeDst : α → ℕ → PwmLeg F → Option α}
  {dst dst' : α} {planLen : ℕ}

theorem copyLegs_succ (h : copyLegs readSrc writeDst dst (planLen + 1) = some dst') :
    ∃ mid leg, copyLegs readSrc writeDst dst planLen = some mid ∧
      readSrc planLen = some leg ∧ writeDst mid planLen leg = some dst' := by
  rw [copyLegs] at h
  obtain ⟨mid, hmid, h⟩ := Option.bind_eq_some_iff.mp h
  obtain ⟨leg, hleg, h⟩ := Option.bind_eq_some_iff.mp h
  exact ⟨mid, leg, hmid, hleg, h⟩

private theorem take_succ_toList {m : ℕ} (v : Vector (PwmLeg F) m) {k : ℕ} (h : k < m) :
    v.toList.take (k + 1) = v.toList.take k ++ [v[k]] := by
  rw [List.take_succ_eq_append_getElem (by simpa using h)]
  simp

private theorem length_take_toList {m : ℕ} (v : Vector (PwmLeg F) m) {k : ℕ} (h : k ≤ m) :
    (v.toList.take k).length = k := by
  simpa using h

/-- Storing one more leg behind a copied front. -/
private theorem Holds.push_leg {m m' : ℕ} {v : Vector (PwmLeg F) m} {src : Vector (PwmLeg F) m'}
    {k : ℕ} (hv : Holds v (src.toList.take k)) (hk : k < m) (hk' : k < m') :
    Holds (v.set k src[k] hk) (src.toList.take (k + 1)) := by
  rw [take_succ_toList src hk']
  have hlen := length_take_toList src (Nat.le_of_lt hk')
  have hpush := hv.push src[k] (by omega)
  simpa only [hlen] using hpush

/-- A stored plan has at most as many legs as the Rust declaration. -/
theorem planLen_le_of_copied {data : SpinPlanData n F}
    {plan plan' : Vector (PwmLeg F) rustMaxSpinPlanLegs}
    (h : copyLegs (readLeg data) write plan planLen = some plan') : planLen ≤ rustPlanLegs := by
  cases planLen with
  | zero => exact Nat.zero_le _
  | succ k =>
    obtain ⟨-, leg, -, hleg, -⟩ := copyLegs_succ h
    by_contra hk
    rw [readLeg, if_neg (by omega)] at hleg
    cases hleg

/-- Up to ten legs are copied into the channel. -/
theorem copyLegs_to_channel (hn : rustPlanLegs ≤ n) (data : SpinPlanData n F)
    (plan : Vector (PwmLeg F) rustMaxSpinPlanLegs) (hlen : planLen ≤ rustPlanLegs) :
    ∃ plan', copyLegs (readLeg data) write plan planLen = some plan' ∧
      Holds plan' (data.planLegs.toList.take planLen) := by
  induction planLen with
  | zero => exact ⟨plan, rfl, Holds.nil plan⟩
  | succ k ih =>
    obtain ⟨mid, hmid, hholds⟩ := ih (by omega)
    have hk : k < rustMaxSpinPlanLegs := by
      unfold rustPlanLegs at hlen
      unfold rustMaxSpinPlanLegs
      omega
    have hkn : k < n := by omega
    have hread : readLeg data k = some data.planLegs[k] := by
      rw [readLeg, if_pos (by omega), read_of_lt data.planLegs hkn]
    refine ⟨mid.set k data.planLegs[k] hk, ?_, Holds.push_leg hholds hk hkn⟩
    simp [copyLegs, hmid, hread, write_of_lt mid _ hk]

/-- Up to ten legs are copied into the payload of a reply. -/
theorem copyLegs_to_reply (hn : rustPlanLegs ≤ n) (plan : Vector (PwmLeg F) rustMaxSpinPlanLegs)
    (data : SpinPlanData n F) (hlen : planLen ≤ rustPlanLegs) :
    ∃ data', copyLegs (CheckedArray.read plan) writeLeg data planLen = some data' ∧
      data'.channelNum = data.channelNum ∧ data'.planLegCount = data.planLegCount ∧
      Holds data'.planLegs (plan.toList.take planLen) := by
  induction planLen with
  | zero => exact ⟨data, rfl, rfl, rfl, Holds.nil _⟩
  | succ k ih =>
    obtain ⟨mid, hmid, hch, hcount, hholds⟩ := ih (by omega)
    have hk : k < rustMaxSpinPlanLegs := by
      unfold rustPlanLegs at hlen
      unfold rustMaxSpinPlanLegs
      omega
    have hkn : k < n := by omega
    have hread : CheckedArray.read plan k = some plan[k] := read_of_lt plan hk
    refine ⟨{ mid with planLegs := mid.planLegs.set k plan[k] hkn }, ?_, hch, hcount,
      Holds.push_leg hholds hkn hk⟩
    simp [copyLegs, hmid, hread, writeLeg, show k < rustPlanLegs by omega, write_of_lt _ _ hkn]

end Copying

def channel0 (channels : Channels F) : Channel F :=
  channels[(⟨0, Nat.one_pos⟩ : Fin numChannels)]

/-- There is one channel: a message goes to it or is ignored. -/
theorem handleMessage_cases {channels channels' : Channels F} {msg : SpinnerMessage n F}
    {sent : Option (Channel F × Reply)} (h : handleMessage channels msg = some (channels', sent)) :
    (channels' = channels ∧ sent = none ∧ ∀ event, msg.event ≠ some (0, event)) ∨
      ∃ event c' reply, msg.event = some (0, event) ∧
        (channel0 channels).sendEvent event = some (c', reply) ∧
        channel0 channels' = c' ∧ sent = some (c', reply) := by
  unfold handleMessage at h
  cases hevent : msg.event with
  | none =>
    simp only [hevent] at h
    cases h
    exact Or.inl ⟨rfl, rfl, by simp⟩
  | some target =>
    obtain ⟨chNum, event⟩ := target
    simp only [hevent] at h
    split_ifs at h with hch
    · have hzero : chNum = 0 := by
        unfold numChannels at hch
        exact UInt8.toNat_inj.mp (by simpa using hch)
      subst hzero
      obtain ⟨⟨c', reply⟩, hsend, h⟩ := Option.bind_eq_some_iff.mp h
      cases h
      exact Or.inr ⟨event, c', reply, rfl, hsend, by simp [channel0], rfl⟩
    · cases h
      refine Or.inl ⟨rfl, rfl, fun event' heq => hch ?_⟩
      cases heq
      exact Nat.one_pos

end Ratfist.SpinnerChannel
