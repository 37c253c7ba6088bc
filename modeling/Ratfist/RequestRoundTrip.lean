import Ratfist.FieldText
import Ratfist.ReceivedStream
import Ratfist.RequestParsing
import Ratfist.SentLine
import Ratfist.SetPlanParsing

/-!
Requests to the spinner on their whole way in: written as text, framed, taken apart by the
receive worker and read back from the incoming queue. What a client asks for is what the
spinner's worker finds there, request by request and in order.
-/
namespace Ratfist.RequestRoundTrip

open CString CheckedArray Constants Assembler FrameScan FrameRoundTrip Subsystem Routing
  RoutingOutcomes SpinnerMessages SpinnerChannel SpinnerPools NumberFields SetPlanParsing
  RequestParsing ReceivedStream FieldText SentLine Runs

variable {F : Type} {n : ℕ}

inductive Request (F : Type)
  | setPlan (channelNum : UInt8) (legs : List (PwmLeg F))
  | getPlan (channelNum : UInt8)
  | setState (channelNum : UInt8) (running : Bool)
  | getState (channelNum : UInt8)

namespace Request

def type : Request F → ℕ
  | setPlan _ _ => SpinnerMessages.setPlan
  | getPlan _ => SpinnerMessages.getPlan
  | setState _ _ => SpinnerMessages.setState
  | getState _ => SpinnerMessages.getState

def channelNum : Request F → UInt8
  | setPlan ch _ | getPlan ch | setState ch _ | getState ch => ch

def name : Request F → List Byte
  | setPlan _ _ => ascii "SET_PLAN"
  | getPlan _ => ascii "GET_PLAN"
  | setState _ _ => ascii "SET_STATE"
  | getState _ => ascii "GET_STATE"

def pool : Request F → DataPool
  | setPlan _ _ => .plans
  | _ => .smalls

def legFields (text : F → List Byte) (leg : PwmLeg F) : List (List Byte) :=
  [decimal leg.durationMsecs.toNat, text leg.targetPct]

def fields (text : F → List Byte) : Request F → List (List Byte)
  | setPlan ch legs => decimal ch.toNat :: legs.flatMap (legFields text)
  | getPlan ch | getState ch => [decimal ch.toNat]
  | setState ch running => [decimal ch.toNat, ascii (if running then "ON" else "OFF")]

def words (text : F → List Byte) (tid : ℕ) (req : Request F) : List (List Byte) :=
  decimal tid :: ascii "SPINNER" :: req.name :: req.fields text

def payload (text : F → List Byte) (tid : ℕ) (req : Request F) : List Byte :=
  joined comma (req.words text tid)

def ReadAs : Request F → SpinnerMessage n F → Prop
  | setPlan ch legs, .setSpinPlan data => Stores data ch.toNat legs
  | getPlan ch, .getSpinPlan data => data.channelNum = ch
  | setState ch running, .setSpinState data =>
    data.channelNum = ch ∧ data.state = if running then stateRunning else stateStopped
  | getState ch, .getSpinState data => data.channelNum = ch
  | _, _ => False

/-- Fewer legs than the maximum, and targets that `strtof` reads back. -/
def Writable (libc : Libc F) (text : F → List Byte) (n : ℕ) : Request F → Prop
  | setPlan _ legs => legs.length < n ∧ ∀ leg ∈ legs, FieldOf comma (text leg.targetPct) ∧
      Clean (text leg.targetPct) ∧ readTarget libc (text leg.targetPct) = some leg.targetPct
  | _ => True

/-- How the fields behind the message name have to read. -/
def ReadFrom (libc : Libc F) (n : ℕ) (fields : List (List Byte)) : Request F → Prop
  | setPlan ch legs => readPlan libc n fields = some (ch.toNat, legs) ∧ legs.length < n
  | getPlan ch | getState ch => readChannel fields = some ch.toNat
  | setState ch running =>
    readSetState fields = some (ch.toNat, if running then stateRunning else stateStopped)

/-- The fields are not those of a request of this type. -/
def Misread (libc : Libc F) (n : ℕ) (fields : List (List Byte)) : Request F → Prop
  | setPlan _ _ => readPlan libc n fields = none
  | getPlan _ | getState _ => readChannel fields = none
  | setState _ _ => readSetState fields = none

def parser (libc : Libc F) :
    Request F → Message DataPtr → Option (List Byte) → Memory n F → Bool × Memory n F
  | setPlan _ _ => parseIntoPlan (parseSetPlan libc)
  | getPlan _ => parseIntoSmall (parseGetPlan libc)
  | setState _ _ => parseIntoSmall (parseSetState libc)
  | getState _ => parseIntoSmall (parseGetState libc)

theorem dataPoolOf_type (req : Request F) : dataPoolOf req.type = some req.pool := by
  cases req <;> rfl

end Request

theorem readNumber_decimal {max k : ℕ} (hk : k ≤ max) (hmax : max ≤ ulongMax) :
    readNumber max (decimal k) = some k := by
  rw [readNumber, conversion_decimal (Nat.le_trans hk hmax),
    strtoul_decimal (Nat.le_trans hk hmax)]
  simp only [Bool.false_or, decide_eq_true_eq, if_neg (Nat.not_lt.mpr hk)]

theorem readChannel_decimal (ch : UInt8) : readNumber 255 (decimal ch.toNat) = some ch.toNat :=
  readNumber_decimal (Nat.le_of_lt_succ ch.toNat_lt) (by decide)

theorem readLegs_fields {libc : Libc F} {text : F → List Byte} {legs : List (PwmLeg F)}
    (h : ∀ leg ∈ legs, readTarget libc (text leg.targetPct) = some leg.targetPct) :
    readLegs libc (legs.flatMap (Request.legFields text)) = some legs := by
  induction legs with
  | nil => rfl
  | cons leg legs ih =>
    have hlater := ih (fun leg' hleg' => h leg' (List.mem_cons_of_mem leg hleg'))
    have hduration : readDuration (decimal leg.durationMsecs.toNat) =
        some leg.durationMsecs.toNat := by
      rw [readDuration_eq]
      exact readNumber_decimal (Nat.le_sub_one_of_lt leg.durationMsecs.toNat_lt) (by decide)
    have hback : leg.durationMsecs.toNat.toUInt32 = leg.durationMsecs := UInt32.ofNat_toNat
    rw [List.flatMap_cons, Request.legFields, List.cons_append, List.cons_append, List.nil_append,
      readLegs, hduration, h leg List.mem_cons_self, hlater]
    simp only [Option.bind_eq_bind, Option.bind_some, hback]

theorem readFrom_fields {libc : Libc F} {text : F → List Byte} {req : Request F}
    (h : req.Writable libc text n) : req.ReadFrom libc n (req.fields text) := by
  cases req with
  | setPlan ch legs =>
    exact ⟨readPlan_eq_some_iff.mpr ⟨readChannel_decimal ch,
      readLegs_fields fun leg hleg => (h.2 leg hleg).2.2, Nat.le_of_lt h.1⟩, h.1⟩
  | getPlan ch | getState ch => exact readChannel_decimal ch
  | setState ch running =>
    simp only [Request.ReadFrom, Request.fields, readSetState, readChannel_decimal]
    cases running <;> rfl

/-- The fields are those of a text, each in one piece. -/
theorem words_fields {libc : Libc F} {text : F → List Byte} {req : Request F}
    (h : req.Writable libc text n) (tid : ℕ) :
    ∀ field ∈ req.words text tid, FieldOf comma field ∧ Clean field := by
  have hnumber (k : ℕ) : FieldOf comma (decimal k) ∧ Clean (decimal k) :=
    ⟨decimal_field (by decide) k, clean_decimal k⟩
  have hword : ∀ word ∈ [ascii "SPINNER", ascii "SET_PLAN", ascii "GET_PLAN", ascii "SET_STATE",
      ascii "GET_STATE", ascii "ON", ascii "OFF"], FieldOf comma word ∧ Clean word := by
    unfold FieldOf
    decide
  intro field hfield
  simp only [Request.words, List.mem_cons] at hfield
  rcases hfield with rfl | rfl | rfl | hfield
  · exact hnumber tid
  · exact hword _ (by simp)
  · cases req <;> exact hword _ (by simp [Request.name])
  · cases req with
    | setPlan ch legs =>
      simp only [Request.fields, List.mem_cons, List.mem_flatMap, Request.legFields,
        List.not_mem_nil, or_false] at hfield
      rcases hfield with rfl | ⟨leg, hleg, rfl | rfl⟩
      · exact hnumber _
      · exact hnumber _
      · obtain ⟨htext, hclean, -⟩ := h.2 leg hleg
        exact ⟨htext, hclean⟩
    | getPlan ch | getState ch =>
      simp only [Request.fields, List.mem_singleton] at hfield
      rw [hfield]
      exact hnumber _
    | setState ch running =>
      simp only [Request.fields, List.mem_cons, List.not_mem_nil, or_false] at hfield
      rcases hfield with rfl | rfl
      · exact hnumber _
      · cases running
        · exact hword _ (by simp)
        · exact hword _ (by simp)

/-- The scan for tokens finds the fields, also in the buffer with its NUL. -/
theorem tokens_payload {libc : Libc F} {text : F → List Byte} {req : Request F}
    (h : req.Writable libc text n) (tid : ℕ) :
    tokens comma (req.payload text tid ++ [0]) = req.words text tid := by
  have hfields := fun field hfield => (words_fields h tid field hfield).1
  have hnul : 0 ∉ req.payload text tid := by
    intro hmem
    rcases mem_joined hmem with hzero | ⟨field, hfield, hin⟩
    · exact absurd hzero (by decide)
    · exact (hfields field hfield).2.2 hin
  have hcstr : cstr (req.payload text tid ++ [0]) = cstr (req.payload text tid) := by
    rw [cstr, takeWhile_append_stop _ _ _ _ (by decide)]
    rfl
  have htokens := tokens_joined (by decide) hfields
  rw [← htokens, tokens, hcstr]
  rfl

theorem savedTokens_restOf (nullAtEnd : Bool) (buf : List Byte) :
    savedTokens comma (restOf nullAtEnd buf) = (tokens comma buf).drop 3 := by
  obtain ⟨-, h1⟩ := strtokR_spec nullAtEnd comma (some buf)
  obtain ⟨-, h2⟩ := strtokR_spec nullAtEnd comma (strtokR nullAtEnd comma (some buf)).2
  obtain ⟨-, h3⟩ := strtokR_spec nullAtEnd comma
    (strtokR nullAtEnd comma (strtokR nullAtEnd comma (some buf)).2).2
  rw [restOf, h3, h2, h1]
  simp only [← List.drop_one, List.drop_drop]
  rfl

section Routed

variable {libc : Libc F} {ser : SpinnerPools.Serializers n F} {text : F → List Byte}
  {req : Request F}

theorem findIdx_name (req : Request F) :
    (msgHandlers libc ser).findIdx? (fun h => strcmpEq req.name h.messageName) =
      some req.type := by
  cases req <;> rfl

theorem parserOf_type (req : Request F) :
    ((msgHandlers libc ser)[req.type]?).bind MessageHandler.parsingFunc =
      some (req.parser libc) := by
  cases req <;> rfl

theorem lookup_payload (h : req.Writable libc text n) {tid : ℕ} (htid : tid ≤ ulongMax) :
    lookup libc.nullAtEnd [spinnerConf libc ser] (req.payload text tid ++ [0]) =
      .found (spinnerConf libc ser) req.type (req.parser libc) tid
        (restOf libc.nullAtEnd (req.payload text tid ++ [0])) := by
  have hnumber : parseTransactionId (decimal tid) = some tid := by
    rw [parseTransactionId_eq]
    exact readNumber_decimal htid (Nat.le_refl _)
  have hfind : [spinnerConf libc ser].find?
      (fun conf => strcmpEq (ascii "SPINNER") conf.subsystemName) = some (spinnerConf libc ser) :=
    rfl
  have hidx : (spinnerConf libc ser).messageHandlers.findIdx?
      (fun h => strcmpEq req.name h.messageName) = some req.type := findIdx_name req
  have hparser : ((spinnerConf libc ser).messageHandlers[req.type]?).bind
      MessageHandler.parsingFunc = some (req.parser libc) := parserOf_type req
  rw [lookup_eq, tokens_payload h]
  simp only [Request.words, hnumber, findHandler, hfind, hidx, hparser]

theorem goodSmalls_update {smalls : ℕ → SmallSizeMsgData F} {idx : ℕ} {small : SmallSizeMsgData F}
    (h : ∀ i, (smalls i).state.toNat < Serializers.spinStateLut.length)
    (hsmall : small.state.toNat < Serializers.spinStateLut.length) :
    ∀ i, (Function.update smalls idx small i).state.toNat < Serializers.spinStateLut.length :=
  (Function.forall_update_iff smalls fun _ (small : SmallSizeMsgData F) =>
    small.state.toNat < Serializers.spinStateLut.length).mpr ⟨hsmall, fun i _ => h i⟩

/-- The count of a plan is never more than there is room for. -/
theorem parseLegs_count (libc : Libc F) (hn : n < 2 ^ 32) (indices : List (Fin n))
    {data : SpinPlanData n F} (save : Option (List Byte)) (h : data.planLegCount.toNat ≤ n) :
    (parseLegs libc indices data save).2.1.planLegCount.toNat ≤ n := by
  induction indices generalizing data save with
  | nil => exact h
  | cons i later ih =>
    rcases hs : strtokR libc.nullAtEnd comma save with ⟨_ | duration, save'⟩
    · have hsmall : i.val < 2 ^ 32 := Nat.lt_trans i.isLt hn
      simp only [parseLegs, hs]
      rw [UInt32.toNat_ofNat_of_lt' hsmall]
      exact Nat.le_of_lt i.isLt
    simp only [parseLegs, hs]
    split_ifs
    · exact h
    rcases hs' : strtokR libc.nullAtEnd comma save' with ⟨_ | target, save''⟩
    · exact h
    simp only
    split_ifs
    · exact h
    · exact ih save'' h

theorem parseSetPlan_count (libc : Libc F) (hn : n < 2 ^ 32) {stale : SpinPlanData n F}
    (save : Option (List Byte)) (h : stale.planLegCount.toNat ≤ n) :
    (parseSetPlan libc stale save).2.planLegCount.toNat ≤ n := by
  unfold parseSetPlan
  rcases parseChannelNum libc save with _ | ⟨chNum, rest⟩
  · exact h
  have hcount := parseLegs_count libc hn (List.finRange n) rest
    (show ({ stale with channelNum := chNum } : SpinPlanData n F).planLegCount.toNat ≤ n from h)
  rcases hlegs : parseLegs libc (List.finRange n) { stale with channelNum := chNum } rest with
    ⟨_ | _, data, rest'⟩
  · rw [hlegs] at hcount
    simpa only [hlegs] using hcount
  · rw [hlegs] at hcount
    simpa only [hlegs] using hcount

theorem parseSetState_state (libc : Libc F) {stale : SmallSizeMsgData F}
    (save : Option (List Byte)) (h : stale.state.toNat < Serializers.spinStateLut.length) :
    (parseSetState libc stale save).2.state.toNat < Serializers.spinStateLut.length := by
  rcases hch : parseChannelNum libc save with _ | ⟨chNum, rest⟩
  · simpa only [parseSetState, hch] using h
  rw [parseSetState_eq hch]
  rcases savedTokens comma rest with _ | ⟨token, later⟩
  · exact h
  simp only
  cases hstate : readState token with
  | none => exact h
  | some state =>
    unfold readState at hstate
    split_ifs at hstate
    · cases hstate
      exact show stateRunning.toNat < Serializers.spinStateLut.length by decide
    · cases hstate
      exact show stateStopped.toNat < Serializers.spinStateLut.length by decide

/-- One payload block may have been written to. -/
structure Touched (pool : DataPool) (idx : ℕ) (mem mem' : Memory n F) : Prop where
  msgPool : mem'.msgPool = mem.msgPool
  dataPool : mem'.dataPool = mem.dataPool
  plans : ∀ i, (pool = .plans → i ≠ idx) → mem'.plans i = mem.plans i
  smalls : ∀ i, (pool = .smalls → i ≠ idx) → mem'.smalls i = mem.smalls i
  good : GoodPayloads mem → GoodPayloads mem'

/-- Accepted or not. -/
theorem parser_touches (libc : Libc F) (hn : n < 2 ^ 32) (req : Request F) (type tid : ℕ)
    (data : DataPtr) (save : Option (List Byte)) (mem : Memory n F) :
    Touched req.pool data.idx mem (req.parser libc ⟨type, tid, data⟩ save mem).2 := by
  have hsmall (parse : SmallSizeMsgData F → Option (List Byte) → Bool × SmallSizeMsgData F)
      (hstate : ∀ stale, stale.state.toNat < Serializers.spinStateLut.length →
        (parse stale save).2.state.toNat < Serializers.spinStateLut.length) :
      Touched .smalls data.idx mem (parseIntoSmall parse ⟨type, tid, data⟩ save mem).2 := by
    refine ⟨rfl, rfl, fun _ _ => rfl, fun i hi => Function.update_of_ne (hi rfl) _ _, ?_⟩
    rintro ⟨hplans, hsmalls⟩
    exact ⟨hplans, goodSmalls_update hsmalls (hstate _ (hsmalls data.idx))⟩
  have hchannel (stale : SmallSizeMsgData F)
      (h : stale.state.toNat < Serializers.spinStateLut.length) :
      (parseSpinChannel libc stale save).2.state.toNat < Serializers.spinStateLut.length := by
    unfold parseSpinChannel
    cases parseChannelNum libc save <;> exact h
  cases req with
  | setPlan ch legs =>
    refine ⟨rfl, rfl, fun i hi => Function.update_of_ne (hi rfl) _ _, fun _ _ => rfl, ?_⟩
    rintro ⟨hplans, hsmalls⟩
    exact ⟨(Function.forall_update_iff mem.plans
      fun _ (plan : SpinPlanData n F) => plan.planLegCount.toNat ≤ n).mpr
        ⟨parseSetPlan_count libc hn save (hplans data.idx), fun i _ => hplans i⟩, hsmalls⟩
  | getPlan ch => exact hsmall (parseGetPlan libc) hchannel
  | setState ch running =>
    exact hsmall (parseSetState libc) fun _ h => parseSetState_state libc save h
  | getState ch => exact hsmall (parseGetState libc) hchannel

/-- A payload that reads as the request is accepted, and so reads the message. -/
theorem parser_reads (hn : n < 2 ^ 32) {save : Option (List Byte)}
    (h : req.ReadFrom libc n (savedTokens comma save)) (tid msg : ℕ) (data : DataPtr)
    (mem : Memory n F) :
    (req.parser libc ⟨req.type, tid, data⟩ save mem).1 = true ∧
      ∀ messages : ℕ → Message DataPtr, messages msg = ⟨req.type, tid, data⟩ →
        ∃ read, messageOf { (req.parser libc ⟨req.type, tid, data⟩ save mem).2 with
            messages := messages } msg = some read ∧ req.ReadAs read := by
  cases req with
  | setPlan ch legs =>
    obtain ⟨hread, hlen⟩ := h
    obtain ⟨hchannel, hcount, hstored⟩ := parseSetPlan_stores (mem.plans data.idx) hn hread
    have hsmall : legs.length < 2 ^ 32 := by omega
    rw [if_pos hlen] at hcount
    refine ⟨(parseSetPlan_accepts_iff libc (mem.plans data.idx) save).mpr ⟨_, hread⟩, ?_⟩
    intro messages hmsg
    refine ⟨.setSpinPlan (parseSetPlan libc (mem.plans data.idx) save).2, ?_, hchannel, ?_,
      hstored⟩
    · simp [messageOf, hmsg, Request.type, Request.parser, parseIntoPlan]
    · rw [hcount]
      simpa using hsmall
  | getPlan ch =>
    have hparse : parseGetPlan libc (mem.smalls data.idx) save = _ :=
      (parseSpinChannel_parses libc (mem.smalls data.idx) save).eq_of_said h
    refine ⟨congrArg Prod.fst hparse, fun messages hmsg =>
      ⟨.getSpinPlan { mem.smalls data.idx with channelNum := ch.toNat.toUInt8 }, ?_,
        UInt8.ofNat_toNat⟩⟩
    simp [messageOf, hmsg, Request.type, Request.parser, parseIntoSmall, hparse,
      SpinnerMessages.getPlan, SpinnerMessages.setPlan]
  | setState ch running =>
    have hparse := (parseSetState_parses libc (mem.smalls data.idx) save).eq_of_said h
    refine ⟨congrArg Prod.fst hparse, fun messages hmsg =>
      ⟨.setSpinState { mem.smalls data.idx with
          channelNum := ch.toNat.toUInt8
          state := if running then stateRunning else stateStopped }, ?_,
        UInt8.ofNat_toNat, rfl⟩⟩
    simp [messageOf, hmsg, Request.type, Request.parser, parseIntoSmall, hparse,
      SpinnerMessages.getPlan, SpinnerMessages.setPlan, SpinnerMessages.planReply,
      SpinnerMessages.setState]
  | getState ch =>
    have hparse : parseGetState libc (mem.smalls data.idx) save = _ :=
      (parseSpinChannel_parses libc (mem.smalls data.idx) save).eq_of_said h
    refine ⟨congrArg Prod.fst hparse, fun messages hmsg =>
      ⟨.getSpinState { mem.smalls data.idx with channelNum := ch.toNat.toUInt8 }, ?_,
        UInt8.ofNat_toNat⟩⟩
    simp [messageOf, hmsg, Request.type, Request.parser, parseIntoSmall, hparse,
      SpinnerMessages.getPlan, SpinnerMessages.setPlan, SpinnerMessages.planReply,
      SpinnerMessages.setState, SpinnerMessages.getState]

theorem parser_misreads {save : Option (List Byte)}
    (h : req.Misread libc n (savedTokens comma save)) (type tid : ℕ) (data : DataPtr)
    (mem : Memory n F) : (req.parser libc ⟨type, tid, data⟩ save mem).1 = false := by
  cases req with
  | setPlan ch legs =>
    refine Bool.eq_false_iff.mpr fun haccepted => ?_
    obtain ⟨plan, hread⟩ := (parseSetPlan_accepts_iff libc (mem.plans data.idx) save).mp haccepted
    rw [show readPlan libc n (savedTokens comma save) = none from h] at hread
    cases hread
  | getPlan ch | getState ch =>
    have haccepts := (parseSpinChannel_parses libc (mem.smalls data.idx) save).accepts
    rwa [show readChannel (savedTokens comma save) = none from h] at haccepts
  | setState ch running =>
    have haccepts := (parseSetState_parses libc (mem.smalls data.idx) save).accepts
    rwa [show readSetState (savedTokens comma save) = none from h] at haccepts

/-- The message that a queued pointer stands for, as the spinner's worker reads it. -/
def Carries (w : World (Memory n F) ℕ DataPtr) (msg : ℕ) (request : ℕ × Request F) : Prop :=
  (w.messages msg).type = request.2.type ∧ (w.messages msg).transactionId = request.1 ∧
    (w.messages msg).data.pool = request.2.pool ∧
    ∃ read, messageOf { w.env with messages := w.messages } msg = some read ∧
      request.2.ReadAs read

/-- `msg` and a payload from `pool` have been taken from the pools, and nothing else has been
written to. -/
structure Took (pool : DataPool) (w w' : World (Memory n F) ℕ DataPtr) (msg : ℕ) : Prop where
  kind : (w'.messages msg).data.pool = pool
  msgPool : w.env.msgPool = msg :: w'.env.msgPool
  dataPool : ∀ pool', w.env.dataPool pool' =
    (if pool' = pool then [(w'.messages msg).data] else []) ++ w'.env.dataPool pool'
  messages : ∀ m, m ≠ msg → w'.messages m = w.messages m
  plans : ∀ i, (pool = .plans → i ≠ (w'.messages msg).data.idx) →
    w'.env.plans i = w.env.plans i
  smalls : ∀ i, (pool = .smalls → i ≠ (w'.messages msg).data.idx) →
    w'.env.smalls i = w.env.smalls i

structure Stored (w w' : World (Memory n F) ℕ DataPtr) (msg : ℕ) (request : ℕ × Request F) :
    Prop extends Took request.2.pool w w' msg where
  carries : Carries w' msg request
  errors : w'.errMsgQueue = w.errMsgQueue
  good : GoodPayloads w.env → GoodPayloads w'.env

/-- One request has arrived: it has taken a block of either kind and a slot of the queue. -/
structure Arrived (w w' : World (Memory n F) ℕ DataPtr) (msg : ℕ) (request : ℕ × Request F) :
    Prop extends Stored w w' msg request where
  queue : w'.mailboxes 0 = ⟨(w.mailboxes 0).capacity, (w.mailboxes 0).items ++ [msg]⟩
  mailboxes : ∀ q, q ≠ 0 → w'.mailboxes q = w.mailboxes q

/-- `process_incoming_message` as far as the parsing function, which accepts or not. -/
theorem request_took (libc : Libc F) (hn : n < 2 ^ 32) (req : Request F) (tid : ℕ)
    (save : Option (List Byte)) {w : World (Memory n F) ℕ DataPtr} {msg : ℕ} {rest : List ℕ}
    {data : DataPtr} {more : List DataPtr} (hmsg : w.env.msgPool = msg :: rest)
    (hdata : w.env.dataPool req.pool = data :: more) (hpool : data.pool = req.pool) :
    ∃ env, spinnerAllocMessage req.type w.env = (some (msg, ⟨req.type, 0, data⟩), env) ∧
      Took req.pool w ⟨(req.parser libc ⟨req.type, tid, data⟩ save env).2,
        Function.update w.messages msg ⟨req.type, tid, data⟩, w.mailboxes, w.errMsgQueue⟩ msg ∧
      (GoodPayloads w.env →
        GoodPayloads (req.parser libc ⟨req.type, tid, data⟩ save env).2) := by
  obtain ⟨env, hres, hrest, hpools, hplans, hsmalls⟩ : ∃ env, spinnerAllocMessage req.type w.env =
      (some (msg, ⟨req.type, 0, data⟩), env) ∧ env.msgPool = rest ∧
        env.dataPool = Function.update w.env.dataPool req.pool more ∧
        env.plans = w.env.plans ∧ env.smalls = w.env.smalls := by
    refine ⟨_, by simp only [spinnerAllocMessage, hmsg, Request.dataPoolOf_type, hdata]; rfl, ?_⟩
    exact ⟨rfl, rfl, rfl, rfl⟩
  have htouched := parser_touches libc hn req req.type tid data save env
  have hself : Function.update w.messages msg ⟨req.type, tid, data⟩ msg =
      ⟨req.type, tid, data⟩ := Function.update_self _ _ _
  refine ⟨env, hres, ⟨by simpa using hpool, ?_, ?_, ?_, ?_, ?_⟩, ?_⟩
  · simp only [htouched.msgPool, hrest, hmsg]
  · intro pool
    simp only [hself, htouched.dataPool, hpools]
    by_cases hp : pool = req.pool
    · subst hp
      simp [hdata]
    · simp [hp]
  · intro m hm
    exact Function.update_of_ne hm _ _
  · intro i hi
    simp only [hself] at hi
    simp only [htouched.plans i hi, hplans]
  · intro i hi
    simp only [hself] at hi
    simp only [htouched.smalls i hi, hsmalls]
  · rintro ⟨hp, hs⟩
    exact htouched.good ⟨by rwa [hplans], by rwa [hsmalls]⟩

/-- A payload that reads as the request is stored. -/
theorem request_stored (hn : n < 2 ^ 32) {save : Option (List Byte)}
    (h : req.ReadFrom libc n (savedTokens comma save)) (tid : ℕ)
    {w : World (Memory n F) ℕ DataPtr} {msg : ℕ} {rest : List ℕ} {data : DataPtr}
    {more : List DataPtr} (hmsg : w.env.msgPool = msg :: rest)
    (hdata : w.env.dataPool req.pool = data :: more) (hpool : data.pool = req.pool) :
    ∃ env env', spinnerAllocMessage req.type w.env = (some (msg, ⟨req.type, 0, data⟩), env) ∧
      req.parser libc ⟨req.type, tid, data⟩ save env = (true, env') ∧
      Stored w ⟨env', Function.update w.messages msg ⟨req.type, tid, data⟩, w.mailboxes,
        w.errMsgQueue⟩ msg (tid, req) := by
  obtain ⟨env, hres, htook, hgood⟩ := request_took libc hn req tid save hmsg hdata hpool
  obtain ⟨haccepted, hread⟩ := parser_reads hn h tid msg data env
  exact ⟨env, _, hres, Prod.ext haccepted rfl, htook,
    ⟨by simp, by simp, by simpa using hpool, hread _ (Function.update_self _ _ _)⟩, rfl, hgood⟩

/-- One request, with a free block of either kind and room in the queue. -/
theorem request_arrives (ser : SpinnerPools.Serializers n F) (hn : n < 2 ^ 32)
    (h : req.Writable libc text n) {tid : ℕ} (htid : tid ≤ ulongMax)
    {w : World (Memory n F) ℕ DataPtr} {msg : ℕ} {rest : List ℕ}
    {data : DataPtr} {more : List DataPtr} (hmsg : w.env.msgPool = msg :: rest)
    (hdata : w.env.dataPool req.pool = data :: more) (hpool : data.pool = req.pool)
    (hroom : (w.mailboxes 0).items.length < (w.mailboxes 0).capacity) :
    ∃ w' calls, processIncomingMessage libc.nullAtEnd [spinnerConf libc ser]
        (req.payload text tid ++ [0]) w = .ok (w', calls) ∧
      Call.codes calls = [] ∧ Arrived w w' msg (tid, req) := by
  have hread : req.ReadFrom libc n
      (savedTokens comma (restOf libc.nullAtEnd (req.payload text tid ++ [0]))) := by
    rw [savedTokens_restOf, tokens_payload h]
    exact readFrom_fields h
  obtain ⟨env, env', hres, hparse, hstored⟩ := request_stored hn hread tid hmsg hdata hpool
  have hfull : (w.mailboxes 0).full = false := by
    simp only [Mailbox.full, decide_eq_false_iff_not]
    omega
  have hsent := handOver_sent (req.parser libc) req.type tid _ w
    (show (spinnerConf libc ser).allocMessage = some spinnerAllocMessage from rfl) hres hparse
    (show (spinnerConf libc ser).incomingMsgQueue = some 0 from rfl) hfull
  refine ⟨_, _, by rw [processIncomingMessage, lookup_payload h htid]; exact hsent, rfl, ?_⟩
  refine ⟨⟨⟨hstored.kind, hstored.msgPool, hstored.dataPool, hstored.messages, hstored.plans,
    hstored.smalls⟩, hstored.carries, rfl, hstored.good⟩, by simp, ?_⟩
  intro q hq
  exact Function.update_of_ne hq _ _

/-! Many requests, one after the other. -/

structure Room (w : World (Memory n F) ℕ DataPtr) (requests : List (ℕ × Request F)) : Prop where
  msgs : requests.length ≤ w.env.msgPool.length
  data : ∀ pool, requests.countP (fun r => r.2.pool = pool) ≤ (w.env.dataPool pool).length
  slots : (w.mailboxes 0).items.length + requests.length ≤ (w.mailboxes 0).capacity

/-- The pools hold every block once, and each its own kind. -/
structure Tidy (w : World (Memory n F) ℕ DataPtr) : Prop where
  msgs : w.env.msgPool.Nodup
  data : ∀ pool, (w.env.dataPool pool).Nodup
  typed : ∀ pool, ∀ d ∈ w.env.dataPool pool, d.pool = pool

structure Untouched (w w' : World (Memory n F) ℕ DataPtr) : Prop where
  messages : ∀ m, m ∉ w.env.msgPool → w'.messages m = w.messages m
  plans : ∀ i, ⟨.plans, i⟩ ∉ w.env.dataPool .plans → w'.env.plans i = w.env.plans i
  smalls : ∀ i, ⟨.smalls, i⟩ ∉ w.env.dataPool .smalls → w'.env.smalls i = w.env.smalls i

def Request.stored (mem : Memory n F) (data : DataPtr) : Request F → SpinnerMessage n F
  | setPlan _ _ => .setSpinPlan (mem.plans data.idx)
  | getPlan _ => .getSpinPlan (mem.smalls data.idx)
  | setState _ _ => .setSpinState (mem.smalls data.idx)
  | getState _ => .getSpinState (mem.smalls data.idx)

theorem messageOf_stored (mem : Memory n F) {msg : ℕ} (req : Request F)
    (htype : (mem.messages msg).type = req.type) :
    messageOf mem msg = some (req.stored mem (mem.messages msg).data) := by
  cases req <;> simp [messageOf, htype, Request.type, Request.stored, SpinnerMessages.setPlan,
    SpinnerMessages.getPlan, SpinnerMessages.planReply, SpinnerMessages.setState,
    SpinnerMessages.getState]

/-- A queued request stays as it is while others arrive. -/
theorem Carries.untouched {w w' : World (Memory n F) ℕ DataPtr} {msg : ℕ}
    {request : ℕ × Request F} (h : Carries w msg request) (hw : Untouched w w')
    (hmsg : msg ∉ w.env.msgPool)
    (hdata : (w.messages msg).data ∉ w.env.dataPool request.2.pool) : Carries w' msg request := by
  obtain ⟨tid, req⟩ := request
  obtain ⟨htype, htid, hpool, read, hread, has⟩ := h
  have hsame := hw.messages msg hmsg
  have hstored := messageOf_stored { w.env with messages := w.messages } req htype
  rw [hstored] at hread
  cases hread
  refine ⟨by rw [hsame, htype], by rw [hsame, htid], by rw [hsame, hpool],
    req.stored { w'.env with messages := w'.messages } (w.messages msg).data, ?_, ?_⟩
  · have hnew := messageOf_stored { w'.env with messages := w'.messages } req
      (show (w'.messages msg).type = req.type by rw [hsame]; exact htype)
    rw [hnew]
    simp only [hsame]
  · have hptr : (⟨req.pool, (w.messages msg).data.idx⟩ : DataPtr) = (w.messages msg).data := by
      rw [← hpool]
    rw [← hptr] at hdata
    cases req with
    | setPlan ch legs =>
      have hblock := hw.plans _ hdata
      simp only [Request.stored, hblock]
      exact has
    | getPlan ch | setState ch running | getState ch =>
      have hblock := hw.smalls _ hdata
      simp only [Request.stored, hblock]
      exact has

section Next

variable {w w' : World (Memory n F) ℕ DataPtr} {msg tid : ℕ} {requests : List (ℕ × Request F)}

theorem Took.untouched {pool : DataPool} (h : Took pool w w' msg) : Untouched w w' := by
  have hpool := h.kind
  refine ⟨?_, ?_, ?_⟩
  · intro m hm
    rw [h.msgPool, List.mem_cons, not_or] at hm
    exact h.messages m hm.1
  · intro i hi
    refine h.plans i ?_
    rintro hplans rfl
    apply hi
    rw [h.dataPool .plans, if_pos hplans.symm, List.singleton_append, List.mem_cons]
    exact Or.inl (by rw [← hplans, ← hpool])
  · intro i hi
    refine h.smalls i ?_
    rintro hsmalls rfl
    apply hi
    rw [h.dataPool .smalls, if_pos hsmalls.symm, List.singleton_append, List.mem_cons]
    exact Or.inl (by rw [← hsmalls, ← hpool])

theorem Arrived.tidy (h : Arrived w w' msg (tid, req)) (hw : Tidy w) : Tidy w' := by
  have hmsgs := hw.msgs
  rw [h.msgPool] at hmsgs
  refine ⟨hmsgs.of_cons, ?_, ?_⟩
  · intro pool
    have hdata := hw.data pool
    rw [h.dataPool pool] at hdata
    exact hdata.of_append_right
  · intro pool d hd
    refine hw.typed pool d ?_
    rw [h.dataPool pool]
    exact List.mem_append_right _ hd

/-- The blocks of the request are not in the pools any more. -/
theorem Arrived.taken (h : Arrived w w' msg (tid, req)) (hw : Tidy w) :
    msg ∉ w'.env.msgPool ∧ (w'.messages msg).data ∉ w'.env.dataPool req.pool := by
  have hmsgs := hw.msgs
  have hdata := hw.data req.pool
  rw [h.msgPool] at hmsgs
  rw [h.dataPool req.pool, if_pos rfl, List.singleton_append] at hdata
  exact ⟨hmsgs.notMem, hdata.notMem⟩

theorem Arrived.room (h : Arrived w w' msg (tid, req))
    (hw : Room w ((tid, req) :: requests)) : Room w' requests := by
  have hmsgs := hw.msgs
  have hslots := hw.slots
  rw [h.msgPool] at hmsgs
  rw [List.length_cons] at hslots
  refine ⟨by simpa using hmsgs, ?_, ?_⟩
  · intro pool
    have hdata := hw.data pool
    rw [h.dataPool pool, List.countP_cons] at hdata
    by_cases hp : req.pool = pool
    · subst hp
      simp at hdata
      omega
    · simp [hp, Ne.symm hp] at hdata
      omega
  · rw [h.queue]
    simp only [List.length_append, List.length_singleton]
    omega

theorem Untouched.trans {w'' : World (Memory n F) ℕ DataPtr} (h : Arrived w w' msg (tid, req))
    (h' : Untouched w' w'') : Untouched w w'' := by
  have hone := h.untouched
  have hmsgs : ∀ m, m ∉ w.env.msgPool → m ∉ w'.env.msgPool := by
    intro m hm hmem
    rw [h.msgPool] at hm
    exact hm (List.mem_cons_of_mem msg hmem)
  have hdata : ∀ pool, ∀ d, d ∉ w.env.dataPool pool → d ∉ w'.env.dataPool pool := by
    intro pool d hd hmem
    rw [h.dataPool pool] at hd
    exact hd (List.mem_append_right _ hmem)
  refine ⟨?_, ?_, ?_⟩
  · intro m hm
    rw [h'.messages m (hmsgs m hm), hone.messages m hm]
  · intro i hi
    rw [h'.plans i (hdata .plans _ hi), hone.plans i hi]
  · intro i hi
    rw [h'.smalls i (hdata .smalls _ hi), hone.smalls i hi]

end Next

def arrivals (text : F → List Byte) (requests : List (ℕ × Request F)) : List RxEvent :=
  requests.map fun (tid, req) => .delivered (req.payload text tid ++ [0])

theorem requests_arrive (ser : SpinnerPools.Serializers n F) (hn : n < 2 ^ 32)
    {requests : List (ℕ × Request F)}
    (hwritable : ∀ r ∈ requests, r.2.Writable libc text n ∧ r.1 ≤ ulongMax)
    {w : World (Memory n F) ℕ DataPtr} (hw : Tidy w) (hroom : Room w requests)
    (before : List (Call ℕ)) :
    ∃ w' calls msgs, (arrivals text requests).foldl
        (outcome libc.nullAtEnd [spinnerConf libc ser]) (.ok (w, before)) =
          .ok (w', before ++ calls) ∧
      w'.mailboxes 0 = ⟨(w.mailboxes 0).capacity, (w.mailboxes 0).items ++ msgs⟩ ∧
      List.Forall₂ (Carries w') msgs requests ∧ Call.codes calls = [] ∧
      w'.errMsgQueue = w.errMsgQueue ∧ Untouched w w' := by
  induction requests generalizing w before with
  | nil =>
    exact ⟨w, [], [], by simp [arrivals], by simp, .nil, rfl, rfl,
      fun _ _ => rfl, fun _ _ => rfl, fun _ _ => rfl⟩
  | cons request requests ih =>
    obtain ⟨tid, req⟩ := request
    obtain ⟨hreq, htid⟩ := hwritable (tid, req) List.mem_cons_self
    have hmsgs := hroom.msgs
    have hdatas := hroom.data req.pool
    have hslots := hroom.slots
    rw [List.countP_cons] at hdatas
    simp only [List.length_cons, decide_true, if_true] at hmsgs hdatas hslots
    obtain ⟨msg, rest, hmsg⟩ := List.exists_cons_of_length_pos
      (show 0 < w.env.msgPool.length by omega)
    obtain ⟨data, more, hdata⟩ := List.exists_cons_of_length_pos
      (show 0 < (w.env.dataPool req.pool).length by omega)
    have hpool : data.pool = req.pool := hw.typed req.pool data (by rw [hdata]; simp)
    obtain ⟨w₁, made, hrun, hcodes, harrived⟩ :=
      request_arrives ser hn hreq htid hmsg hdata hpool (by omega)
    obtain ⟨w₂, calls, msgs, hfold, hqueue, hcarries, hnone, herrors, huntouched⟩ :=
      ih (fun r hr => hwritable r (List.mem_cons_of_mem _ hr)) (harrived.tidy hw)
        (harrived.room hroom) (before ++ made)
    obtain ⟨hmsgTaken, hdataTaken⟩ := harrived.taken hw
    refine ⟨w₂, made ++ calls, msg :: msgs, ?_, ?_, ?_, ?_, ?_, huntouched.trans harrived⟩
    · have hone : outcome libc.nullAtEnd [spinnerConf libc ser] (.ok (w, before))
          (.delivered (req.payload text tid ++ [0])) = .ok (w₁, before ++ made) := by
        simp only [outcome, route, hrun]
      rw [arrivals, List.map_cons, List.foldl_cons, hone, ← List.append_assoc]
      exact hfold
    · rw [hqueue, harrived.queue]
      simp
    · exact .cons (harrived.carries.untouched huntouched hmsgTaken hdataTaken) hcarries
    · rw [Call.codes, List.filterMap_append]
      exact List.append_eq_nil_iff.mpr ⟨hcodes, hnone⟩
    · rw [herrors, harrived.errors]

/-! From the bytes on the line. -/

theorem payload_sendable {m tid : ℕ} (h : req.Writable libc text n)
    (hfits : (frame (req.payload text tid)).length ≤ m) :
    Sendable m (req.payload text tid) := by
  have hfields := fun field hfield => (words_fields h tid field hfield).2
  have hclean : Clean (req.payload text tid) := by
    constructor
    · intro hmem
      rcases mem_joined hmem with hcomma | ⟨field, hfield, hin⟩
      · exact absurd hcomma (by decide)
      · exact (hfields field hfield).1 hin
    · intro hmem
      rcases mem_joined hmem with hcomma | ⟨field, hfield, hin⟩
      · exact absurd hcomma (by decide)
      · exact (hfields field hfield).2 hin
  refine hclean.sendable ?_ hfits
  have hname : (ascii "SPINNER").length = 7 := rfl
  rw [Request.payload, Request.words, joined_cons_cons, joined_cons_cons]
  simp only [List.length_append, List.length_cons, hname]
  omega

/-- A client sends requests; frames that are cut and noise between the frames do not matter.
From any state of the assembler, with free blocks and slots for all requests, the worker
appends them to the incoming queue in order, as they were asked, and reports nothing. -/
theorem requests_received (b : Board) (libc : Libc F)
    (ser : SpinnerPools.Serializers b.maxSpinPlanLegs F) (text : F → List Byte)
    {requests : List (ℕ × Request F)}
    (hwritable : ∀ r ∈ requests, r.2.Writable libc text b.maxSpinPlanLegs ∧ r.1 ≤ ulongMax)
    {line : List (Sent b.bspMaxMessageLength)}
    (hline : line.filterMap Sent.payload? = requests.map fun r => r.2.payload text r.1)
    (scribble : Vector Byte b.bspMaxMessageLength → Vector Byte b.bspMaxMessageLength)
    {ctx : RxWorkerContext b.bspMaxMessageLength (Result (Memory b.maxSpinPlanLegs F) ℕ DataPtr)}
    {s : Scan} (hctx : Refines ctx s) {w : World (Memory b.maxSpinPlanLegs F) ℕ DataPtr}
    {before : List (Call ℕ)} (hworld : ctx.subsystems = .ok (w, before)) (hw : Tidy w)
    (hroom : Room w requests) :
    ∃ ctx' w' calls msgs, runs (receiveByte libc.nullAtEnd [spinnerConf libc ser] scribble)
        (line.flatMap Sent.bytes) ctx = some ctx' ∧
      ctx'.subsystems = .ok (w', before ++ calls) ∧
      w'.mailboxes 0 = ⟨(w.mailboxes 0).capacity, (w.mailboxes 0).items ++ msgs⟩ ∧
      List.Forall₂ (Carries w') msgs requests ∧ Call.codes calls = [] ∧
      w'.errMsgQueue = w.errMsgQueue := by
  have hn : b.maxSpinPlanLegs < 2 ^ 32 := by cases b <;> decide
  obtain ⟨ctx', hrun, -, hsame⟩ := receive_run libc.nullAtEnd [spinnerConf libc ser] scribble hctx
    (line.flatMap Sent.bytes)
  obtain ⟨w', calls, msgs, hfold, hqueue, hcarries, hcodes, herrors, -⟩ :=
    requests_arrive ser hn hwritable hw hroom before
  refine ⟨ctx', w', calls, msgs, hrun, ?_, hqueue, hcarries, hcodes, herrors⟩
  rw [hsame, hworld, scan_sent, hline, List.map_map]
  exact hfold

end Routed

section Client

def clientRequests : List (ℕ × Request ℕ) :=
  [(7, .setPlan 0 [⟨100, 50⟩, ⟨0, 7⟩]), (8, .setState 0 true), (9, .getPlan 255)]

theorem readTarget_decimal {x : ℕ} (hx : x ≤ ulongMax) :
    readTarget wholeNumbers (decimal x) = some x := by
  have hread := strtoul_decimal hx
  have hok := conversion_decimal hx
  rw [hread] at hok
  simp only [readTarget, wholeNumbers, hread, hok]
  rfl

theorem clientRequests_writable (b : Board) : ∀ r ∈ clientRequests,
    r.2.Writable wholeNumbers decimal b.maxSpinPlanLegs ∧ r.1 ≤ ulongMax := by
  have htext {x : ℕ} (hx : x ≤ ulongMax) : FieldOf comma (decimal x) ∧ Clean (decimal x) ∧
      readTarget wholeNumbers (decimal x) = some x :=
    ⟨decimal_field (by decide) x, clean_decimal x, readTarget_decimal hx⟩
  intro r hr
  simp only [clientRequests, List.mem_cons, List.not_mem_nil, or_false] at hr
  rcases hr with rfl | rfl | rfl
  · refine ⟨⟨by cases b <;> decide, ?_⟩, by decide⟩
    intro leg hleg
    simp only [List.mem_cons, List.not_mem_nil, or_false] at hleg
    rcases hleg with rfl | rfl
    · exact htext (show 50 ≤ ulongMax by decide)
    · exact htext (show 7 ≤ ulongMax by decide)
  · exact ⟨trivial, by decide⟩
  · exact ⟨trivial, by decide⟩

/-- The first request comes twice, and the first time its frame is cut. -/
def clientLine : List (Sent Board.stm32f072discovery.bspMaxMessageLength) :=
  let sendable (r : ℕ × Request ℕ) (hr : r ∈ clientRequests)
      (hfits : (frame (r.2.payload decimal r.1)).length ≤ 250) :=
    payload_sendable (clientRequests_writable .stm32f072discovery r hr).1 hfits
  [.cut _ (sendable (7, .setPlan 0 [⟨100, 50⟩, ⟨0, 7⟩]) (by simp [clientRequests])
      (by decide +kernel)) 12 (by decide +kernel),
    .whole _ (sendable (7, .setPlan 0 [⟨100, 50⟩, ⟨0, 7⟩]) (by simp [clientRequests])
      (by decide +kernel)) (ascii "junk") (by decide),
    .whole _ (sendable (8, .setState 0 true) (by simp [clientRequests]) (by decide +kernel)) []
      (by decide),
    .whole _ (sendable (9, .getPlan 255) (by simp [clientRequests]) (by decide +kernel)) []
      (by decide)]

def idleWorld : World (Memory Board.stm32f072discovery.maxSpinPlanLegs ℕ) ℕ DataPtr :=
  ⟨⟨List.range 10,
      fun pool => match pool with
        | .plans => (List.range 2).map (DataPtr.mk .plans)
        | .smalls => (List.range 10).map (DataPtr.mk .smalls),
      fun _ => ⟨0, 0, ⟨.smalls, 0⟩⟩, fun _ => ⟨9, 9, Vector.replicate _ ⟨9, 9⟩⟩,
      fun _ => ⟨9, 9, 9, 9, 9⟩⟩,
    fun _ => ⟨0, 0, ⟨.smalls, 0⟩⟩, fun _ => ⟨10, []⟩, ⟨10, []⟩⟩

theorem idleWorld_tidy : Tidy idleWorld := by
  refine ⟨by decide, ?_, ?_⟩
  · intro pool
    cases pool <;> decide
  · intro pool
    cases pool <;> decide

theorem idleWorld_room : Room idleWorld clientRequests := by
  refine ⟨by decide, ?_, by decide⟩
  intro pool
  cases pool <;> decide

theorem client_requests_received : ∃ ctx' w' calls msgs,
    runs (receiveByte true [spinnerConf wholeNumbers
        (PlanReadBack.spinnerSerializers decimal PlanReadBack.zeros)] id)
      (clientLine.flatMap Sent.bytes)
      (dispatcherInit (Vector.replicate Board.stm32f072discovery.bspMaxMessageLength 0)
        (.ok (idleWorld, []))) = some ctx' ∧
    ctx'.subsystems = .ok (w', [] ++ calls) ∧
    w'.mailboxes 0 = ⟨10, [] ++ msgs⟩ ∧ List.Forall₂ (Carries w') msgs clientRequests ∧
    Call.codes calls = [] ∧ w'.errMsgQueue = ⟨10, []⟩ :=
  requests_received .stm32f072discovery wholeNumbers _ decimal
    (clientRequests_writable .stm32f072discovery) rfl id
    (refines_init (by decide) (Vector.replicate _ 0) _) rfl idleWorld_tidy idleWorld_room

end Client

end Ratfist.RequestRoundTrip
