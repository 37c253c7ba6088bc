import Ratfist.Serializers
import Ratfist.ReceiveWorker
import Mathlib.Tactic.Simps.Basic

/-!
The meteo subsystem's memory (`meteo/mod.rs`): the pool of message structs, the pool of
payloads and what the blocks hold. `meteoAlloc` and `meteoFree` are the functions in one
go; `allocStep` and `freeStep` are the same cut at the pool operations, for runs in which
other tasks come in between.
-/
namespace Ratfist.MeteoPools

open CString Subsystem Serializers
open ReceiveWorker (AllocResult)

variable {F : Type}

/-! Message types. -/

def getTemperature : ℕ := 0
def getPressure : ℕ := 1
def getHumidity : ℕ := 2
def getLightLevel : ℕ := 3
def temperatureReply : ℕ := 4
def pressureReply : ℕ := 5
def humidityReply : ℕ := 6
def lightLevelReply : ℕ := 7

/-- The types that `meteo_alloc` and `meteo_free` match on. -/
def messageTypes : List ℕ :=
  [getTemperature, getPressure, getHumidity, getLightLevel, temperatureReply, pressureReply,
    humidityReply, lightLevelReply]

def requestTypes : List ℕ := [getTemperature, getPressure, getHumidity, getLightLevel]

inductive MeteoError
  | i2cComm
  | txQueueFull
  | invalidMsg
  | msgCreation
  | sensorNotReady
  | invalidSensorData
deriving DecidableEq, Repr

/-- `err as i32` -/
def MeteoError.code : MeteoError → ℤ
  | .i2cComm => -1
  | .txQueueFull => -2
  | .invalidMsg => -3
  | .msgCreation => -4
  | .sensorNotReady => -5
  | .invalidSensorData => -6

/-- The union; no type uses both fields. -/
structure MessagePayload (F : Type) where
  channelNumPayload : UInt32
  stdResponse : StdResponsePayload F

/-- `mem::zeroed()` -/
def MessagePayload.zeroed [Zero F] : MessagePayload F := ⟨0, ⟨0, 0⟩⟩

/-- The data pointer of a message is `none` or the index of a payload. -/
structure Memory (F : Type) where
  msgPool : List ℕ
  payloadPool : List ℕ
  messages : ℕ → Message (Option ℕ)
  payloads : ℕ → MessagePayload F

namespace Memory

def setMessage (mem : Memory F) (msg : ℕ) (content : Message (Option ℕ)) : Memory F :=
  { mem with messages := Function.update mem.messages msg content }

def setPayload (mem : Memory F) (data : ℕ) (payload : MessagePayload F) : Memory F :=
  { mem with payloads := Function.update mem.payloads data payload }

def initBlocks [Zero F] (mem : Memory F) (msgTypeId msg data : ℕ) : Memory F :=
  (mem.setMessage msg ⟨msgTypeId, 0, some data⟩).setPayload data .zeroed

end Memory

/-- `meteo_free` without an interruption; `content` is what `msg` points to. -/
def meteoFree (msg : ℕ) (content : Message (Option ℕ)) (mem : Memory F) : Memory F :=
  if content.type ∈ messageTypes then
    let mem :=
      match content.data with
      | none => mem
      | some data => { mem with payloadPool := data :: mem.payloadPool }
    { mem with msgPool := msg :: mem.msgPool }
  else mem

/-- `meteo_alloc` without an interruption, from the heads of the pools. Without a payload
the message goes to `meteo_free` with what its last user left in it. -/
def meteoAlloc [Zero F] (msgTypeId : ℕ) (mem : Memory F) :
    Option (ℕ × Message (Option ℕ)) × Memory F :=
  if msgTypeId ∈ messageTypes then
    match mem.msgPool with
    | [] => (none, mem)
    | m :: msgPool =>
      let mem := { mem with msgPool := msgPool }
      match mem.payloadPool with
      | [] => (none, meteoFree m (mem.messages m) mem)
      | payload :: payloadPool =>
        (some (m, ⟨msgTypeId, 0, some payload⟩),
          { mem with payloadPool := payloadPool }.initBlocks msgTypeId m payload)
  else (none, mem)

inductive FreePc
  | enter (msg : Option ℕ)
  | giveData (msg : ℕ)
  | giveMsg (msg : ℕ)
deriving DecidableEq, Repr

/-- `meteo_free` up to its next pool operation, which is the end of a step; the function
returns with `none` as the next position. -/
def freeStep (pc : FreePc) (mem : Memory F) : Option FreePc × Memory F :=
  match pc with
  | .enter none => (none, mem)
  | .enter (some msg) =>
    if (mem.messages msg).type ∈ messageTypes then
      match (mem.messages msg).data with
      | none => (some (.giveMsg msg), mem)
      | some _ => (some (.giveData msg), mem)
    else (none, mem)
  | .giveData msg =>
    (some (.giveMsg msg),
      { mem with payloadPool := (mem.messages msg).data.toList ++ mem.payloadPool })
  | .giveMsg msg => (none, { mem with msgPool := msg :: mem.msgPool })

inductive AllocPc
  | takeMsg
  | takeData (m : ℕ)
  | rollback (pc : FreePc)
deriving DecidableEq, Repr

/-- One pool operation of `meteo_alloc`. A pool hands out any of its blocks, the one with
the index `choice`. -/
def allocStep [Zero F] (msgTypeId choice : ℕ) (pc : AllocPc) (mem : Memory F) :
    Option (AllocResult AllocPc × Memory F) :=
  match pc with
  | .takeMsg =>
    if msgTypeId ∈ messageTypes then
      if mem.msgPool = [] then some (.null, mem)
      else if choice ∈ mem.msgPool then
        some (.going (.takeData choice), { mem with msgPool := mem.msgPool.erase choice })
      else none
    else some (.null, mem)
  | .takeData m =>
    if mem.payloadPool = [] then some (.going (.rollback (.enter (some m))), mem)
    else if choice ∈ mem.payloadPool then
      some (.done m, { mem with payloadPool := mem.payloadPool.erase choice }.initBlocks
        msgTypeId m choice)
    else none
  | .rollback pc =>
    match freeStep pc mem with
    | (none, mem) => some (.null, mem)
    | (some pc, mem) => some (.going (.rollback pc), mem)

@[simps] def pools [Zero F] : ReceiveWorker.Pools (Memory F) (Option ℕ) AllocPc FreePc where
  messages := Memory.messages
  setMessage := Memory.setMessage
  allocEntry := .takeMsg
  allocStep := allocStep
  freeEntry msg := .enter (some msg)
  freeStep pc mem := some (freeStep pc mem)

/-! The two ways to run a function lead to the same state. -/

def freeRun (msg : ℕ) (mem : Memory F) : Memory F :=
  match freeStep (.enter (some msg)) mem with
  | (none, mem) => mem
  | (some pc, mem) =>
    match freeStep pc mem with
    | (none, mem) => mem
    | (some pc, mem) => (freeStep pc mem).2

theorem freeRun_eq (msg : ℕ) (mem : Memory F) :
    freeRun msg mem = meteoFree msg (mem.messages msg) mem := by
  unfold freeRun meteoFree
  by_cases htype : (mem.messages msg).type ∈ messageTypes
  · cases hdata : (mem.messages msg).data <;> simp [freeStep, htype, hdata]
  · simp [freeStep, htype]

theorem meteoAlloc_steps [Zero F] {msgTypeId m : ℕ} {content : Message (Option ℕ)}
    {mem mem' : Memory F} (h : meteoAlloc msgTypeId mem = (some (m, content), mem')) :
    ∃ choice choice' mid, allocStep msgTypeId choice .takeMsg mem =
        some (.going (.takeData m), mid) ∧
      allocStep msgTypeId choice' (.takeData m) mid = some (.done m, mem') ∧
      mem'.messages m = content := by
  unfold meteoAlloc at h
  split_ifs at h with hknown
  case neg => cases h
  cases hmsg : mem.msgPool with
  | nil => simp [hmsg] at h
  | cons m' rest =>
    cases hdata : mem.payloadPool with
    | nil => simp [hmsg, hdata] at h
    | cons data rest' =>
      simp only [hmsg, hdata, Prod.mk.injEq, Option.some.injEq] at h
      obtain ⟨⟨rfl, rfl⟩, rfl⟩ := h
      refine ⟨m', data, { mem with msgPool := rest }, ?_, ?_, ?_⟩
      · simp [allocStep, hknown, hmsg]
      · simp [allocStep, hdata]
      · simp [Memory.initBlocks, Memory.setMessage, Memory.setPayload]

/-! The callbacks. -/

/-- `str::parse::<u32>`: an optional plus sign, and digits that do not overflow. -/
def parseU32 (text : List Byte) : Option UInt32 :=
  let digits := match text with
    | 43 :: rest => rest
    | _ => text
  if digits ≠ [] ∧ digits.all (isDigit 10) ∧ digitsVal 10 digits ≤ ulongMax then
    some (UInt32.ofNat (digitsVal 10 digits))
  else none

/-- A text that is no UTF-8 has a byte that is no digit and is refused by the parser, if
not by `cstr_ptr_to_str_slice`. -/
def singleChannelNumParse (msg : Message (Option ℕ)) (savePtr : Option (List Byte))
    (mem : Memory F) : Bool × Memory F :=
  match msg.data, savePtr with
  | some data, some savePtr =>
    match parseU32 (cstr savePtr) with
    | none => (false, mem)
    | some ch =>
      (true, mem.setPayload data { mem.payloads data with channelNumPayload := ch })
  | _, _ => (false, mem)

/-- How the text of a reply is cut into pieces, and what its part of the message buffer
holds before. -/
structure Formatting (F : Type) where
  pieces : StdResponsePayload F → List (List Byte)
  stale : (room : ℕ) → Vector Byte room

/-- `std_response_serialize` as the callback of the four replies. -/
def serializeResponse (fmt : Formatting F) (msg : Message (Option ℕ)) (room : ℕ)
    (mem : Memory F) : List Byte × ℤ :=
  let data := msg.data.map fun data => (mem.payloads data).stdResponse
  asCallback (fun _ => stdResponseSerialize fmt.pieces data) fmt.stale room

def msgHandlers (fmt : Formatting F) : List (MessageHandler (Memory F) (Option ℕ)) :=
  [⟨ascii "GET_TEMPERATURE", some singleChannelNumParse, none⟩,
    ⟨ascii "GET_PRESSURE", some singleChannelNumParse, none⟩,
    ⟨ascii "GET_HUMIDITY", some singleChannelNumParse, none⟩,
    ⟨ascii "GET_LIGHT_LEVEL", some singleChannelNumParse, none⟩,
    ⟨ascii "TEMPERATURE_REPLY", none, some (serializeResponse fmt)⟩,
    ⟨ascii "PRESSURE_REPLY", none, some (serializeResponse fmt)⟩,
    ⟨ascii "HUMIDITY_REPLY", none, some (serializeResponse fmt)⟩,
    ⟨ascii "LIGHT_LEVEL_REPLY", none, some (serializeResponse fmt)⟩]

/-- The queues are the registry's numbers 0, 1 and 2. -/
def meteoConf [Zero F] (fmt : Formatting F) : SubsystemMessageConf (Memory F) ℕ (Option ℕ) where
  subsystemName := ascii "METEO"
  messageHandlers := msgHandlers fmt
  incomingMsgQueue := some 0
  outgoingMsgQueue := some 1
  outgoingErrQueue := some 2
  allocMessage := some meteoAlloc
  freeMessage := some meteoFree

/-! What one step of the two functions can do. -/

inductive AllocMove [Zero F] (msgTypeId : ℕ) (mem mem' : Memory F) :
    AllocPc → AllocResult AllocPc → Prop
  | refused (same : mem' = mem) : AllocMove msgTypeId mem mem' .takeMsg .null
  | takeMsg (m : ℕ) (free : m ∈ mem.msgPool) (known : msgTypeId ∈ messageTypes)
      (next : mem' = { mem with msgPool := mem.msgPool.erase m }) :
      AllocMove msgTypeId mem mem' .takeMsg (.going (.takeData m))
  | noData (m : ℕ) (empty : mem.payloadPool = []) (same : mem' = mem) :
      AllocMove msgTypeId mem mem' (.takeData m) (.going (.rollback (.enter (some m))))
  | takeData (m data : ℕ) (free : data ∈ mem.payloadPool)
      (next : mem' = { mem with payloadPool := mem.payloadPool.erase data }.initBlocks
        msgTypeId m data) :
      AllocMove msgTypeId mem mem' (.takeData m) (.done m)
  | rollback (pc : FreePc) (res : Option FreePc) (free : freeStep pc mem = (res, mem')) :
      AllocMove msgTypeId mem mem' (.rollback pc) (res.elim .null fun pc => .going (.rollback pc))

theorem allocStep_move [Zero F] {msgTypeId choice : ℕ} {pc : AllocPc} {mem mem' : Memory F}
    {res : AllocResult AllocPc} (h : allocStep msgTypeId choice pc mem = some (res, mem')) :
    AllocMove msgTypeId mem mem' pc res := by
  cases pc with
  | takeMsg =>
    simp only [allocStep] at h
    split_ifs at h with hknown hnil hmem
    · cases h
      exact .refused rfl
    · cases h
      exact .takeMsg choice hmem hknown rfl
    · cases h
      exact .refused rfl
  | takeData m =>
    simp only [allocStep] at h
    split_ifs at h with hnil hmem
    · cases h
      exact .noData m hnil rfl
    · cases h
      exact .takeData m choice hmem rfl
  | rollback pc =>
    simp only [allocStep] at h
    rcases hf : freeStep pc mem with ⟨_ | pc', mem''⟩
    · simp only [hf] at h
      cases h
      exact .rollback pc none hf
    · simp only [hf] at h
      cases h
      exact .rollback pc (some pc') hf

inductive FreeMove (mem mem' : Memory F) : FreePc → Option FreePc → Prop
  | null (same : mem' = mem) : FreeMove mem mem' (.enter none) none
  | unknown (msg : ℕ) (type : (mem.messages msg).type ∉ messageTypes) (same : mem' = mem) :
      FreeMove mem mem' (.enter (some msg)) none
  | noData (msg : ℕ) (data : (mem.messages msg).data = none) (same : mem' = mem) :
      FreeMove mem mem' (.enter (some msg)) (some (.giveMsg msg))
  | enter (msg data : ℕ) (attached : (mem.messages msg).data = some data) (same : mem' = mem) :
      FreeMove mem mem' (.enter (some msg)) (some (.giveData msg))
  | giveData (msg : ℕ) (next : mem' = { mem with
      payloadPool := (mem.messages msg).data.toList ++ mem.payloadPool }) :
      FreeMove mem mem' (.giveData msg) (some (.giveMsg msg))
  | giveMsg (msg : ℕ) (next : mem' = { mem with msgPool := msg :: mem.msgPool }) :
      FreeMove mem mem' (.giveMsg msg) none

theorem freeStep_move {pc : FreePc} {mem mem' : Memory F} {res : Option FreePc}
    (h : freeStep pc mem = (res, mem')) : FreeMove mem mem' pc res := by
  cases pc with
  | enter msg =>
    cases msg with
    | none =>
      cases h
      exact .null rfl
    | some msg =>
      simp only [freeStep] at h
      split_ifs at h with htype
      · cases hdata : (mem.messages msg).data with
        | none =>
          rw [hdata] at h
          cases h
          exact .noData msg hdata rfl
        | some data =>
          rw [hdata] at h
          cases h
          exact .enter msg data hdata rfl
      · cases h
        exact .unknown msg htype rfl
  | giveData msg =>
    cases h
    exact .giveData msg rfl
  | giveMsg msg =>
    cases h
    exact .giveMsg msg rfl

end Ratfist.MeteoPools
