import Ratfist.SpinnerChannel
import Ratfist.ReceiveWorker
import Mathlib.Tactic.Simps.Basic

/-!
The spinner's memory (`spinner.c`): the pool of message structs, the two pools of
payloads and what the blocks hold. `spinnerAllocMessage` and `spinnerFreeMessage` are
the functions in one go; `allocStep` and `freeStep` are the same cut at the pool
operations, for runs in which other tasks come in between.
-/
namespace Ratfist.SpinnerPools

open CString Constants Subsystem SpinnerMessages SpinnerChannel
open ReceiveWorker (AllocResult)

variable {F : Type} {n : ℕ}

inductive DataPool
  | plans
  | smalls
deriving DecidableEq, Repr

/-- A pointer into the memory of one of the two payload pools. -/
structure DataPtr where
  pool : DataPool
  idx : ℕ
deriving DecidableEq, Repr

structure Memory (n : ℕ) (F : Type) where
  msgPool : List ℕ
  dataPool : DataPool → List DataPtr
  messages : ℕ → Message DataPtr
  plans : ℕ → SpinPlanData n F
  smalls : ℕ → SmallSizeMsgData F

/-- The pool that the switch on the message type selects; in the default case,
`none`, `cm3_assert_failed` does not return. -/
def dataPoolOf (msgTypeId : ℕ) : Option DataPool :=
  if msgTypeId ∈ [setPlan, planReply] then some .plans
  else if msgTypeId ∈ [getPlan, getState, setState, stateReply, retVal] then some .smalls
  else none

namespace Memory

def setMessage (mem : Memory n F) (msg : ℕ) (content : Message DataPtr) : Memory n F :=
  { mem with messages := Function.update mem.messages msg content }

def setDataPool (mem : Memory n F) (pool : DataPool) (blocks : List DataPtr) : Memory n F :=
  { mem with dataPool := Function.update mem.dataPool pool blocks }

end Memory

/-- `spinner_alloc_message` without an interruption, from the heads of the pools. -/
def spinnerAllocMessage (msgTypeId : ℕ) (mem : Memory n F) :
    Option (ℕ × Message DataPtr) × Memory n F :=
  match mem.msgPool with
  | [] => (none, mem)
  | ret :: msgPool =>
    let mem := { mem with msgPool := msgPool }
    match dataPoolOf msgTypeId with
    | none => (none, mem)
    | some pool =>
      match mem.dataPool pool with
      | [] => (none, { mem with msgPool := ret :: msgPool })
      | data :: rest =>
        let content : Message DataPtr := ⟨msgTypeId, 0, data⟩
        (some (ret, content), (mem.setDataPool pool rest).setMessage ret content)

/-- `spinner_free_message` without an interruption; `content` is what `msg` points to. -/
def spinnerFreeMessage (msg : ℕ) (content : Message DataPtr) (mem : Memory n F) : Memory n F :=
  match dataPoolOf content.type with
  | none => mem
  | some pool =>
    { mem.setDataPool pool (content.data :: mem.dataPool pool) with
      msgPool := msg :: mem.msgPool }

inductive AllocPc
  | takeMsg
  | takeData (ret : ℕ)
  | giveMsg (ret : ℕ)
deriving DecidableEq, Repr

/-- One pool operation of `spinner_alloc_message`. A pool hands out any of its blocks,
the one with the index `choice`. -/
def allocStep (msgTypeId choice : ℕ) (pc : AllocPc) (mem : Memory n F) :
    Option (AllocResult AllocPc × Memory n F) :=
  match pc with
  | .takeMsg =>
    if mem.msgPool = [] then some (.null, mem)
    else if choice ∈ mem.msgPool then
      some (.going (.takeData choice), { mem with msgPool := mem.msgPool.erase choice })
    else none
  | .takeData ret =>
    match dataPoolOf msgTypeId with
    | none => none
    | some pool =>
      if mem.dataPool pool = [] then some (.going (.giveMsg ret), mem)
      else if ⟨pool, choice⟩ ∈ mem.dataPool pool then
        some (.done ret,
          (mem.setDataPool pool ((mem.dataPool pool).erase ⟨pool, choice⟩)).setMessage ret
            ⟨msgTypeId, 0, ⟨pool, choice⟩⟩)
      else none
  | .giveMsg ret => some (.null, { mem with msgPool := ret :: mem.msgPool })

inductive FreePc
  | giveData (msg : ℕ)
  | giveMsg (msg : ℕ)
deriving DecidableEq, Repr

/-- One pool operation of `spinner_free_message`; the function returns with `none` as
the next position. -/
def freeStep (pc : FreePc) (mem : Memory n F) : Option (Option FreePc × Memory n F) :=
  match pc with
  | .giveData msg =>
    match dataPoolOf (mem.messages msg).type with
    | none => none
    | some pool =>
      some (some (.giveMsg msg),
        mem.setDataPool pool ((mem.messages msg).data :: mem.dataPool pool))
  | .giveMsg msg => some (none, { mem with msgPool := msg :: mem.msgPool })

@[simps] def pools : ReceiveWorker.Pools (Memory n F) DataPtr AllocPc FreePc where
  messages := Memory.messages
  setMessage := Memory.setMessage
  allocEntry := .takeMsg
  allocStep := allocStep
  freeEntry := .giveData
  freeStep := freeStep

/-! The parsing functions as callbacks: each casts the data pointer to its type. -/

def parseIntoPlan (parse : SpinPlanData n F → Option (List Byte) → Bool × SpinPlanData n F)
    (msg : Message DataPtr) (savePtr : Option (List Byte)) (mem : Memory n F) :
    Bool × Memory n F :=
  let (ok, data) := parse (mem.plans msg.data.idx) savePtr
  (ok, { mem with plans := Function.update mem.plans msg.data.idx data })

def parseIntoSmall
    (parse : SmallSizeMsgData F → Option (List Byte) → Bool × SmallSizeMsgData F)
    (msg : Message DataPtr) (savePtr : Option (List Byte)) (mem : Memory n F) :
    Bool × Memory n F :=
  let (ok, data) := parse (mem.smalls msg.data.idx) savePtr
  (ok, { mem with smalls := Function.update mem.smalls msg.data.idx data })

structure Serializers (n : ℕ) (F : Type) where
  serializePlanReply : Message DataPtr → ℕ → Memory n F → List Byte × ℤ
  serializeStateReply : Message DataPtr → ℕ → Memory n F → List Byte × ℤ
  serializeRetVal : Message DataPtr → ℕ → Memory n F → List Byte × ℤ

def msgHandlers (libc : Libc F) (ser : Serializers n F) :
    List (MessageHandler (Memory n F) DataPtr) :=
  [⟨ascii "SET_PLAN", some (parseIntoPlan (parseSetPlan libc)), none⟩,
    ⟨ascii "GET_PLAN", some (parseIntoSmall (parseGetPlan libc)), none⟩,
    ⟨ascii "PLAN_REPLY", none, some ser.serializePlanReply⟩,
    ⟨ascii "SET_STATE", some (parseIntoSmall (parseSetState libc)), none⟩,
    ⟨ascii "GET_STATE", some (parseIntoSmall (parseGetState libc)), none⟩,
    ⟨ascii "STATE_REPLY", none, some ser.serializeStateReply⟩,
    ⟨ascii "RET_VAL", none, some ser.serializeRetVal⟩]

/-- The queues are the registry's numbers 0, 1 and 2. -/
def spinnerConf (libc : Libc F) (ser : Serializers n F) :
    SubsystemMessageConf (Memory n F) ℕ DataPtr where
  subsystemName := ascii "SPINNER"
  messageHandlers := msgHandlers libc ser
  incomingMsgQueue := some 0
  outgoingMsgQueue := some 1
  outgoingErrQueue := some 2
  allocMessage := some spinnerAllocMessage
  freeMessage := some spinnerFreeMessage

/-- `Message::try_from`; `none` for a type that is not one of the seven. -/
def messageOf (mem : Memory n F) (msg : ℕ) : Option (SpinnerMessage n F) :=
  let m := mem.messages msg
  let plan := mem.plans m.data.idx
  let small := mem.smalls m.data.idx
  if m.type = setPlan then some (.setSpinPlan plan)
  else if m.type = getPlan then some (.getSpinPlan small)
  else if m.type = planReply then some (.spinPlanReply plan)
  else if m.type = setState then some (.setSpinState small)
  else if m.type = getState then some (.getSpinState small)
  else if m.type = stateReply then some (.spinStateReply small)
  else if m.type = retVal then some (.returnValue small)
  else none

def Memory.setPayload (mem : Memory n F) (msg : ℕ) : SpinnerMessage n F → Memory n F
  | .setSpinPlan data | .spinPlanReply data =>
    { mem with plans := Function.update mem.plans (mem.messages msg).data.idx data }
  | .getSpinPlan data | .setSpinState data | .getSpinState data | .spinStateReply data
  | .returnValue data =>
    { mem with smalls := Function.update mem.smalls (mem.messages msg).data.idx data }

def Memory.block (mem : Memory n F) (msg : ℕ) : Block n F :=
  ⟨mem.plans (mem.messages msg).data.idx, mem.smalls (mem.messages msg).data.idx⟩

end Ratfist.SpinnerPools
