import Ratfist.Routing
import Mathlib.Data.List.FinRange

/-!
The spinner's messages (`spinner.h`, `spinner.c`): the payload structures and the
functions that parse them. A parsing function gets the structure as the pool handed it
out, with what its last user left in it, and returns it also when it fails.
-/
namespace Ratfist.SpinnerMessages

open CString Constants Subsystem Routing

variable {F : Type} {n : ℕ}

structure StrtofResult (F : Type) where
  value : F
  consumed : ℕ
  erange : Bool

structure Libc (F : Type) where
  nullAtEnd : Bool
  strtof : List Byte → StrtofResult F

/-- A C library with newlib's `strtok_r` whose `strtof` reads whole numbers. -/
def wholeNumbers : Libc ℕ :=
  ⟨true, fun token =>
    let r := strtoul 10 token
    ⟨r.value, r.consumed, r.erange⟩⟩

/-! Message types. -/

def setPlan : ℕ := 0
def getPlan : ℕ := 1
def planReply : ℕ := 2
def setState : ℕ := 3
def getState : ℕ := 4
def stateReply : ℕ := 5
def retVal : ℕ := 6

/-! Spinner states. -/

def stateStopped : UInt32 := 0
def stateRunning : UInt32 := 1
def stateSpinningDown : UInt32 := 2

structure PwmLeg (F : Type) where
  durationMsecs : UInt32
  targetPct : F
deriving DecidableEq, Repr

/-- `struct spin_plan_data`, with `n` for `MAX_SPIN_PLAN_LEGS`. -/
structure SpinPlanData (n : ℕ) (F : Type) where
  channelNum : UInt8
  planLegCount : UInt32
  planLegs : Vector (PwmLeg F) n
deriving DecidableEq

/-- `union small_size_msg_data`. The first four fields are laid out as in the three
structs that have them; `retVal` lies over the first, and no type uses both. -/
structure SmallSizeMsgData (F : Type) where
  channelNum : UInt8
  state : UInt32
  planTimeElapsedMsecs : UInt32
  outputValPct : F
  retVal : ℤ
deriving DecidableEq, Repr

/-- A channel number and the saved pointer behind it; the four parsing functions start
alike. -/
def parseChannelNum (libc : Libc F) (savePtr : Option (List Byte)) :
    Option (UInt8 × Option (List Byte)) :=
  match strtokR libc.nullAtEnd comma savePtr with
  | (none, _) => none
  | (some token, savePtr) =>
    let r := strtoul 10 token
    if conversionFailed token r.consumed r.erange || 255 < r.value then none
    else some (r.value.toUInt8, savePtr)

def SpinPlanData.setDuration (data : SpinPlanData n F) (i : Fin n) (durationMsecs : UInt32) :
    SpinPlanData n F :=
  { data with planLegs := data.planLegs.set i { data.planLegs[i] with durationMsecs } }

def SpinPlanData.setTarget (data : SpinPlanData n F) (i : Fin n) (targetPct : F) :
    SpinPlanData n F :=
  { data with planLegs := data.planLegs.set i { data.planLegs[i] with targetPct } }

/-- The loop over the legs, on the indices still to come: whether it was left without
`return false`, and with what. -/
def parseLegs (libc : Libc F) :
    List (Fin n) → SpinPlanData n F → Option (List Byte) →
      Bool × SpinPlanData n F × Option (List Byte)
  -- the bound is reached, and `plan_leg_count` is not stored
  | [], data, savePtr => (true, data, savePtr)
  | i :: later, data, savePtr =>
    match strtokR libc.nullAtEnd comma savePtr with
    | (none, savePtr) => (true, { data with planLegCount := i.val.toUInt32 }, savePtr)
    | (some token, savePtr) =>
      let r := strtoul 10 token
      let data := data.setDuration i r.value.toUInt32
      if conversionFailed token r.consumed r.erange then (false, data, savePtr)
      else
        match strtokR libc.nullAtEnd comma savePtr with
        | (none, savePtr) => (false, data, savePtr)
        | (some token, savePtr) =>
          let r := libc.strtof token
          let data := data.setTarget i r.value
          if conversionFailed token r.consumed r.erange then (false, data, savePtr)
          else parseLegs libc later data savePtr

def parseSetPlan (libc : Libc F) (data : SpinPlanData n F) (savePtr : Option (List Byte)) :
    Bool × SpinPlanData n F :=
  match parseChannelNum libc savePtr with
  | none => (false, data)
  | some (chNum, savePtr) =>
    let data := { data with channelNum := chNum }
    match parseLegs libc (List.finRange n) data savePtr with
    | (false, data, _) => (false, data)
    | (true, data, savePtr) => ((strtokR libc.nullAtEnd comma savePtr).1.isNone, data)

/-- A payload that is a channel number and nothing else. -/
def parseSpinChannel (libc : Libc F) (data : SmallSizeMsgData F)
    (savePtr : Option (List Byte)) : Bool × SmallSizeMsgData F :=
  match parseChannelNum libc savePtr with
  | none => (false, data)
  | some (chNum, savePtr) =>
    ((strtokR libc.nullAtEnd comma savePtr).1.isNone, { data with channelNum := chNum })

def parseGetPlan (libc : Libc F) (data : SmallSizeMsgData F) (savePtr : Option (List Byte)) :
    Bool × SmallSizeMsgData F :=
  parseSpinChannel libc data savePtr

def parseGetState (libc : Libc F) (data : SmallSizeMsgData F) (savePtr : Option (List Byte)) :
    Bool × SmallSizeMsgData F :=
  parseSpinChannel libc data savePtr

def parseSetState (libc : Libc F) (data : SmallSizeMsgData F) (savePtr : Option (List Byte)) :
    Bool × SmallSizeMsgData F :=
  match parseChannelNum libc savePtr with
  | none => (false, data)
  | some (chNum, savePtr) =>
    let data := { data with channelNum := chNum }
    match strtokR libc.nullAtEnd comma savePtr with
    | (none, _) => (false, data)
    | (some token, savePtr) =>
      let state :=
        if strcmpEq token (ascii "ON") then some stateRunning
        else if strcmpEq token (ascii "OFF") then some stateStopped
        else none
      match state with
      | none => (false, data)
      | some state => ((strtokR libc.nullAtEnd comma savePtr).1.isNone, { data with state })

end Ratfist.SpinnerMessages
