import Ratfist.CString
import Ratfist.Constants
import Mathlib.Logic.Function.Basic

/-!
The types of `message_dispatcher.h`. Function pointers and queue pointers may be
NULL, so they are options. A subsystem's callbacks work on a state `σ` of its own
(pools, payload memory); the two numbers of a message struct belong to the
dispatcher and the subsystem only reads them after the allocation.
-/
namespace Ratfist.Subsystem

open CString

/-- `mailbox_t`: a bounded FIFO. -/
structure Mailbox (α : Type) where
  capacity : ℕ
  items : List α

namespace Mailbox

variable {α : Type}

def full (q : Mailbox α) : Bool := q.capacity ≤ q.items.length

/-- `os_mailbox_write`: whether the element was taken, and the queue afterwards. -/
def write (q : Mailbox α) (x : α) : Bool × Mailbox α :=
  if q.full then (false, q) else (true, { q with items := q.items ++ [x] })

/-- `os_mailbox_read`: the oldest element, and the queue without it. -/
def read (q : Mailbox α) : Option (α × Mailbox α) :=
  match q.items with
  | [] => none
  | x :: items => some (x, { q with items := items })

theorem read_eq_none {q : Mailbox α} : q.read = none ↔ q.items = [] := by
  unfold read
  cases q.items <;> simp

theorem read_eq_some {q box : Mailbox α} {x : α} (h : q.read = some (x, box)) :
    q.items = x :: box.items ∧ box.capacity = q.capacity := by
  unfold read at h
  cases hitems : q.items with
  | nil =>
    rw [hitems] at h
    cases h
  | cons y items =>
    rw [hitems] at h
    cases h
    exact ⟨rfl, rfl⟩

end Mailbox

/-- `struct message`; `data` is the pointer to the payload. -/
structure Message (δ : Type) where
  type : ℕ
  transactionId : ℕ
  data : δ
deriving DecidableEq, Repr

/-- The serializer returns the bytes it writes at `output_str` and its result. -/
structure MessageHandler (σ δ : Type) where
  messageName : List Byte
  parsingFunc : Option (Message δ → Option (List Byte) → σ → Bool × σ)
  serializationFunc : Option (Message δ → ℕ → σ → List Byte × ℤ)

structure SubsystemMessageConf (σ μ δ : Type) where
  subsystemName : List Byte
  messageHandlers : List (MessageHandler σ δ)
  incomingMsgQueue : Option ℕ
  outgoingMsgQueue : Option ℕ
  outgoingErrQueue : Option ℕ
  allocMessage : Option (ℕ → σ → Option (μ × Message δ) × σ)
  freeMessage : Option (μ → Message δ → σ → σ)

/-- All that the two dispatcher workers share with the subsystems. -/
structure World (σ μ δ : Type) where
  env : σ
  messages : μ → Message δ
  mailboxes : ℕ → Mailbox μ
  errMsgQueue : Mailbox ℤ

namespace World

variable {σ μ δ : Type}

/-- `schedule_err_message`; its result is not used by any caller. -/
def scheduleErrMessage (w : World σ μ δ) (code : ℤ) : World σ μ δ :=
  { w with errMsgQueue := (w.errMsgQueue.write code).2 }

end World

/-- What the dispatcher does to others, in order. -/
inductive Call (μ : Type)
  | alloc (msgTypeId : ℕ) (result : Option μ)
  | parse (savePtr : Option (List Byte)) (ok : Bool)
  | free (msg : μ)
  | enqueued (queue : ℕ) (msg : μ)
  | scheduled (code : ℤ)
  | written (chars : List Byte)
deriving DecidableEq, Repr

namespace Call

variable {μ : Type}

def allocated (calls : List (Call μ)) : List μ :=
  calls.filterMap fun | .alloc _ r => r | _ => none

def freed (calls : List (Call μ)) : List μ :=
  calls.filterMap fun | .free m => some m | _ => none

def codes (calls : List (Call μ)) : List ℤ :=
  calls.filterMap fun | .scheduled code => some code | _ => none

def enqueues (calls : List (Call μ)) : List (ℕ × μ) :=
  calls.filterMap fun | .enqueued q m => some (q, m) | _ => none

def writes (calls : List (Call μ)) : List (List Byte) :=
  calls.filterMap fun | .written chars => some chars | _ => none

/-- The save pointers that parsing functions were called with. -/
def saves (calls : List (Call μ)) : List (Option (List Byte)) :=
  calls.filterMap fun | .parse save _ => some save | _ => none

end Call

/-- A use of NULL: as a string, as a function or as a queue. -/
inductive Fault
  | nullString
  | nullFunction
  | nullQueue
deriving DecidableEq, Repr

end Ratfist.Subsystem
