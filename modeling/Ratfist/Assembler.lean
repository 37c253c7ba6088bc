import Ratfist.CString
import Ratfist.CheckedArray
import Ratfist.Constants

/-!
`assemble_incoming_message`: one call of the receive worker. The context keeps the
buffer, the position and the flag; `processIncomingMessage` is a parameter that may
change the buffer (strtok_r writes NULs into it) and the rest of the system `σ`.
The value `none` is an access outside the buffer or an unsigned underflow.
-/
namespace Ratfist.Assembler

open CString CheckedArray Constants

variable {n : ℕ} {σ : Type}

/-- `struct rx_worker_context`; `subsystems` stands for all it points to. -/
structure RxWorkerContext (n : ℕ) (σ : Type) where
  incomingMsgBuf : Vector Byte n
  posInBuf : ℕ
  msgIsIncoming : Bool
  subsystems : σ

/-- What a call does besides changing the context: hand the buffer to
`process_incoming_message` (`msg` is the buffer up to and with the NUL written
over the '*'), or call `schedule_err_message`. -/
inductive RxEvent
  | delivered (msg : List Byte)
  | scheduled (code : ℤ)
deriving DecidableEq, Repr

def dollar : Byte := 36
def star : Byte := 42
def cr : Byte := 13
def lf : Byte := 10

/-- `calc_checksum` on the memory at `buffer`. -/
def calcChecksum (buffer : List Byte) : ℕ → Option Byte
  | 0 => some 0
  | len + 1 => do
    let checksum ← calcChecksum buffer len
    let b ← buffer[len]?
    pure (checksum ^^^ b)

/-- The test for a complete message, with C's short circuits. -/
def endsInCrLf (buf : Vector Byte n) (pos : ℕ) : Option Bool :=
  if 10 ≤ pos then do
    let c ← read buf (← sub pos 2)
    if c = cr then do
      let l ← read buf (← sub pos 1)
      pure (l == lf)
    else pure false
  else pure false

/-- `strtoul` on the two checksum bytes, the test of `end_ptr`, then the comparison. -/
def checksumMatches (buf : Vector Byte n) (len : ℕ) : Option Bool := do
  let start ← sub len 4
  let msgCsum := strtoul 16 (buf.toList.drop start)
  if start + msgCsum.consumed ≠ (← sub len 2) then pure false
  else do
    let csum ← calcChecksum buf.toList (← sub len 5)
    pure (msgCsum.value == csum.toNat)

/-- The last test of a call: a full buffer is dropped and reported. -/
def checkOverflow (ctx : RxWorkerContext n σ) (events : List RxEvent) :
    RxWorkerContext n σ × List RxEvent :=
  if n ≤ ctx.posInBuf then
    ({ ctx with posInBuf := 0, msgIsIncoming := false },
      events ++ [.scheduled messageTooLongError])
  else (ctx, events)

/-- The branch taken once CR LF has arrived; `ctx` has `posInBuf` and the flag reset. -/
def finishMessage (processIncomingMessage : Vector Byte n → σ → Vector Byte n × σ)
    (ctx : RxWorkerContext n σ) (len : ℕ) : Option (RxWorkerContext n σ × List RxEvent) := do
  let c ← read ctx.incomingMsgBuf (← sub len 5)
  if c ≠ star then pure (ctx, [.scheduled rxChecksumError])
  else do
    let buf ← write ctx.incomingMsgBuf (← sub len 2) 0
    if ← checksumMatches buf len then do
      let buf ← write buf (← sub len 5) 0
      let (buf', subsystems) := processIncomingMessage buf ctx.subsystems
      pure (checkOverflow { ctx with incomingMsgBuf := buf', subsystems := subsystems }
        [.delivered (buf.toList.take (← sub len 4))])
    else pure ({ ctx with incomingMsgBuf := buf }, [.scheduled rxChecksumError])

/-- One call; the argument is the character read, `none` when there is none
(the worker then sleeps). -/
def assembleIncomingMessage
    (processIncomingMessage : Vector Byte n → σ → Vector Byte n × σ)
    (ctx : RxWorkerContext n σ) : Option Byte → Option (RxWorkerContext n σ × List RxEvent)
  | none => some (ctx, [])
  | some ch =>
    if ch = dollar then some ({ ctx with posInBuf := 0, msgIsIncoming := true }, [])
    else if !ctx.msgIsIncoming then some (ctx, [])
    else do
      let buf ← write ctx.incomingMsgBuf ctx.posInBuf ch
      let pos := ctx.posInBuf + 1
      if ← endsInCrLf buf pos then
        finishMessage processIncomingMessage
          { ctx with incomingMsgBuf := buf, posInBuf := 0, msgIsIncoming := false } pos
      else pure (checkOverflow { ctx with incomingMsgBuf := buf, posInBuf := pos } [])

/-- `dispatcher_init`; the buffer is whatever static memory holds. -/
def dispatcherInit (buf : Vector Byte n) (subsystems : σ) : RxWorkerContext n σ :=
  ⟨buf, 0, false, subsystems⟩

/-- A byte stream, one call for each byte; the events in order. -/
def feed (processIncomingMessage : Vector Byte n → σ → Vector Byte n × σ)
    (ctx : RxWorkerContext n σ) : List Byte → Option (RxWorkerContext n σ × List RxEvent)
  | [] => some (ctx, [])
  | ch :: bytes => do
    let (ctx, events) ← assembleIncomingMessage processIncomingMessage ctx (some ch)
    let (ctx, later) ← feed processIncomingMessage ctx bytes
    pure (ctx, events ++ later)

def xorBytes (bytes : List Byte) : Byte := bytes.foldl (· ^^^ ·) 0

theorem xorBytes_append (bytes : List Byte) (b : Byte) :
    xorBytes (bytes ++ [b]) = xorBytes bytes ^^^ b := by
  simp [xorBytes]

theorem calcChecksum_eq (buffer : List Byte) (len : ℕ) (h : len ≤ buffer.length) :
    calcChecksum buffer len = some (xorBytes (buffer.take len)) := by
  induction len with
  | zero => rfl
  | succ len ih =>
    have hlt : len < buffer.length := h
    rw [calcChecksum, ih (Nat.le_of_lt hlt), List.getElem?_eq_getElem hlt,
      List.take_succ_eq_append_getElem hlt, xorBytes_append]
    rfl

end Ratfist.Assembler
