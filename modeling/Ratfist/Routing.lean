import Ratfist.Subsystem
import Ratfist.FrameRoundTrip

/-!
`process_incoming_message`: from the text of a delivered message to a message struct
in the queue of one subsystem, or to one error code. `lookup` is the part that only
reads (tokens, transaction id, the two searches); `handOver` allocates, parses and
sends. Both are written in the order of the source.
-/
namespace Ratfist.Routing

open CString Constants Subsystem

variable {σ μ δ : Type}

def comma : Byte := 44

def parseTransactionId (token : List Byte) : Option ℕ :=
  let r := strtoul 10 token
  if conversionFailed token r.consumed r.erange then none else some r.value

inductive Lookup (σ μ δ : Type)
  | nullString
  | rejected (code : ℤ)
  | found (conf : SubsystemMessageConf σ μ δ) (msgIdx : ℕ)
      (parsingFunc : Message δ → Option (List Byte) → σ → Bool × σ)
      (transactionId : ℕ) (savePtr : Option (List Byte))

/-- The two nested searches; both loops return at the first name that matches. -/
def findHandler (subsystems : List (SubsystemMessageConf σ μ δ)) (transactionId : ℕ)
    (subsystemName msgName : List Byte) (savePtr : Option (List Byte)) : Lookup σ μ δ :=
  match subsystems.find? (fun conf => strcmpEq subsystemName conf.subsystemName) with
  | none => .rejected unknownSubsystemError
  | some conf =>
    match conf.messageHandlers.findIdx? (fun h => strcmpEq msgName h.messageName) with
    | none => .rejected unknownMessageTypeError
    | some msgIdx =>
      match (conf.messageHandlers[msgIdx]?).bind MessageHandler.parsingFunc with
      | none => .rejected missingMessageHandlerError
      | some parsingFunc => .found conf msgIdx parsingFunc transactionId savePtr

def lookup (nullAtEnd : Bool) (subsystems : List (SubsystemMessageConf σ μ δ))
    (incomingMsgBuf : List Byte) : Lookup σ μ δ :=
  let (transactionIdStr, savePtr) := strtokR nullAtEnd comma (some incomingMsgBuf)
  match transactionIdStr with
  | none => .nullString
  | some transactionIdStr =>
    match parseTransactionId transactionIdStr with
    | none => .rejected messageParsingError
    | some transactionId =>
      let (subsystemName, savePtr) := strtokR nullAtEnd comma savePtr
      let (msgName, savePtr) := strtokR nullAtEnd comma savePtr
      match subsystemName, msgName with
      | some subsystemName, some msgName =>
        findHandler subsystems transactionId subsystemName msgName savePtr
      | _, _ => .rejected messageParsingError

/-- The world afterwards or the fault, with the calls made until then. -/
abbrev Result (σ μ δ : Type) := Except (Fault × List (Call μ)) (World σ μ δ × List (Call μ))

def Result.calls : Result σ μ δ → List (Call μ)
  | .error (_, calls) => calls
  | .ok (_, calls) => calls

/-- `conf->free_message(msg)` after an error has been scheduled. -/
def giveBack (conf : SubsystemMessageConf σ μ δ) (msg : μ) (w : World σ μ δ)
    (calls : List (Call μ)) : Result σ μ δ :=
  match conf.freeMessage with
  | none => .error (.nullFunction, calls)
  | some free => .ok ({ w with env := free msg (w.messages msg) w.env }, calls ++ [.free msg])

/-- From `alloc_message` on. -/
def handOver [DecidableEq μ] (conf : SubsystemMessageConf σ μ δ) (msgIdx : ℕ)
    (parsingFunc : Message δ → Option (List Byte) → σ → Bool × σ) (transactionId : ℕ)
    (savePtr : Option (List Byte)) (w : World σ μ δ) : Result σ μ δ :=
  match conf.allocMessage with
  | none => .error (.nullFunction, [])
  | some alloc =>
    match alloc msgIdx w.env with
    | (none, env) =>
      .ok (({ w with env := env } : World σ μ δ).scheduleErrMessage memAllocError,
        [.alloc msgIdx none, .scheduled memAllocError])
    | (some (msg, content), env) =>
      let content := { content with type := msgIdx, transactionId := transactionId }
      let (parsed, env) := parsingFunc content savePtr env
      let w := { w with env := env, messages := Function.update w.messages msg content }
      if !parsed then
        giveBack conf msg (w.scheduleErrMessage messageParsingError)
          [.alloc msgIdx (some msg), .parse savePtr false, .scheduled messageParsingError]
      else
        match conf.incomingMsgQueue with
        | none => .error (.nullQueue, [.alloc msgIdx (some msg), .parse savePtr true])
        | some q =>
          let (taken, mailbox) := (w.mailboxes q).write msg
          if !taken then
            giveBack conf msg (w.scheduleErrMessage messageRoutingError)
              [.alloc msgIdx (some msg), .parse savePtr true, .scheduled messageRoutingError]
          else
            .ok ({ w with mailboxes := Function.update w.mailboxes q mailbox },
              [.alloc msgIdx (some msg), .parse savePtr true, .enqueued q msg])

def processIncomingMessage [DecidableEq μ] (nullAtEnd : Bool)
    (subsystems : List (SubsystemMessageConf σ μ δ)) (incomingMsgBuf : List Byte)
    (w : World σ μ δ) : Result σ μ δ :=
  match lookup nullAtEnd subsystems incomingMsgBuf with
  | .nullString => .error (.nullString, [])
  | .rejected code => .ok (w.scheduleErrMessage code, [.scheduled code])
  | .found conf msgIdx parsingFunc transactionId savePtr =>
    handOver conf msgIdx parsingFunc transactionId savePtr w

end Ratfist.Routing
