import Ratfist.Routing
import Mathlib.Tactic.SplitIfs
import Mathlib.Data.Multiset.ZeroCons

/-!
`process_incoming_message` cut at its pool and queue operations, for one registered
subsystem with numbered message blocks. The allocation and the release are cut in the
subsystem's own way; between two steps other tasks may come.
-/
namespace Ratfist.ReceiveWorker

open CString Subsystem Routing

/-- What the receive worker knows after its searches. -/
structure RxRequest where
  msgIdx : ℕ
  transactionId : ℕ
  savePtr : Option (List Byte)
deriving DecidableEq, Repr

inductive AllocResult (α : Type)
  | going (pc : α)
  | null
  | done (msg : ℕ)
deriving DecidableEq, Repr

/-- Where `process_incoming_message` stands: in the searches, in `alloc_message`, before
the parsing function, before the queue, or in `free_message`. -/
inductive RxPc (α φ : Type)
  | idle
  | alloc (req : RxRequest) (pc : α)
  | parse (req : RxRequest) (msg : ℕ)
  | send (msg : ℕ)
  | free (pc : φ)
deriving DecidableEq, Repr

/-- `alloc_message` and `free_message` in steps, on a memory `σ` that the message structs
are a part of. -/
structure Pools (σ δ α φ : Type) where
  messages : σ → ℕ → Message δ
  setMessage : σ → ℕ → Message δ → σ
  allocEntry : α
  allocStep : ℕ → ℕ → α → σ → Option (AllocResult α × σ)
  freeEntry : ℕ → φ
  freeStep : φ → σ → Option (Option φ × σ)

structure Receiver (σ α φ : Type) where
  mem : σ
  incoming : List ℕ
  rx : RxPc α φ

variable {σ δ α φ : Type} (pools : Pools σ δ α φ) (nullAtEnd : Bool)
  (conf : SubsystemMessageConf σ ℕ δ) (capacity : ℕ)

/-- `buf` is read in the searches, `choice` where a pool is asked for a block. -/
def rxStep (buf : List Byte) (choice : ℕ) (mem : σ) (incoming : List ℕ) :
    RxPc α φ → Option (Receiver σ α φ)
  | .idle =>
    match lookup nullAtEnd [conf] buf with
    -- whatever `strtoul` makes of NULL, the names are NULL too and the call ends
    | .nullString | .rejected _ => some ⟨mem, incoming, .idle⟩
    | .found _ msgIdx _ transactionId savePtr =>
      some ⟨mem, incoming, .alloc ⟨msgIdx, transactionId, savePtr⟩ pools.allocEntry⟩
  | .alloc req pc =>
    match pools.allocStep req.msgIdx choice pc mem with
    | none => none
    | some (.going pc, mem) => some ⟨mem, incoming, .alloc req pc⟩
    | some (.null, mem) => some ⟨mem, incoming, .idle⟩
    | some (.done msg, mem) => some ⟨mem, incoming, .parse req msg⟩
  | .parse req msg =>
    match (conf.messageHandlers[req.msgIdx]?).bind MessageHandler.parsingFunc with
    | none => none
    | some parsingFunc =>
      let content : Message δ :=
        { pools.messages mem msg with type := req.msgIdx, transactionId := req.transactionId }
      let (parsed, mem) := parsingFunc content req.savePtr (pools.setMessage mem msg content)
      some ⟨mem, incoming, if parsed then .send msg else .free (pools.freeEntry msg)⟩
  | .send msg =>
    if incoming.length < capacity then some ⟨mem, incoming ++ [msg], .idle⟩
    else some ⟨mem, incoming, .free (pools.freeEntry msg)⟩
  | .free pc =>
    match pools.freeStep pc mem with
    | none => none
    | some (some pc, mem) => some ⟨mem, incoming, .free pc⟩
    | some (none, mem) => some ⟨mem, incoming, .idle⟩

def rxAfterAlloc (req : RxRequest) : AllocResult α → RxPc α φ
  | .going pc => .alloc req pc
  | .null => .idle
  | .done msg => .parse req msg

/-- What the worker can do, with the guards. -/
inductive RxMove (mem : σ) (incoming : List ℕ) (rx : RxPc α φ) (r : Receiver σ α φ) : Prop
  | rest (here : rx = .idle) (same : r = ⟨mem, incoming, rx⟩)
  | start (here : rx = .idle) (req : RxRequest)
      (next : r = ⟨mem, incoming, .alloc req pools.allocEntry⟩)
  | alloc (req : RxRequest) (pc : α) (here : rx = .alloc req pc) (choice : ℕ)
      (res : AllocResult α) (mem' : σ)
      (alloc : pools.allocStep req.msgIdx choice pc mem = some (res, mem'))
      (next : r = ⟨mem', incoming, rxAfterAlloc req res⟩)
  | parse (req : RxRequest) (msg : ℕ) (here : rx = .parse req msg)
      (parsingFunc : Message δ → Option (List Byte) → σ → Bool × σ)
      (parser : (conf.messageHandlers[req.msgIdx]?).bind MessageHandler.parsingFunc =
        some parsingFunc)
      (content : Message δ)
      (written : content = { pools.messages mem msg with
        type := req.msgIdx, transactionId := req.transactionId })
      (parsed : Bool) (mem' : σ)
      (parse : parsingFunc content req.savePtr (pools.setMessage mem msg content) =
        (parsed, mem'))
      (next : r = ⟨mem', incoming, if parsed then .send msg else .free (pools.freeEntry msg)⟩)
  | sent (msg : ℕ) (here : rx = .send msg) (room : incoming.length < capacity)
      (next : r = ⟨mem, incoming ++ [msg], .idle⟩)
  | full (msg : ℕ) (here : rx = .send msg)
      (next : r = ⟨mem, incoming, .free (pools.freeEntry msg)⟩)
  | free (pc : φ) (here : rx = .free pc) (res : Option φ) (mem' : σ)
      (free : pools.freeStep pc mem = some (res, mem'))
      (next : r = ⟨mem', incoming, res.elim .idle .free⟩)

/-! What each position holds: a bare block, or a block with its payload. -/

def resultBare (allocBare : α → Multiset ℕ) : AllocResult α → Multiset ℕ
  | .going pc => allocBare pc
  | .null | .done _ => 0

def resultFull : AllocResult α → Multiset ℕ
  | .going _ | .null => 0
  | .done msg => {msg}

def rxBare (allocBare : α → Multiset ℕ) (freeBare : φ → Multiset ℕ) : RxPc α φ → Multiset ℕ
  | .alloc _ pc => allocBare pc
  | .free pc => freeBare pc
  | .idle | .parse _ _ | .send _ => 0

def rxFull (freeFull : φ → Multiset ℕ) : RxPc α φ → Multiset ℕ
  | .parse _ msg | .send msg => {msg}
  | .free pc => freeFull pc
  | .idle | .alloc _ _ => 0

variable {pools nullAtEnd conf capacity}

theorem rxStep_move {buf : List Byte} {choice : ℕ} {mem : σ} {incoming : List ℕ} {rx : RxPc α φ}
    {r : Receiver σ α φ}
    (h : rxStep pools nullAtEnd conf capacity buf choice mem incoming rx = some r) :
    RxMove pools conf capacity mem incoming rx r := by
  cases rx with
  | idle =>
    simp only [rxStep] at h
    cases hl : lookup nullAtEnd [conf] buf with
    | nullString =>
      simp only [hl] at h
      cases h
      exact .rest rfl rfl
    | rejected code =>
      simp only [hl] at h
      cases h
      exact .rest rfl rfl
    | found conf msgIdx parsingFunc transactionId savePtr =>
      simp only [hl] at h
      cases h
      exact .start rfl _ rfl
  | alloc req pc =>
    simp only [rxStep] at h
    rcases ha : pools.allocStep req.msgIdx choice pc mem with _ | ⟨res, mem'⟩
    · simp [ha] at h
    · cases res <;> simp only [ha] at h <;> cases h <;> exact .alloc req pc rfl _ _ _ ha rfl
  | parse req msg =>
    simp only [rxStep] at h
    cases hp : (conf.messageHandlers[req.msgIdx]?).bind MessageHandler.parsingFunc with
    | none => simp [hp] at h
    | some parsingFunc =>
      simp only [hp] at h
      cases h
      exact .parse req msg rfl parsingFunc hp _ rfl _ _ rfl rfl
  | send msg =>
    simp only [rxStep] at h
    split_ifs at h with hroom
    · cases h
      exact .sent msg rfl hroom rfl
    · cases h
      exact .full msg rfl rfl
  | free pc =>
    simp only [rxStep] at h
    rcases hf : pools.freeStep pc mem with _ | ⟨_ | pc', mem'⟩
    · simp [hf] at h
    · simp only [hf] at h
      cases h
      exact .free pc rfl none mem' hf rfl
    · simp only [hf] at h
      cases h
      exact .free pc rfl (some pc') mem' hf rfl

end Ratfist.ReceiveWorker
