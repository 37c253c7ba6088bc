import Ratfist.SpinnerSystem
import Ratfist.Exchange

/-!
The spinner's blocks are conserved. The three workers are an exchange of message
blocks: every step of the system takes, gives back, attaches, detaches or passes on at
most one block. With the sizes of the pools and queues this leaves room for each reply.
-/
namespace Ratfist.SpinnerConservation

open CString Constants Subsystem Ledger Exchange SpinnerMessages SpinnerChannel SpinnerPools
  SpinnerSystem
open ReceiveWorker (AllocResult rxAfterAlloc resultBare resultFull rxBare rxFull)

variable {F : Type} {n : ℕ} {b : Board}

/-! What each position holds: bare blocks, and blocks with a payload. -/

def allocBare : AllocPc → Multiset ℕ
  | .takeMsg => 0
  | .takeData ret | .giveMsg ret => {ret}

def freeBare : FreePc → Multiset ℕ
  | .giveData _ => 0
  | .giveMsg msg => {msg}

def freeFull : FreePc → Multiset ℕ
  | .giveData msg => {msg}
  | .giveMsg _ => 0

def commBare : CommPc F → Multiset ℕ
  | .alloc _ _ _ pc => allocBare pc
  | .drop pc => freeBare pc
  | .idle | .handle _ | .fill _ _ _ _ | .send _ _ | .hung _ => 0

def commFull : CommPc F → Multiset ℕ
  | .handle req | .alloc req _ _ _ => {req}
  | .fill req _ _ msg | .send req msg => msg ::ₘ {req}
  | .drop pc => freeFull pc
  | .hung blocks => blocks
  | .idle => 0

def txBare : TxPc → Multiset ℕ
  | .free pc => freeBare pc
  | .idle | .send _ => 0

def txFull : TxPc → Multiset ℕ
  | .send msg => {msg}
  | .free pc => freeFull pc
  | .idle => 0

def bareOf (s : State n F) : Worker → Multiset ℕ :=
  byWorker (rxBare allocBare freeBare s.rx) (commBare s.comm) (txBare s.tx)

def fullOf (s : State n F) : Worker → Multiset ℕ :=
  byWorker (rxFull freeFull s.rx) (commFull s.comm) (txFull s.tx)

def freeDataOf (mem : Memory n F) : Multiset DataPtr :=
  mem.dataPool .plans + mem.dataPool .smalls

def held (mem : Memory n F) (queue : Queue → List ℕ) (bare full : Worker → Multiset ℕ) :
    Holdings Worker Queue ℕ DataPtr :=
  Exchange.held mem.msgPool (freeDataOf mem) (fun m => (mem.messages m).data) queue bare full

def holdings (s : State n F) : Holdings Worker Queue ℕ DataPtr :=
  held s.mem (byQueue s.incoming s.outgoing) (bareOf s) (fullOf s)

@[simp] theorem holdings_full (s : State n F) (w : Worker) :
    (holdings s).place (.live (.full w)) = fullOf s w := rfl

def payloads (b : Board) : Multiset DataPtr :=
  (Multiset.range b.spinPlanDataMsgPoolSize).map (DataPtr.mk .plans) +
    (Multiset.range b.smallSizedMsgPoolSize).map (DataPtr.mk .smalls)

theorem payloads_nodup (b : Board) : (payloads b).Nodup := by
  cases b <;> decide

/-- Payloads are in their own pool or attached to a message whose type selects it. -/
structure Typed (dataPool : DataPool → List DataPtr) (messages : ℕ → Message DataPtr)
    (live : Multiset ℕ) : Prop where
  pools : ∀ pool, ∀ d ∈ dataPool pool, d.pool = pool
  typed : ∀ m ∈ live, dataPoolOf (messages m).type = some (messages m).data.pool

abbrev Sound (b : Board) (mem : Memory n F) (queue : Queue → List ℕ)
    (bare full : Worker → Multiset ℕ) : Prop :=
  Exchange.Sound (Multiset.range b.msgStructPoolSize) (payloads b)
    (Typed mem.dataPool mem.messages) (held mem queue bare full)

variable {mem mem' : Memory n F} {queue queue' : Queue → List ℕ}
  {bare bare' full full' : Worker → Multiset ℕ} {w : Worker}

theorem Sound.notMem_live (h : Sound b mem queue bare full) {m : ℕ} (hm : m ∈ bare w) :
    m ∉ (held mem queue bare full).live :=
  notMem_live_of_bare (h.separate (Multiset.nodup_range _)) (w := w) hm

/-- A payload taken from either pool is taken from the free ones. -/
theorem freeData_take {pool : DataPool} {data : DataPtr} (h : data ∈ mem.dataPool pool) :
    freeDataOf mem =
      data ::ₘ freeDataOf (mem.setDataPool pool ((mem.dataPool pool).erase data)) := by
  have hpool : (mem.dataPool pool : Multiset DataPtr) =
      data ::ₘ ((mem.dataPool pool).erase data : Multiset DataPtr) :=
    Multiset.coe_eq_coe.mpr (List.perm_cons_erase h)
  cases pool with
  | plans =>
    simp only [freeDataOf, Memory.setDataPool, Function.update_self, ne_eq, reduceCtorEq,
      not_false_eq_true, Function.update_of_ne]
    rw [hpool, Multiset.cons_add]
  | smalls =>
    simp only [freeDataOf, Memory.setDataPool, Function.update_self, ne_eq, reduceCtorEq,
      not_false_eq_true, Function.update_of_ne]
    rw [hpool, Multiset.add_cons]

theorem freeData_give (mem : Memory n F) (pool : DataPool) (data : DataPtr) :
    freeDataOf (mem.setDataPool pool (data :: mem.dataPool pool)) = data ::ₘ freeDataOf mem := by
  cases pool with
  | plans =>
    simp only [freeDataOf, Memory.setDataPool, Function.update_self, ne_eq, reduceCtorEq,
      not_false_eq_true, Function.update_of_ne, ← Multiset.cons_coe, Multiset.cons_add]
  | smalls =>
    simp only [freeDataOf, Memory.setDataPool, Function.update_self, ne_eq, reduceCtorEq,
      not_false_eq_true, Function.update_of_ne, ← Multiset.cons_coe, Multiset.add_cons]

/-- Every payload stays in its own pool when one pool gets a new list of its blocks. -/
theorem pools_setDataPool (hpools : ∀ pool, ∀ d ∈ mem.dataPool pool, d.pool = pool)
    {pool : DataPool} {blocks : List DataPtr} (hblocks : ∀ d ∈ blocks, d.pool = pool) :
    ∀ pool', ∀ d ∈ (mem.setDataPool pool blocks).dataPool pool', d.pool = pool' := by
  intro pool' d hd
  by_cases hp : pool' = pool
  · subst hp
    simp only [Memory.setDataPool, Function.update_self] at hd
    exact hblocks d hd
  · simp only [Memory.setDataPool, Function.update_of_ne hp] at hd
    exact hpools pool' d hd

/-- What a call of `spinner_alloc_message` can do next. -/
theorem allocStep_cases {msgTypeId choice : ℕ} {pc : AllocPc} {res : AllocResult AllocPc}
    (h : allocStep msgTypeId choice pc mem = some (res, mem')) :
    (pc = .takeMsg ∧ mem.msgPool = [] ∧ res = .null ∧ mem' = mem) ∨
      (∃ ret ∈ mem.msgPool, pc = .takeMsg ∧ res = .going (.takeData ret) ∧
        mem' = { mem with msgPool := mem.msgPool.erase ret }) ∨
      (∃ ret pool, pc = .takeData ret ∧ dataPoolOf msgTypeId = some pool ∧
        mem.dataPool pool = [] ∧ res = .going (.giveMsg ret) ∧ mem' = mem) ∨
      (∃ ret pool, ∃ data ∈ mem.dataPool pool, pc = .takeData ret ∧
        dataPoolOf msgTypeId = some pool ∧ data.pool = pool ∧ res = .done ret ∧
        mem' = (mem.setDataPool pool ((mem.dataPool pool).erase data)).setMessage ret
          ⟨msgTypeId, 0, data⟩) ∨
      (∃ ret, pc = .giveMsg ret ∧ res = .null ∧
        mem' = { mem with msgPool := ret :: mem.msgPool }) := by
  cases pc with
  | takeMsg =>
    simp only [allocStep] at h
    split_ifs at h with hnil hmem
    · cases h
      exact Or.inl ⟨rfl, hnil, rfl, rfl⟩
    · cases h
      exact Or.inr (Or.inl ⟨choice, hmem, rfl, rfl, rfl⟩)
  | takeData ret =>
    simp only [allocStep] at h
    cases hpool : dataPoolOf msgTypeId with
    | none => simp [hpool] at h
    | some pool =>
      simp only [hpool] at h
      split_ifs at h with hnil hmem
      · cases h
        exact Or.inr (Or.inr (Or.inl ⟨ret, pool, rfl, rfl, hnil, rfl, rfl⟩))
      · cases h
        exact Or.inr (Or.inr (Or.inr (Or.inl
          ⟨ret, pool, ⟨pool, choice⟩, hmem, rfl, rfl, rfl, rfl, rfl⟩)))
  | giveMsg ret =>
    cases h
    exact Or.inr (Or.inr (Or.inr (Or.inr ⟨ret, rfl, rfl, rfl⟩)))

/-- What a call of `spinner_free_message` can do next. -/
theorem freeStep_cases {pc : FreePc} {res : Option FreePc}
    (h : freeStep pc mem = some (res, mem')) :
    (∃ msg pool, pc = .giveData msg ∧ dataPoolOf (mem.messages msg).type = some pool ∧
        res = some (.giveMsg msg) ∧
        mem' = mem.setDataPool pool ((mem.messages msg).data :: mem.dataPool pool)) ∨
      (∃ msg, pc = .giveMsg msg ∧ res = none ∧
        mem' = { mem with msgPool := msg :: mem.msgPool }) := by
  cases pc with
  | giveData msg =>
    simp only [freeStep] at h
    cases hpool : dataPoolOf (mem.messages msg).type with
    | none => simp [hpool] at h
    | some pool =>
      simp only [hpool] at h
      cases h
      exact Or.inl ⟨msg, pool, rfl, hpool, rfl, rfl⟩
  | giveMsg msg =>
    cases h
    exact Or.inr ⟨msg, rfl, rfl, rfl⟩

/-- One pool operation of an allocation is a step of the exchange, and sound. -/
theorem Sound.alloc (h : Sound b mem queue bare full) {msgTypeId choice : ℕ} {pc : AllocPc}
    {res : AllocResult AllocPc} (hbare : bare w = allocBare pc)
    (hstep : allocStep msgTypeId choice pc mem = some (res, mem')) :
    Step (held mem queue bare full)
        (held mem' queue (Function.update bare w (resultBare allocBare res))
          (Function.update full w (resultFull res + full w))) ∧
      Sound b mem' queue (Function.update bare w (resultBare allocBare res))
        (Function.update full w (resultFull res + full w)) := by
  rcases allocStep_cases hstep with ⟨rfl, -, rfl, rfl⟩ | ⟨ret, hret, rfl, rfl, rfl⟩ |
    ⟨ret, pool, rfl, -, -, rfl, rfl⟩ | ⟨ret, pool, data, hdata, rfl, htype, hptr, rfl, rfl⟩ |
    ⟨ret, rfl, rfl, rfl⟩
  · have hsame : Function.update bare w (resultBare allocBare .null) = bare :=
      Function.update_eq_self_iff.mpr hbare.symm
    simp only [hsame, resultFull, zero_add, Function.update_eq_self]
    exact ⟨.stay rfl rfl fun _ _ => rfl, h⟩
  · simp only [resultBare, allocBare, resultFull, zero_add, Function.update_eq_self]
    exact h.take hret hbare
  · have hsame : Function.update bare w (resultBare allocBare (.going (.giveMsg ret))) = bare :=
      Function.update_eq_self_iff.mpr hbare.symm
    simp only [hsame, resultFull, zero_add, Function.update_eq_self]
    exact ⟨.stay rfl rfl fun _ _ => rfl, h⟩
  · have hbare' : bare w = {ret} := hbare
    have hmem : ret ∈ bare w := by simp [hbare']
    have hnot := h.notMem_live hmem
    simp only [resultBare, resultFull, Multiset.singleton_add]
    have hmove : Move ret (.bare w) (.live (.full w)) (held mem queue bare full).place
        (held ((mem.setDataPool pool ((mem.dataPool pool).erase data)).setMessage ret
          ⟨msgTypeId, 0, data⟩) queue (Function.update bare w 0)
          (Function.update full w (ret ::ₘ full w))).place := by
      exact move_attach mem.msgPool queue full hbare'
    have hother (x : ℕ) (hx : x ∈ (held mem queue bare full).live) :
        Function.update mem.messages ret ⟨msgTypeId, 0, data⟩ x = mem.messages x :=
      Function.update_of_ne (fun hr => hnot (by rwa [← hr])) _ _
    have hs : Step (held mem queue bare full) (held ((mem.setDataPool pool
        ((mem.dataPool pool).erase data)).setMessage ret ⟨msgTypeId, 0, data⟩) queue
        (Function.update bare w 0) (Function.update full w (ret ::ₘ full w))) := by
      refine .attach ret w hmove ?_ fun x hx => congrArg Message.data (hother x hx)
      simp only [held, Exchange.held, Memory.setMessage, Function.update_self]
      exact freeData_take hdata
    refine ⟨hs, h.conserves.step hs, ?_, ?_⟩
    · exact pools_setDataPool h.fine.pools fun d hd =>
        h.fine.pools pool d (List.mem_of_mem_erase hd)
    · rw [live_of_attach hmove (by simp)]
      intro m hm
      simp only [Memory.setMessage, Memory.setDataPool]
      rcases Multiset.mem_cons.mp hm with rfl | hm
      · rw [Function.update_self, htype, hptr]
      · rw [hother m hm]
        exact h.fine.typed m hm
  · simp only [resultBare, resultFull, zero_add, Function.update_eq_self]
    exact h.give hbare

/-- One pool operation of a release is a step of the exchange, and sound. -/
theorem Sound.free (h : Sound b mem queue bare full) {pc : FreePc} {res : Option FreePc}
    (hbare : bare w = freeBare pc) (hfull : full w = freeFull pc)
    (hstep : freeStep pc mem = some (res, mem')) :
    Step (held mem queue bare full) (held mem' queue
        (Function.update bare w (res.elim 0 freeBare))
        (Function.update full w (res.elim 0 freeFull))) ∧
      Sound b mem' queue (Function.update bare w (res.elim 0 freeBare))
        (Function.update full w (res.elim 0 freeFull)) := by
  rcases freeStep_cases hstep with ⟨msg, pool, rfl, htype, rfl, rfl⟩ | ⟨msg, rfl, rfl, rfl⟩
  · have hmove : Move msg (.live (.full w)) (.bare w) (held mem queue bare full).place
        (held (mem.setDataPool pool ((mem.messages msg).data :: mem.dataPool pool)) queue
          (Function.update bare w {msg}) (Function.update full w 0)).place := by
      exact move_detach mem.msgPool queue hbare hfull
    simp only [Option.elim_some, freeBare, freeFull]
    have hs : Step (held mem queue bare full) (held (mem.setDataPool pool
        ((mem.messages msg).data :: mem.dataPool pool)) queue
        (Function.update bare w {msg}) (Function.update full w 0)) :=
      .detach msg w hmove (freeData_give mem pool _) fun _ _ => rfl
    have hlive := live_of_detach hmove (by simp)
    have hmsg : msg ∈ (held mem queue bare full).live := by
      rw [hlive]
      exact Multiset.mem_cons_self _ _
    have hptr : (mem.messages msg).data.pool = pool := by
      have := h.fine.typed msg hmsg
      rw [htype] at this
      exact (Option.some.inj this).symm
    refine ⟨hs, h.conserves.step hs, ?_, ?_⟩
    · refine pools_setDataPool h.fine.pools fun d hd => ?_
      rcases List.mem_cons.mp hd with rfl | hd
      · exact hptr
      · exact h.fine.pools pool d hd
    · intro m hm
      exact h.fine.typed m (by rw [hlive]; exact Multiset.mem_cons_of_mem hm)
  · have hzero : Function.update full w 0 = full :=
      Function.update_eq_self_iff.mpr hfull.symm
    simp only [Option.elim_none, hzero]
    exact h.give hbare

/-- Writing to the contents of blocks, as long as live messages keep their payload. -/
theorem Sound.write_messages (h : Sound b mem queue bare full) (mem' : Memory n F)
    (hmsg : mem'.msgPool = mem.msgPool)
    (hdata : mem'.dataPool = mem.dataPool)
    (hlive : ∀ m ∈ (held mem queue bare full).live,
      (mem'.messages m).data = (mem.messages m).data ∧
      dataPoolOf (mem'.messages m).type = some (mem.messages m).data.pool) :
    Step (held mem queue bare full) (held mem' queue bare full) ∧
      Sound b mem' queue bare full := by
  have hwrite := h.write (fun m => (mem'.messages m).data)
    (Typed mem'.dataPool mem'.messages) (fun m hm => (hlive m hm).1)
    ⟨by rw [hdata]; exact h.fine.pools, fun m hm => by rw [(hlive m hm).1]; exact (hlive m hm).2⟩
  have hfree : freeDataOf mem' = freeDataOf mem := by rw [freeDataOf, freeDataOf, hdata]
  have heq : held mem' queue bare full = Exchange.held mem.msgPool (freeDataOf mem)
      (fun m => (mem'.messages m).data) queue bare full := by rw [held, hmsg, hfree]
  rwa [Sound, heq]

/-- An allocation changes no message that is live already. -/
theorem Sound.alloc_messages (h : Sound b mem queue bare full) {msgTypeId choice : ℕ}
    {pc : AllocPc} {res : AllocResult AllocPc} (hbare : bare w = allocBare pc)
    (hstep : allocStep msgTypeId choice pc mem = some (res, mem')) {m : ℕ}
    (hm : m ∈ (held mem queue bare full).live) : mem'.messages m = mem.messages m := by
  rcases allocStep_cases hstep with ⟨-, -, -, rfl⟩ | ⟨-, -, -, -, rfl⟩ | ⟨-, -, -, -, -, -, rfl⟩ |
    ⟨ret, pool, data, -, rfl, -, -, -, rfl⟩ | ⟨-, -, -, rfl⟩
  case inr.inr.inr.inl =>
    have hret : ret ∈ bare w := by simp [hbare, allocBare]
    exact Function.update_of_ne (fun heq => h.notMem_live hret (by rwa [← heq])) _ _
  all_goals rfl

/-- The message that an allocation returns has the type asked for. -/
theorem allocStep_done {msgTypeId choice ret : ℕ} {pc : AllocPc}
    (hstep : allocStep msgTypeId choice pc mem = some (.done ret, mem')) :
    (mem'.messages ret).type = msgTypeId := by
  rcases allocStep_cases hstep with ⟨-, -, h, -⟩ | ⟨_, -, -, h, -⟩ | ⟨_, _, -, -, -, h, -⟩ |
    ⟨ret', pool, data, -, -, -, -, h, rfl⟩ | ⟨_, -, h, -⟩
  case inr.inr.inr.inl =>
    cases h
    simp [Memory.setMessage]
  all_goals cases h

theorem freeStep_messages {pc : FreePc} {res : Option FreePc}
    (hstep : freeStep pc mem = some (res, mem')) : mem'.messages = mem.messages := by
  rcases freeStep_cases hstep with ⟨-, -, -, -, -, rfl⟩ | ⟨-, -, -, rfl⟩
  all_goals rfl

def WritesPayload
    (parsingFunc : Message DataPtr → Option (List Byte) → Memory n F → Bool × Memory n F) : Prop :=
  ∀ content savePtr mem, (parsingFunc content savePtr mem).2.msgPool = mem.msgPool ∧
    (parsingFunc content savePtr mem).2.dataPool = mem.dataPool ∧
    (parsingFunc content savePtr mem).2.messages = mem.messages

theorem writes_plan (parse : SpinPlanData n F → Option (List Byte) → Bool × SpinPlanData n F) :
    WritesPayload (parseIntoPlan parse) :=
  fun _ _ _ => ⟨rfl, rfl, rfl⟩

theorem writes_small
    (parse : SmallSizeMsgData F → Option (List Byte) → Bool × SmallSizeMsgData F) :
    WritesPayload (n := n) (parseIntoSmall parse) :=
  fun _ _ _ => ⟨rfl, rfl, rfl⟩

theorem parser_writes {libc : Libc F} {ser : Serializers n F} {msgIdx : ℕ}
    {parsingFunc : Message DataPtr → Option (List Byte) → Memory n F → Bool × Memory n F}
    (hp : ((msgHandlers libc ser)[msgIdx]?).bind MessageHandler.parsingFunc = some parsingFunc) :
    WritesPayload parsingFunc := by
  obtain ⟨handler, hget, hparse⟩ := Option.bind_eq_some_iff.mp hp
  have hmem := List.mem_of_getElem? hget
  simp only [msgHandlers, List.mem_cons, List.not_mem_nil, or_false] at hmem
  rcases hmem with rfl | rfl | rfl | rfl | rfl | rfl | rfl <;> cases hparse
  · exact writes_plan _
  all_goals exact writes_small _

/-- Sound, and a message that is being parsed has the type it was allocated with. -/
structure Inv (b : Board) (s : State n F) : Prop where
  sound : Sound b s.mem (byQueue s.incoming s.outgoing) (bareOf s) (fullOf s)
  parsing : ∀ req msg, s.rx = .parse req msg → (s.mem.messages msg).type = req.msgIdx

abbrev Kept (b : Board) (w : Worker) (s s' : State n F) : Prop :=
  Exchange.Kept (Multiset.range b.msgStructPoolSize) (payloads b)
    (Typed s'.mem.dataPool s'.mem.messages) w (holdings s) (holdings s') s.mem.messages
    s'.mem.messages

section Steps

variable {libc : Libc F} {ser : Serializers n F} {queues : Queues b} {s s' : State n F}

theorem Inv.separate (h : Inv b s) : Separate (holdings s).place :=
  h.sound.separate (Multiset.nodup_range _)

/-- A step that changes neither the memory nor what is held where. -/
theorem Inv.stay (h : Inv b s) (hmem : s'.mem = s.mem) (hin : s'.incoming = s.incoming)
    (hout : s'.outgoing = s.outgoing) (hbare : bareOf s' = bareOf s)
    (hfull : fullOf s' = fullOf s) : Kept b w s s' := by
  have hsame : holdings s' = holdings s := by
    simp only [holdings, hmem, hin, hout, hbare, hfull]
  rw [Kept, hsame, hmem]
  exact h.sound.stays

theorem rx_kept (h : Inv b s) (hm : RxMove libc ser queues s s') : Kept b .rx s s' := by
  obtain ⟨r, hm, rfl⟩ := hm
  cases hm with
  | rest rx same =>
    subst same
    exact h.stay rfl rfl rfl rfl rfl
  | start rx req next =>
    subst next
    exact h.stay rfl rfl rfl (by simp [bareOf, rx, rxBare, allocBare])
      (by simp [fullOf, rx, rxFull])
  | alloc req pc rx choice res mem alloc next =>
    subst next
    have hbare : bareOf s .rx = allocBare pc := by simp [bareOf, byWorker, rx, rxBare]
    refine .of_held (h.sound.alloc hbare alloc) rfl ?_ ?_
      fun m hm _ => h.sound.alloc_messages hbare alloc hm
    · rw [bareOf, bareOf, update_rx]
      cases res <;> rfl
    · rw [fullOf, fullOf, update_rx]
      cases res <;> simp [rxAfterAlloc, rx, rxFull, resultFull, byWorker]
  | parse req msg rx parsingFunc parser content written parsed mem parse next =>
    subst next
    have hfull : fullOf s .rx = {msg} := by simp [fullOf, byWorker, rx, rxFull]
    obtain ⟨hpool, hdata, hmessages⟩ := parser_writes parser content req.savePtr
      (pools.setMessage s.mem msg content)
    rw [parse] at hpool hdata hmessages
    have hself : mem.messages msg = content := by
      rw [hmessages]
      simp [Memory.setMessage]
    have hother (m : ℕ) (hm : m ≠ msg) : mem.messages m = s.mem.messages m := by
      rw [hmessages]
      simp [Memory.setMessage, hm]
    have hwrite := h.sound.write_messages mem hpool hdata fun m hm => by
      by_cases heq : m = msg
      · subst heq
        have htype := h.sound.fine.typed m hm
        rw [h.parsing req m rx] at htype
        rw [hself, written]
        exact ⟨rfl, htype⟩
      · rw [hother m heq]
        exact ⟨rfl, h.sound.fine.typed m hm⟩
    refine .of_held hwrite rfl ?_ ?_ fun m _ hm => hother m fun heq => hm ?_
    · cases parsed <;> simp [bareOf, rx, rxBare, freeBare]
    · cases parsed <;> simp [fullOf, rx, rxFull, freeFull]
    · simp [hfull, heq]
  | sent msg rx room next =>
    subst next
    have hfull : fullOf s .rx = msg ::ₘ 0 := by simp [fullOf, byWorker, rx, rxFull]
    refine .of_held (h.sound.send .incoming hfull) (update_incoming _ _ _).symm
      (by simp [bareOf, rx, rxBare]) ?_ fun _ _ _ => rfl
    simp [fullOf, rxFull]
  | full msg rx next =>
    subst next
    exact h.stay rfl rfl rfl (by simp [bareOf, rx, rxBare, freeBare])
      (by simp [fullOf, rx, rxFull, freeFull])
  | free pc rx res mem free next =>
    subst next
    have hbare : bareOf s .rx = freeBare pc := by simp [bareOf, byWorker, rx, rxBare]
    have hfull : fullOf s .rx = freeFull pc := by simp [fullOf, byWorker, rx, rxFull]
    refine .of_held (h.sound.free hbare hfull free) rfl ?_ ?_
      fun m _ _ => by rw [freeStep_messages free]
    · rw [bareOf, bareOf, update_rx]
      cases res <;> rfl
    · rw [fullOf, fullOf, update_rx]
      cases res <;> rfl

theorem tx_kept (h : Inv b s) (hm : TxMove s s') : Kept b .tx s s' := by
  cases hm with
  | rest tx empty same =>
    subst same
    exact h.stay rfl rfl rfl rfl rfl
  | receive tx msg rest queued next =>
    subst next
    refine .of_held (h.sound.receive .tx .outgoing queued) (update_outgoing _ _ _).symm
      (by simp [bareOf, tx, txBare]) ?_ fun _ _ _ => rfl
    simp [fullOf, tx, txFull, byWorker]
  | send msg tx next =>
    subst next
    exact h.stay rfl rfl rfl (by simp [bareOf, tx, txBare, freeBare])
      (by simp [fullOf, tx, txFull, freeFull])
  | free pc tx res mem free next =>
    subst next
    have hbare : bareOf s .tx = freeBare pc := by simp [bareOf, byWorker, tx, txBare]
    have hfull : fullOf s .tx = freeFull pc := by simp [fullOf, byWorker, tx, txFull]
    refine .of_held (h.sound.free hbare hfull free) rfl ?_ ?_
      fun m _ _ => by rw [freeStep_messages free]
    · rw [bareOf, bareOf, update_tx]
      cases res <;> rfl
    · rw [fullOf, fullOf, update_tx]
      cases res <;> rfl

/-- While the spinner's worker holds a request and its reply, the outgoing queue has
room: the two blocks are missing from it. -/
theorem reply_room (h : Inv b s) {req msg : ℕ} (hcomm : s.comm = .send req msg) :
    s.outgoing.length < queues.outgoing := by
  have hle := add_le_total (holdings s).place
    (p := .live (.queue .outgoing)) (q := .live (.full .comm)) (by simp)
  have hblocks : total (holdings s).place = _ := h.sound.conserves.blocks
  rw [hblocks] at hle
  have hcard := Multiset.card_le_card hle
  simp only [holdings, held, Exchange.held, places, byQueue, fullOf, byWorker, hcomm, commFull,
    Multiset.card_add, Multiset.coe_card, Multiset.card_cons, Multiset.card_singleton,
    Multiset.card_range] at hcard
  have hslots := queues.outgoing_slots
  have hsize : b.msgStructPoolSize = b.maxOutboundMessages := by cases b <;> rfl
  omega

theorem setPayload_frame (mem : Memory n F) (msg : ℕ) (payload : SpinnerMessage n F) :
    (mem.setPayload msg payload).msgPool = mem.msgPool ∧
      (mem.setPayload msg payload).dataPool = mem.dataPool ∧
      (mem.setPayload msg payload).messages = mem.messages := by
  cases payload <;> exact ⟨rfl, rfl, rfl⟩

/-- The transaction id and the payload of a reply. -/
theorem fillStep_frame {mem mem' : Memory n F} {req msg : ℕ}
    (payload : Option (SpinnerMessage n F))
    (hnamed : mem' = mem.setMessage msg { mem.messages msg with
      transactionId := (mem.messages req).transactionId }) :
    (payload.elim mem' (mem'.setPayload msg)).msgPool = mem.msgPool ∧
      (payload.elim mem' (mem'.setPayload msg)).dataPool = mem.dataPool ∧
      (payload.elim mem' (mem'.setPayload msg)).messages = Function.update mem.messages msg
        { mem.messages msg with transactionId := (mem.messages req).transactionId } := by
  subst hnamed
  cases payload with
  | none => exact ⟨rfl, rfl, rfl⟩
  | some p => exact setPayload_frame _ msg p

theorem comm_alloc_kept (h : Inv b s) {req choice : ℕ} {c : Channel F} {reply : Reply}
    {pc : AllocPc} {res : AllocResult AllocPc} {mem : Memory n F} {calls : List CommCall}
    (hcomm : s.comm = .alloc req c reply pc)
    (halloc : allocStep reply.msgType choice pc s.mem = some (res, mem)) :
    Kept b .comm s
      { s with mem := mem, comm := commAfterAlloc req c reply res, calls := calls } := by
  have hbare : bareOf s .comm = allocBare pc := by simp [bareOf, byWorker, hcomm, commBare]
  refine .of_held (h.sound.alloc hbare halloc) rfl ?_ ?_
    fun m hm _ => h.sound.alloc_messages hbare halloc hm
  · rw [bareOf, bareOf, update_comm]
    cases res <;> rfl
  · rw [fullOf, fullOf, update_comm]
    cases res <;> simp [commAfterAlloc, hcomm, commFull, freeFull, resultFull, byWorker]

theorem comm_fill_kept (h : Inv b s) {req msg : ℕ} {c : Channel F} {reply : Reply}
    {mem : Memory n F} {payload : Option (SpinnerMessage n F)}
    (hcomm : s.comm = .fill req c reply msg)
    (hnamed : mem = s.mem.setMessage msg { s.mem.messages msg with
      transactionId := (s.mem.messages req).transactionId }) :
    Kept b .comm s { s with
      mem := payload.elim mem (mem.setPayload msg)
      comm := payload.elim (.hung [req, msg]) fun _ => .send req msg } := by
  have hfull : fullOf s .comm = msg ::ₘ {req} := by simp [fullOf, byWorker, hcomm, commFull]
  obtain ⟨hpool, hdata, hmessages⟩ := fillStep_frame payload hnamed
  have hwrite := h.sound.write_messages (payload.elim mem (mem.setPayload msg)) hpool hdata
      fun m hm => by
    rw [hmessages]
    by_cases heq : m = msg
    · subst heq
      rw [Function.update_self]
      exact ⟨rfl, h.sound.fine.typed m hm⟩
    · rw [Function.update_of_ne heq]
      exact ⟨rfl, h.sound.fine.typed m hm⟩
  refine .of_held hwrite rfl ?_ ?_ fun m _ hm => ?_
  · cases payload <;> simp [bareOf, hcomm, commBare]
  · cases payload with
    | none =>
      simp only [fullOf, Option.elim_none, hcomm, commFull]
      exact congrArg (byWorker _ · _) (Multiset.coe_eq_coe.mpr (List.Perm.swap msg req []))
    | some p => simp [fullOf, hcomm, commFull]
  · rw [hmessages, Function.update_of_ne]
    rintro rfl
    exact hm (by simp [hfull])

theorem comm_kept (h : Inv b s) (hm : CommMove queues s s') : Kept b .comm s s' := by
  cases hm with
  | rest comm empty same =>
    subst same
    exact h.stay rfl rfl rfl rfl rfl
  | receive comm req rest queued next =>
    subst next
    refine .of_held (h.sound.receive .comm .incoming queued) (update_incoming _ _ _).symm
      (by simp [bareOf, comm, commBare]) ?_ fun _ _ _ => rfl
    simp [fullOf, comm, commFull, byWorker]
  | unknown req comm msg next =>
    subst next
    exact h.stay rfl rfl rfl (by simp [bareOf, comm, commBare, freeBare])
      (by simp [fullOf, comm, commFull, freeFull])
  | panic req comm msg read handled next =>
    subst next
    exact h.stay rfl rfl rfl (by simp [bareOf, comm, commBare]) (by simp [fullOf, comm, commFull])
  | handle req comm msg read channels answer handled next =>
    subst next
    refine h.stay rfl rfl rfl ?_ ?_
    · cases answer <;> simp [bareOf, comm, commBare, freeBare, allocBare]
    · cases answer <;> simp [fullOf, comm, commFull, freeFull]
  | alloc req c reply pc comm choice res mem alloc next =>
    subst next
    exact comm_alloc_kept h comm alloc
  | fill req c reply msg comm mem named payload filled next =>
    subst next
    exact comm_fill_kept h comm named
  | send req msg comm room next =>
    subst next
    have hfull : fullOf s .comm = msg ::ₘ {req} := by simp [fullOf, byWorker, comm, commFull]
    refine .of_held (h.sound.send .outgoing hfull) (update_outgoing _ _ _).symm
      (by simp [bareOf, comm, commBare, freeBare]) ?_ fun _ _ _ => rfl
    simp [fullOf, commFull, freeFull]
  | lost req msg comm full next => exact absurd (reply_room h comm) full
  | drop pc comm res mem free next =>
    subst next
    have hbare : bareOf s .comm = freeBare pc := by simp [bareOf, byWorker, comm, commBare]
    have hfull : fullOf s .comm = freeFull pc := by simp [fullOf, byWorker, comm, commFull]
    refine .of_held (h.sound.free hbare hfull free) rfl ?_ ?_
      fun m _ _ => by rw [freeStep_messages free]
    · rw [bareOf, bareOf, update_comm]
      cases res <;> rfl
    · rw [fullOf, fullOf, update_comm]
      cases res <;> rfl

end Steps

def workerOf : Label → Worker
  | .rx _ _ => .rx
  | .comm _ => .comm
  | .tx => .tx

section Runs

variable {libc : Libc F} {ser : Serializers n F} {queues : Queues b} {s s' : State n F}

/-- Every step of the system is a step of the exchange. -/
theorem step_kept (h : Inv b s) {l : Label} (hs : step libc ser queues l s = some s') :
    Kept b (workerOf l) s s' := by
  cases l with
  | rx buf choice => exact rx_kept h (rxStep_move libc ser queues hs)
  | comm choice => exact comm_kept h (commStep_move queues hs)
  | tx => exact tx_kept h (txStep_move hs)

theorem Inv.step (h : Inv b s) {l : Label} (hs : step libc ser queues l s = some s') :
    Inv b s' := by
  have hkept := step_kept h hs
  refine ⟨hkept.sound, fun req msg hrx => ?_⟩
  have hold (heq : s.rx = s'.rx) (hw : workerOf l ≠ .rx) :
      (s'.mem.messages msg).type = req.msgIdx := by
    have hfull : msg ∈ fullOf s .rx := by simp [fullOf, byWorker, heq, hrx, rxFull]
    rw [hkept.elsewhere h.separate (p := .full .rx) hfull (by simpa using hw.symm)]
    exact h.parsing req msg (heq.trans hrx)
  cases l with
  | rx buf choice =>
    obtain ⟨r, hm, rfl⟩ := rxStep_move libc ser queues hs
    cases hm with
    | alloc req' pc rx choice res mem alloc next =>
      subst next
      cases res with
      | done ret =>
        cases hrx
        exact allocStep_done alloc
      | going pc => cases hrx
      | null => cases hrx
    | rest rx same =>
      subst same
      rw [rx] at hrx
      cases hrx
    | parse req' msg' rx parsingFunc parser content written parsed mem parse next =>
      subst next
      cases parsed <;> cases hrx
    | free pc rx res mem free next =>
      subst next
      cases res <;> cases hrx
    | start rx req' next => subst next; cases hrx
    | sent msg' rx room next => subst next; cases hrx
    | full msg' rx next => subst next; cases hrx
  | comm choice =>
    refine hold ?_ (by simp [workerOf])
    cases commStep_move queues hs <;> simp_all
  | tx =>
    refine hold ?_ (by simp [workerOf])
    cases txStep_move hs <;> simp_all

theorem inv_initial [Zero F] (messages : ℕ → Message DataPtr) (plans : ℕ → SpinPlanData n F)
    (smalls : ℕ → SmallSizeMsgData F) : Inv b (initial b messages plans smalls) := by
  refine ⟨?_, fun req msg h => by cases h⟩
  have hpools : ∀ pool, ∀ d ∈ (initial b messages plans smalls).mem.dataPool pool,
      d.pool = pool := by
    intro pool d hd
    cases pool <;> simp only [initial, List.mem_map] at hd <;> obtain ⟨i, -, rfl⟩ := hd <;> rfl
  exact .initial (by rintro ⟨⟩ <;> rfl) (by rintro ⟨⟩ <;> rfl) (by rintro ⟨⟩ <;> rfl)
    ⟨hpools, fun m hm => absurd hm (Multiset.notMem_zero m)⟩

/-- Run lemma: whatever the workers do, in any order. -/
theorem Inv.runs [Zero F] {messages : ℕ → Message DataPtr} {plans : ℕ → SpinPlanData n F}
    {smalls : ℕ → SmallSizeMsgData F} {labels : List Label}
    (h : Runs.runs (SpinnerSystem.step libc ser queues) labels
      (initial b messages plans smalls) = some s) : Inv b s :=
  Runs.runs_invariant (Inv b) (fun _ _ _ hinv hs => hinv.step hs)
    (inv_initial messages plans smalls) h

end Runs

/-- Every block is in exactly one place, and a reply always finds room in its queue. -/
structure Conserved (queues : Queues b) (s : State n F) : Prop where
  onePlace : ∀ msg < b.msgStructPoolSize, ∃! p, msg ∈ messagesAt (holdings s) p
  once : ∀ p, (messagesAt (holdings s) p).Nodup
  noOther : ∀ p, ∀ msg ∈ messagesAt (holdings s) p, msg < b.msgStructPoolSize
  payload : ∀ d ∈ payloads b,
    (d ∈ s.mem.dataPool d.pool ∧ ∀ msg, Live (holdings s) msg → (s.mem.messages msg).data ≠ d) ∨
      ((∀ pool, d ∉ s.mem.dataPool pool) ∧
        ∃! msg, Live (holdings s) msg ∧ (s.mem.messages msg).data = d)
  ownPool : ∀ pool, (s.mem.dataPool pool).Nodup ∧
    ∀ d ∈ s.mem.dataPool pool, d.pool = pool ∧ d ∈ payloads b
  typed : ∀ msg, Live (holdings s) msg → (s.mem.messages msg).data ∈ payloads b ∧
    dataPoolOf (s.mem.messages msg).type = some (s.mem.messages msg).data.pool
  room : ∀ req msg, s.comm = .send req msg → s.outgoing.length < queues.outgoing

section Conservation

variable {queues : Queues b} {s : State n F}

theorem mem_freeDataOf_iff (mem : Memory n F) (d : DataPtr) :
    d ∈ freeDataOf mem ↔ ∃ pool, d ∈ mem.dataPool pool := by
  simp only [freeDataOf, Multiset.mem_add, Multiset.mem_coe]
  constructor
  · rintro (h | h)
    exacts [⟨_, h⟩, ⟨_, h⟩]
  · rintro ⟨_ | _, h⟩
    exacts [Or.inl h, Or.inr h]

theorem Inv.payload (h : Inv b s) {d : DataPtr} (hd : d ∈ payloads b) :
    (d ∈ s.mem.dataPool d.pool ∧ ∀ msg, Live (holdings s) msg → (s.mem.messages msg).data ≠ d) ∨
      ((∀ pool, d ∉ s.mem.dataPool pool) ∧
        ∃! msg, Live (holdings s) msg ∧ (s.mem.messages msg).data = d) := by
  simp only [← live_iff]
  rcases h.sound.conserves.payload_cases (payloads_nodup b) hd with ⟨hin, hno⟩ | ⟨hout, hone⟩
  · obtain ⟨pool, hpool⟩ := (mem_freeDataOf_iff s.mem d).mp hin
    rw [← h.sound.fine.pools pool d hpool] at hpool
    exact Or.inl ⟨hpool, hno⟩
  · exact Or.inr ⟨fun pool hpool => hout ((mem_freeDataOf_iff s.mem d).mpr ⟨pool, hpool⟩), hone⟩

theorem Inv.conserved (h : Inv b s) : Conserved queues s := by
  have hpay : freeDataOf s.mem + (holdings s).live.map (holdings s).data = payloads b :=
    h.sound.conserves.payloads
  refine ⟨fun _ hlt => h.sound.conserves.onePlace hlt, messagesAt_nodup h.separate,
    fun _ _ hp => h.sound.conserves.noOther hp, fun _ hd => h.payload hd, ?_, ?_,
    fun _ _ => reply_room h⟩
  · intro pool
    have hnodup : (freeDataOf s.mem).Nodup := by
      have := payloads_nodup b
      rw [← hpay] at this
      exact (Multiset.nodup_add.mp this).1
    refine ⟨?_, fun d hd => ⟨h.sound.fine.pools pool d hd, ?_⟩⟩
    · have hboth := Multiset.nodup_add.mp hnodup
      cases pool
      exacts [hboth.1, hboth.2.1]
    · rw [← hpay]
      exact Multiset.mem_add.mpr (Or.inl ((mem_freeDataOf_iff s.mem d).mpr ⟨pool, hd⟩))
  · intro msg hlive
    rw [← live_iff] at hlive
    refine ⟨?_, h.sound.fine.typed msg hlive⟩
    rw [← hpay]
    exact Multiset.mem_add.mpr (Or.inr (Multiset.mem_map_of_mem (holdings s).data hlive))

/-- In every reachable state, for any payloads, choices and interleaving. -/
theorem spinner_messages_conserved [Zero F] (b : Board) (libc : Libc F) (ser : Serializers n F)
    (queues : Queues b) (messages : ℕ → Message DataPtr) (plans : ℕ → SpinPlanData n F)
    (smalls : ℕ → SmallSizeMsgData F) (labels : List Label) (s : State n F)
    (h : Runs.runs (SpinnerSystem.step libc ser queues) labels
      (initial b messages plans smalls) = some s) : Conserved queues s :=
  (Inv.runs h).conserved

/-- A GET_STATE, its reply and both releases. -/
def stateExchange : List Label :=
  let buf := ascii "7,SPINNER,GET_STATE,0" ++ [0]
  [.rx buf 0, .rx [] 3, .rx [] 2, .rx [] 0, .rx [] 0, .comm 0, .comm 0, .comm 9, .comm 0,
    .comm 0, .comm 0, .comm 0, .comm 0, .tx, .tx, .tx, .tx]

def noText : Serializers 20 ℕ :=
  ⟨fun _ _ _ => ([], -1), fun _ _ _ => ([], -1), fun _ _ _ => ([], -1)⟩

def minimalQueues : Queues .stm32f072discovery := ⟨9, 9, by decide, by decide⟩

def zeroed : State 20 ℕ :=
  initial .stm32f072discovery (fun _ => ⟨0, 0, ⟨.smalls, 0⟩⟩)
    (fun _ => ⟨0, 0, Vector.replicate 20 ⟨0, 0⟩⟩) (fun _ => ⟨0, 0, 0, 0, 0⟩)

theorem conserved_after_exchange : ∃ s : State 20 ℕ,
    Runs.runs (SpinnerSystem.step wholeNumbers noText minimalQueues) stateExchange zeroed =
      some s ∧ Conserved minimalQueues s := by
  obtain ⟨s, hs⟩ := Option.isSome_iff_exists.mp (show (Runs.runs
    (SpinnerSystem.step wholeNumbers noText minimalQueues) stateExchange zeroed).isSome
    by decide +kernel)
  exact ⟨s, hs, spinner_messages_conserved _ _ _ _ _ _ _ stateExchange s hs⟩

end Conservation

end Ratfist.SpinnerConservation
