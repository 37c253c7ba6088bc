import Ratfist.MeteoSystem
import Ratfist.Exchange

/-!
The blocks of the meteo subsystem are conserved. The three workers are an exchange of
message blocks with payloads of one pool: every step of the system takes, gives back,
attaches, detaches or passes on at most one block. A payload leaves its pool after its
message and comes back before it, so that a message block finds a payload.
-/
namespace Ratfist.MeteoConservation

open CString Subsystem Ledger Exchange Serializers MeteoPools MeteoSystem
open ReceiveWorker (AllocResult rxAfterAlloc resultBare resultFull rxBare rxFull)

variable {F : Type}

/-! What each position holds: bare blocks, and blocks with a payload. -/

/-- A rollback holds its block bare as well; no run comes to one. -/
def allocBare : AllocPc → Multiset ℕ
  | .takeMsg => 0
  | .takeData m => {m}
  | .rollback _ => 0

def freeBare : FreePc → Multiset ℕ
  | .enter _ | .giveData _ => 0
  | .giveMsg msg => {msg}

def freeFull : FreePc → Multiset ℕ
  | .enter none | .giveMsg _ => 0
  | .enter (some msg) | .giveData msg => {msg}

def commBare : CommPc F → Multiset ℕ
  | .alloc _ _ _ pc => allocBare pc
  | .recover _ pc | .drop pc => freeBare pc
  | .idle | .wrap _ | .measure _ | .fill _ _ _ _ | .send _ _ | .sendErr _ _ => 0

def commFull : CommPc F → Multiset ℕ
  | .wrap req | .measure req | .alloc req _ _ _ | .sendErr (some req) _ => {req}
  | .fill req _ _ msg | .send req msg => msg ::ₘ {req}
  | .recover req pc => freeFull pc + {req}
  | .drop pc => freeFull pc
  | .idle | .sendErr none _ => 0

def txBare : TxPc → Multiset ℕ
  | .free pc => freeBare pc
  | .idle | .messages | .send _ => 0

def txFull : TxPc → Multiset ℕ
  | .send msg => {msg}
  | .free pc => freeFull pc
  | .idle | .messages => 0

def bareOf (s : State F) : Worker → Multiset ℕ :=
  byWorker (rxBare allocBare freeBare s.rx) (commBare s.comm) (txBare s.tx)

def fullOf (s : State F) : Worker → Multiset ℕ :=
  byWorker (rxFull freeFull s.rx) (commFull s.comm) (txFull s.tx)

def held (mem : Memory F) (queue : Queue → List ℕ) (bare full : Worker → Multiset ℕ) :
    Holdings Worker Queue ℕ ℕ :=
  Exchange.held mem.msgPool mem.payloadPool (fun m => (mem.messages m).data.getD 0) queue bare full

def holdings (s : State F) : Holdings Worker Queue ℕ ℕ :=
  held s.mem (byQueue s.incoming s.outgoing) (bareOf s) (fullOf s)

@[simp] theorem holdings_bare (s : State F) (w : Worker) :
    (holdings s).place (.bare w) = bareOf s w := rfl

@[simp] theorem holdings_full (s : State F) (w : Worker) :
    (holdings s).place (.live (.full w)) = fullOf s w := rfl

def block (mem : Memory F) (msg : ℕ) : Message (Option ℕ) × Option (MessagePayload F) :=
  (mem.messages msg, (mem.messages msg).data.map mem.payloads)

/-- What is live can be released. -/
def Typed (messages : ℕ → Message (Option ℕ)) (live : Multiset ℕ) : Prop :=
  ∀ m ∈ live, (messages m).type ∈ messageTypes ∧ (messages m).data ≠ none

abbrev Sound (mem : Memory F) (queue : Queue → List ℕ) (bare full : Worker → Multiset ℕ) :
    Prop :=
  Exchange.Sound (Multiset.range poolSize) (Multiset.range poolSize) (Typed mem.messages)
    (held mem queue bare full)

variable {mem mem' : Memory F} {queue queue' : Queue → List ℕ}
  {bare bare' full full' : Worker → Multiset ℕ} {w : Worker}

theorem Sound.notMem_live (h : Sound mem queue bare full) {m : ℕ} (hm : m ∈ bare w) :
    m ∉ (held mem queue bare full).live :=
  notMem_live_of_bare (h.separate (Multiset.nodup_range _)) (w := w) hm

/-- The payload of a live message. -/
theorem Sound.attached (h : Sound mem queue bare full) {m : ℕ}
    (hm : m ∈ (held mem queue bare full).live) :
    (mem.messages m).data = some ((held mem queue bare full).data m) := by
  obtain ⟨data, hdata⟩ := Option.ne_none_iff_exists'.mp (h.fine m hm).2
  simp [held, Exchange.held, hdata]

/-- Live messages do not share a payload. -/
theorem Sound.data_inj (h : Sound mem queue bare full) {m m' : ℕ}
    (hm : m ∈ (held mem queue bare full).live) (hm' : m' ∈ (held mem queue bare full).live)
    (heq : (mem.messages m).data = (mem.messages m').data) : m = m' := by
  rw [h.attached hm, h.attached hm', Option.some.injEq] at heq
  exact h.conserves.data_inj (Multiset.nodup_range _) hm hm' heq

/-- A bare block gets a payload, and both are zeroed. -/
theorem Sound.attach [Zero F] (h : Sound mem queue bare full) {msgTypeId m data : ℕ}
    (hbare : bare w = {m}) (hdata : data ∈ mem.payloadPool) (hknown : msgTypeId ∈ messageTypes) :
    Step (held mem queue bare full) (held ({ mem with
        payloadPool := mem.payloadPool.erase data }.initBlocks msgTypeId m data) queue
        (Function.update bare w 0) (Function.update full w (m ::ₘ full w))) ∧
      Sound ({ mem with payloadPool := mem.payloadPool.erase data }.initBlocks msgTypeId m data)
        queue (Function.update bare w 0) (Function.update full w (m ::ₘ full w)) := by
  have hmove := move_attach mem.msgPool queue full hbare
  have hnot := h.notMem_live (m := m) (w := w) (by simp [hbare])
  have hother (x : ℕ) (hx : x ∈ (held mem queue bare full).live) :
      Function.update mem.messages m ⟨msgTypeId, 0, some data⟩ x = mem.messages x :=
    Function.update_of_ne (fun heq => hnot (by rwa [← heq])) _ _
  have hs : Step (held mem queue bare full) (held ({ mem with
      payloadPool := mem.payloadPool.erase data }.initBlocks msgTypeId m data) queue
      (Function.update bare w 0) (Function.update full w (m ::ₘ full w))) := by
    refine .attach m w hmove ?_ fun x hx => ?_
    · simp only [held, Exchange.held, Memory.initBlocks, Memory.setPayload, Memory.setMessage,
        Function.update_self, Option.getD_some]
      exact Multiset.coe_eq_coe.mpr (List.perm_cons_erase hdata)
    · simp only [held, Exchange.held, Memory.initBlocks, Memory.setPayload, Memory.setMessage]
      rw [hother x hx]
  refine ⟨hs, h.conserves.step hs, fun x hx => ?_⟩
  rw [live_of_attach (e := held mem queue bare full) hmove (by simp)] at hx
  simp only [Memory.initBlocks, Memory.setPayload, Memory.setMessage]
  rcases Multiset.mem_cons.mp hx with rfl | hx
  · rw [Function.update_self]
    exact ⟨hknown, by simp⟩
  · rw [hother x hx]
    exact h.fine x hx

/-- A message gives its payload back and stays with the worker. -/
theorem Sound.detach (h : Sound mem queue bare full) {m : ℕ} {rest : Multiset ℕ}
    (hbare : bare w = 0) (hfull : full w = m ::ₘ rest) :
    Step (held mem queue bare full) (held { mem with
        payloadPool := (mem.messages m).data.toList ++ mem.payloadPool } queue
        (Function.update bare w {m}) (Function.update full w rest)) ∧
      Sound { mem with payloadPool := (mem.messages m).data.toList ++ mem.payloadPool } queue
        (Function.update bare w {m}) (Function.update full w rest) := by
  have hmove := move_detach mem.msgPool queue hbare hfull
  have hlive : (held mem queue bare full).live = m ::ₘ (held { mem with
      payloadPool := (mem.messages m).data.toList ++ mem.payloadPool } queue
      (Function.update bare w {m}) (Function.update full w rest)).live :=
    live_of_detach hmove (by simp)
  have hm : m ∈ (held mem queue bare full).live := by
    rw [hlive]
    exact Multiset.mem_cons_self _ _
  have hs : Step (held mem queue bare full) (held { mem with
      payloadPool := (mem.messages m).data.toList ++ mem.payloadPool } queue
      (Function.update bare w {m}) (Function.update full w rest)) := by
    obtain ⟨data, hdata⟩ := Option.ne_none_iff_exists'.mp (h.fine m hm).2
    refine .detach m w hmove ?_ fun _ _ => rfl
    simp only [held, Exchange.held, hdata, Option.getD_some]
    rfl
  refine ⟨hs, h.conserves.step hs, fun x hx => h.fine x ?_⟩
  rw [hlive]
  exact Multiset.mem_cons_of_mem hx

/-- The content of the block `msg` is changed, but not its data pointer. -/
structure Writes (msg : ℕ) (mem mem' : Memory F) : Prop where
  msgPool : mem'.msgPool = mem.msgPool
  payloadPool : mem'.payloadPool = mem.payloadPool
  data : (mem'.messages msg).data = (mem.messages msg).data
  messages : ∀ m, m ≠ msg → mem'.messages m = mem.messages m
  payloads : ∀ data, (mem.messages msg).data ≠ some data → mem'.payloads data = mem.payloads data

theorem Sound.write_block (h : Sound mem queue bare full) {msg : ℕ} (hw : Writes msg mem mem')
    (htype : (mem'.messages msg).type ∈ messageTypes) :
    Step (held mem queue bare full) (held mem' queue bare full) ∧
      Sound mem' queue bare full := by
  have hdata (m : ℕ) : (mem'.messages m).data = (mem.messages m).data := by
    by_cases heq : m = msg
    · rw [heq, hw.data]
    · rw [hw.messages m heq]
  have hwrite := h.write (fun m => (mem'.messages m).data.getD 0) (Typed mem'.messages)
    (fun m _ => by rw [hdata]) fun m hm => by
      rw [hdata]
      by_cases heq : m = msg
      · rw [heq] at hm ⊢
        exact ⟨htype, (h.fine msg hm).2⟩
      · rw [hw.messages m heq]
        exact h.fine m hm
  have heq : held mem' queue bare full = Exchange.held mem.msgPool mem.payloadPool
      (fun m => (mem'.messages m).data.getD 0) queue bare full := by
    rw [held, hw.msgPool, hw.payloadPool]
  rwa [Sound, heq]

/-- The other live messages keep their content. -/
theorem Sound.write_others (h : Sound mem queue bare full) {msg m : ℕ} (hw : Writes msg mem mem')
    (hmsg : msg ∈ (held mem queue bare full).live) (hm : m ∈ (held mem queue bare full).live)
    (hne : m ≠ msg) : block mem' m = block mem m := by
  unfold block
  rw [hw.messages m hne, h.attached hm, Option.map_some, Option.map_some]
  rw [hw.payloads]
  intro heq
  rw [← h.attached hm] at heq
  exact hne (h.data_inj hmsg hm heq).symm

/-- The positions that runs come to. -/
def Regular (msgTypeId : ℕ) : AllocPc → Prop
  | .takeMsg => True
  | .takeData _ => msgTypeId ∈ messageTypes
  | .rollback _ => False

def RegularResult (msgTypeId : ℕ) : AllocResult AllocPc → Prop
  | .going pc => Regular msgTypeId pc
  | .null | .done _ => True

/-- There is a payload for every message block that has been taken. -/
theorem Sound.payload_left (h : Sound mem queue bare full) {m : ℕ} (hbare : bare w = {m}) :
    mem.payloadPool ≠ [] := by
  intro hempty
  have hle := h.conserves.payloads_left rfl w
  simp [held, Exchange.held, places, hbare, hempty] at hle

/-- One pool operation of an allocation is a step of the exchange, and sound. -/
theorem Sound.alloc [Zero F] (h : Sound mem queue bare full) {msgTypeId : ℕ} {pc : AllocPc}
    {res : AllocResult AllocPc} (hbare : bare w = allocBare pc) (hpc : Regular msgTypeId pc)
    (hstep : AllocMove msgTypeId mem mem' pc res) :
    Step (held mem queue bare full)
        (held mem' queue (Function.update bare w (resultBare allocBare res))
          (Function.update full w (resultFull res + full w))) ∧
      Sound mem' queue (Function.update bare w (resultBare allocBare res))
        (Function.update full w (resultFull res + full w)) := by
  cases hstep with
  | refused same =>
    subst same
    have hsame : Function.update bare w (resultBare allocBare .null) = bare :=
      Function.update_eq_self_iff.mpr hbare.symm
    simp only [hsame, resultFull, zero_add, Function.update_eq_self]
    exact ⟨.stay rfl rfl fun _ _ => rfl, h⟩
  | takeMsg m free known next =>
    subst next
    simp only [resultBare, allocBare, resultFull, zero_add, Function.update_eq_self]
    exact h.take free hbare
  | noData m empty same => exact absurd empty (h.payload_left hbare)
  | takeData m data free next =>
    subst next
    simp only [resultBare, resultFull, Multiset.singleton_add]
    exact h.attach hbare free hpc
  | rollback pc res free => exact hpc.elim

theorem Sound.alloc_regular [Zero F] (h : Sound mem queue bare full) {msgTypeId : ℕ} {pc : AllocPc}
    {res : AllocResult AllocPc} (hbare : bare w = allocBare pc) (hpc : Regular msgTypeId pc)
    (hstep : AllocMove msgTypeId mem mem' pc res) : RegularResult msgTypeId res := by
  cases hstep with
  | refused same => trivial
  | takeMsg m free known next => exact known
  | noData m empty same => exact absurd empty (h.payload_left hbare)
  | takeData m data free next => trivial
  | rollback pc res free => exact hpc.elim

/-- An allocation writes to no block that is live already. -/
theorem Sound.alloc_block [Zero F] (h : Sound mem queue bare full) {msgTypeId : ℕ} {pc : AllocPc}
    {res : AllocResult AllocPc} (hbare : bare w = allocBare pc) (hpc : Regular msgTypeId pc)
    (hstep : AllocMove msgTypeId mem mem' pc res) {m : ℕ}
    (hm : m ∈ (held mem queue bare full).live) : block mem' m = block mem m := by
  cases hstep with
  | refused same => rw [same]
  | takeMsg m free known next => rw [next]; rfl
  | noData m empty same => rw [same]
  | takeData ret data free next =>
    have hret : m ≠ ret := by
      rintro rfl
      exact h.notMem_live (w := w) (by simp [hbare, allocBare]) hm
    have hdata : (held mem queue bare full).data m ≠ data := by
      rintro rfl
      exact h.conserves.data_notMem (Multiset.nodup_range _) hm free
    rw [next]
    simp only [block, Memory.initBlocks, Memory.setPayload, Memory.setMessage]
    rw [Function.update_of_ne hret, h.attached hm, Option.map_some, Option.map_some,
      Function.update_of_ne hdata]
  | rollback pc res free => exact hpc.elim

/-- One pool operation of a release is a step of the exchange, and sound. -/
theorem Sound.free (h : Sound mem queue bare full) {pc : FreePc} {res : Option FreePc}
    {rest : Multiset ℕ} (hbare : bare w = freeBare pc) (hfull : full w = freeFull pc + rest)
    (hstep : FreeMove mem mem' pc res) :
    Step (held mem queue bare full) (held mem' queue
        (Function.update bare w (res.elim 0 freeBare))
        (Function.update full w (res.elim 0 freeFull + rest))) ∧
      Sound mem' queue (Function.update bare w (res.elim 0 freeBare))
        (Function.update full w (res.elim 0 freeFull + rest)) := by
  have hlive {msg : ℕ} (hpc : msg ∈ freeFull pc) : msg ∈ (held mem queue bare full).live :=
    mem_live_full (w := w) (by rw [hfull]; exact Multiset.mem_add.mpr (Or.inl hpc))
  cases hstep with
  | null same =>
    subst same
    have hbare' : Function.update bare w 0 = bare :=
      Function.update_eq_self_iff.mpr hbare.symm
    have hfull' : Function.update full w (0 + rest) = full :=
      Function.update_eq_self_iff.mpr hfull.symm
    simp only [Option.elim_none, hbare', hfull']
    exact ⟨.stay rfl rfl fun _ _ => rfl, h⟩
  | unknown msg type same =>
    exact absurd (h.fine msg (hlive (by simp [freeFull]))).1 type
  | noData msg data same =>
    exact absurd data (h.fine msg (hlive (by simp [freeFull]))).2
  | enter msg data attached same =>
    subst same
    have hbare' : Function.update bare w (freeBare (.giveData msg)) = bare :=
      Function.update_eq_self_iff.mpr hbare.symm
    have hfull' : Function.update full w (freeFull (.giveData msg) + rest) = full :=
      Function.update_eq_self_iff.mpr hfull.symm
    simp only [Option.elim_some, hbare', hfull']
    exact ⟨.stay rfl rfl fun _ _ => rfl, h⟩
  | giveData msg next =>
    subst next
    simp only [Option.elim_some, freeBare, freeFull, zero_add]
    exact h.detach hbare hfull
  | giveMsg msg next =>
    subst next
    have hfull' : Function.update full w (0 + rest) = full :=
      Function.update_eq_self_iff.mpr hfull.symm
    simp only [Option.elim_none, hfull']
    exact h.give hbare

/-! Who writes to blocks in use. -/

theorem parser_request {fmt : Formatting F} {msgIdx : ℕ}
    {parsingFunc : Message (Option ℕ) → Option (List Byte) → Memory F → Bool × Memory F}
    (hp : ((msgHandlers fmt)[msgIdx]?).bind MessageHandler.parsingFunc = some parsingFunc) :
    msgIdx ∈ requestTypes ∧ parsingFunc = singleChannelNumParse := by
  rcases msgIdx with _ | _ | _ | _ | _ | _ | _ | _ | msgIdx <;> simp [msgHandlers] at hp
  all_goals exact ⟨by decide, hp.symm⟩

theorem writes_message {msg : ℕ} {content : Message (Option ℕ)}
    (hdata : content.data = (mem.messages msg).data) :
    Writes msg mem (mem.setMessage msg content) where
  msgPool := rfl
  payloadPool := rfl
  data := by simp [Memory.setMessage, hdata]
  messages m hm := Function.update_of_ne hm _ _
  payloads _ _ := rfl

theorem writes_payload {msg data : ℕ} {payload : MessagePayload F}
    (hdata : (mem.messages msg).data = some data) :
    Writes msg mem (mem.setPayload data payload) where
  msgPool := rfl
  payloadPool := rfl
  data := rfl
  messages _ _ := rfl
  payloads other hother := by
    refine Function.update_of_ne (fun heq => hother ?_) _ _
    rw [hdata, heq]

theorem Writes.trans {msg : ℕ} {mem'' : Memory F} (h : Writes msg mem mem')
    (h' : Writes msg mem' mem'') : Writes msg mem mem'' where
  msgPool := h'.msgPool.trans h.msgPool
  payloadPool := h'.payloadPool.trans h.payloadPool
  data := h'.data.trans h.data
  messages m hm := (h'.messages m hm).trans (h.messages m hm)
  payloads data hdata := (h'.payloads data (by rwa [h.data])).trans (h.payloads data hdata)

theorem parse_writes {msg : ℕ} {content : Message (Option ℕ)} (savePtr : Option (List Byte))
    (hdata : content.data = (mem.messages msg).data) :
    Writes msg mem (singleChannelNumParse content savePtr (mem.setMessage msg content)).2 ∧
      (singleChannelNumParse content savePtr (mem.setMessage msg content)).2.messages msg =
        content := by
  have hself : (mem.setMessage msg content).messages msg = content := Function.update_self _ _ _
  have hplain : Writes msg mem (mem.setMessage msg content) := writes_message hdata
  unfold singleChannelNumParse
  split
  next data text hcontent =>
    cases parseU32 (cstr text) with
    | none => exact ⟨hplain, hself⟩
    | some ch => exact ⟨hplain.trans (writes_payload (by rw [hself, hcontent])), hself⟩
  next => exact ⟨hplain, hself⟩

theorem fill_writes {msg data : ℕ} (req : ℕ) (value : F)
    (hdata : (mem.messages msg).data = some data) :
    Writes msg mem (fillReply mem req msg data value) := by
  have hplain : Writes msg mem (mem.setMessage msg { mem.messages msg with
      transactionId := (mem.messages req).transactionId }) := writes_message rfl
  exact hplain.trans (writes_payload (hplain.data.trans hdata))

/-! What is to be wrapped has the right type, and no worker is in a rollback. -/

def RxFit (mem : Memory F) : RxPc → Prop
  | .alloc req pc => Regular req.msgIdx pc
  | .send msg => (mem.messages msg).type ∈ requestTypes
  | .idle | .parse _ _ | .free _ => True

def CommFit (mem : Memory F) : CommPc F → Prop
  | .wrap req => (mem.messages req).type ∈ requestTypes
  | .alloc _ replyType _ pc => Regular replyType pc
  | .fill _ replyType _ msg => (mem.messages msg).type = replyType
  | .idle | .measure _ | .send _ _ | .recover _ _ | .sendErr _ _ | .drop _ => True

structure Inv (s : State F) : Prop where
  sound : Sound s.mem (byQueue s.incoming s.outgoing) (bareOf s) (fullOf s)
  rx : RxFit s.mem s.rx
  comm : CommFit s.mem s.comm
  requests : ∀ msg ∈ s.incoming, (s.mem.messages msg).type ∈ requestTypes

abbrev Kept (w : Worker) (s s' : State F) : Prop :=
  Exchange.Kept (Multiset.range poolSize) (Multiset.range poolSize) (Typed s'.mem.messages) w
    (holdings s) (holdings s') (block s.mem) (block s'.mem)

section Steps

variable {fmt : Formatting F} {queues : Queues} {s s' : State F}

theorem Inv.separate (h : Inv s) : Separate (holdings s).place :=
  h.sound.separate (Multiset.nodup_range _)

/-- A step that changes neither the memory nor what is held where. -/
theorem Inv.stay (h : Inv s) (hmem : s'.mem = s.mem) (hin : s'.incoming = s.incoming)
    (hout : s'.outgoing = s.outgoing) (hbare : bareOf s' = bareOf s)
    (hfull : fullOf s' = fullOf s) : Kept w s s' := by
  have hsame : holdings s' = holdings s := by
    simp only [holdings, hmem, hin, hout, hbare, hfull]
  rw [Kept, hsame, hmem]
  exact h.sound.stays

theorem free_block {pc : FreePc} {res : Option FreePc} (h : FreeMove mem mem' pc res) (m : ℕ) :
    block mem' m = block mem m := by
  cases h
  all_goals subst mem'; rfl

theorem rx_kept [Zero F] (h : Inv s) (hm : RxMove fmt queues s s') : Kept .rx s s' := by
  obtain ⟨r, hm, rfl⟩ := hm
  cases hm with
  | rest rx same =>
    subst same
    exact h.stay rfl rfl rfl rfl rfl
  | start rx req next =>
    subst next
    exact h.stay rfl rfl rfl (by simp [bareOf, rx, rxBare, allocBare])
      (by simp [fullOf, rx, rxFull])
  | alloc req pc rx choice res mem step next =>
    subst next
    have alloc := allocStep_move step
    have hbare : bareOf s .rx = allocBare pc := by simp [bareOf, byWorker, rx, rxBare]
    have hpc : Regular req.msgIdx pc := by simpa only [rx, RxFit] using h.rx
    refine .of_held (h.sound.alloc hbare hpc alloc) rfl ?_ ?_
      fun m hm _ => h.sound.alloc_block hbare hpc alloc hm
    · rw [bareOf, bareOf, update_rx]
      cases res <;> rfl
    · rw [fullOf, fullOf, update_rx]
      cases res <;> simp [rxAfterAlloc, rx, rxFull, resultFull, byWorker]
  | parse req msg rx parsingFunc parser content written parsed mem parse next =>
    subst next
    obtain ⟨htype, rfl⟩ := parser_request parser
    have hdata : content.data = (s.mem.messages msg).data := by rw [written]; rfl
    obtain ⟨hwrites, hself⟩ := parse_writes req.savePtr hdata
    rw [pools_setMessage] at parse
    rw [parse] at hwrites hself
    have hfull : fullOf s .rx = {msg} := by simp [fullOf, byWorker, rx, rxFull]
    have hmsg : msg ∈ (holdings s).live := mem_live_full (w := .rx) (by simp [hfull])
    have hknown : (mem.messages msg).type ∈ messageTypes := by
      rw [hself, written]
      exact List.mem_append_left _ htype
    refine .of_held (h.sound.write_block hwrites hknown) rfl ?_ ?_ fun m hm hnot => ?_
    · cases parsed <;> simp [bareOf, rx, rxBare, freeBare]
    · cases parsed <;> simp [fullOf, rx, rxFull, freeFull]
    · exact h.sound.write_others hwrites hmsg hm (by simpa [hfull] using hnot)
  | sent msg rx room next =>
    subst next
    have hfull : fullOf s .rx = msg ::ₘ 0 := by simp [fullOf, byWorker, rx, rxFull]
    refine .of_held (h.sound.send .incoming hfull) (update_incoming _ _ _).symm
      (by simp [bareOf, rx, rxBare]) ?_ fun _ _ _ => rfl
    simp [fullOf, rxFull]
  | full msg rx next =>
    subst next
    exact h.stay rfl rfl rfl (by simp [bareOf, rx, rxBare, freeBare])
      (by simp [fullOf, rx, rxFull, freeFull])
  | free pc rx res mem step next =>
    subst next
    have free := freeStep_move (Option.some.inj step)
    have hbare : bareOf s .rx = freeBare pc := by simp [bareOf, byWorker, rx, rxBare]
    have hfull : fullOf s .rx = freeFull pc + 0 := by simp [fullOf, byWorker, rx, rxFull]
    refine .of_held (h.sound.free hbare hfull free) rfl ?_ ?_ fun m _ _ => free_block free m
    · rw [bareOf, bareOf, update_rx]
      cases res <;> rfl
    · rw [fullOf, fullOf, update_rx, add_zero]
      cases res <;> rfl

theorem tx_kept (h : Inv s) (hm : TxMove s s') : Kept .tx s s' := by
  cases hm with
  | noErrors tx next =>
    subst next
    exact h.stay rfl rfl rfl (by simp [bareOf, tx, txBare]) (by simp [fullOf, tx, txFull])
  | error tx code rest queued next =>
    subst next
    exact h.stay rfl rfl rfl rfl rfl
  | rest tx next =>
    subst next
    exact h.stay rfl rfl rfl (by simp [bareOf, tx, txBare]) (by simp [fullOf, tx, txFull])
  | receive tx msg rest queued next =>
    subst next
    refine .of_held (h.sound.receive .tx .outgoing queued) (update_outgoing _ _ _).symm
      (by simp [bareOf, tx, txBare]) ?_ fun _ _ _ => rfl
    simp [fullOf, tx, txFull, byWorker]
  | send msg tx next =>
    subst next
    exact h.stay rfl rfl rfl (by simp [bareOf, tx, txBare, freeBare])
      (by simp [fullOf, tx, txFull, freeFull])
  | free pc tx res mem free next =>
    subst next
    have hbare : bareOf s .tx = freeBare pc := by simp [bareOf, byWorker, tx, txBare]
    have hfull : fullOf s .tx = freeFull pc + 0 := by simp [fullOf, byWorker, tx, txFull]
    refine .of_held (h.sound.free hbare hfull free) rfl ?_ ?_ fun m _ _ => free_block free m
    · rw [bareOf, bareOf, update_tx]
      cases res <;> rfl
    · rw [fullOf, fullOf, update_tx, add_zero]
      cases res <;> rfl

/-- A request that is being wrapped can be wrapped. -/
theorem Inv.wraps (h : Inv s) {req : ℕ} (hcomm : s.comm = .wrap req) :
    ¬ ((s.mem.messages req).data = none ∨ (s.mem.messages req).type ∉ requestTypes) := by
  have hlive : req ∈ (holdings s).live :=
    mem_live_full (w := .comm) (by simp [fullOf, byWorker, hcomm, commFull])
  rintro (hdata | htype)
  · exact (h.sound.fine req hlive).2 hdata
  · exact htype (by simpa only [hcomm, CommFit] using h.comm)

/-- A reply that has been allocated can be wrapped. -/
theorem Inv.fits (h : Inv s) {req replyType msg : ℕ} {value : F}
    (hcomm : s.comm = .fill req replyType value msg) :
    ¬ ((s.mem.messages msg).data = none ∨ (s.mem.messages msg).type ≠ replyType) := by
  have hlive : msg ∈ (holdings s).live :=
    mem_live_full (w := .comm) (by simp [fullOf, byWorker, hcomm, commFull])
  rintro (hdata | htype)
  · exact (h.sound.fine msg hlive).2 hdata
  · exact htype (by simpa only [hcomm, CommFit] using h.comm)

theorem comm_alloc_kept [Zero F] (h : Inv s) {req replyType : ℕ} {value : F} {pc : AllocPc}
    {res : AllocResult AllocPc} {mem : Memory F} (hcomm : s.comm = .alloc req replyType value pc)
    (halloc : AllocMove replyType s.mem mem pc res) :
    Kept .comm s { s with mem := mem, comm := commAfterAlloc req replyType value res } := by
  have hbare : bareOf s .comm = allocBare pc := by simp [bareOf, byWorker, hcomm, commBare]
  have hpc : Regular replyType pc := by simpa only [hcomm, CommFit] using h.comm
  refine .of_held (h.sound.alloc hbare hpc halloc) rfl ?_ ?_
    fun m hm _ => h.sound.alloc_block hbare hpc halloc hm
  · rw [bareOf, bareOf, update_comm]
    cases res <;> rfl
  · rw [fullOf, fullOf, update_comm]
    cases res <;> simp [commAfterAlloc, hcomm, commFull, resultFull, byWorker]

theorem comm_fill_kept (h : Inv s) {req replyType msg data : ℕ} {value : F}
    (hcomm : s.comm = .fill req replyType value msg)
    (hattached : (s.mem.messages msg).data = some data) :
    Kept .comm s { s with
      mem := fillReply s.mem req msg data value, comm := .send req msg } := by
  have hwrites := fill_writes req value hattached
  have hfull : fullOf s .comm = msg ::ₘ {req} := by simp [fullOf, byWorker, hcomm, commFull]
  have hmsg : msg ∈ (holdings s).live := mem_live_full (w := .comm) (by simp [hfull])
  have htype : ((fillReply s.mem req msg data value).messages msg).type ∈ messageTypes := by
    simpa [fillReply, Memory.setPayload, Memory.setMessage] using (h.sound.fine msg hmsg).1
  refine .of_held (h.sound.write_block hwrites htype) rfl (by simp [bareOf, hcomm, commBare])
    (by simp [fullOf, hcomm, commFull]) fun m hm hnot => ?_
  refine h.sound.write_others hwrites hmsg hm fun heq => hnot ?_
  simp [hfull, heq]

theorem comm_kept [Zero F] (h : Inv s) (hm : CommMove queues s s') : Kept .comm s s' := by
  cases hm with
  | rest comm empty same =>
    subst same
    exact h.stay rfl rfl rfl rfl rfl
  | receive comm req rest queued next =>
    subst next
    refine .of_held (h.sound.receive .comm .incoming queued) (update_incoming _ _ _).symm
      (by simp [bareOf, comm, commBare]) ?_ fun _ _ _ => rfl
    simp [fullOf, comm, commFull, byWorker]
  | wrap req comm next =>
    subst next
    exact h.stay rfl rfl rfl (by simp [bareOf, comm, commBare]) (by simp [fullOf, comm, commFull])
  | invalid req comm wrong next => exact absurd wrong (h.wraps comm)
  | measure req comm measured next =>
    subst next
    rcases answer (s.mem.messages req).type measured with err | ⟨replyType, value⟩
    · exact h.stay rfl rfl rfl (by simp [bareOf, comm, commBare, commAfterMeasure])
        (by simp [fullOf, comm, commFull, commAfterMeasure])
    · exact h.stay rfl rfl rfl (by simp [bareOf, comm, commBare, commAfterMeasure, allocBare])
        (by simp [fullOf, comm, commFull, commAfterMeasure])
  | alloc req replyType value pc comm res mem alloc next =>
    subst next
    exact comm_alloc_kept h comm alloc
  | fill req replyType value msg data comm attached next =>
    subst next
    exact comm_fill_kept h comm attached
  | unfit req replyType value msg comm wrong next => exact absurd wrong (h.fits comm)
  | send req msg comm next =>
    subst next
    have hfull : fullOf s .comm = msg ::ₘ {req} := by simp [fullOf, byWorker, comm, commFull]
    refine .of_held (h.sound.send .outgoing hfull) (update_outgoing _ _ _).symm
      (by simp [bareOf, comm, commBare, freeBare]) ?_ fun _ _ _ => rfl
    simp [fullOf, commFull, freeFull]
  | full req msg comm next =>
    subst next
    exact h.stay rfl rfl rfl (by simp [bareOf, comm, commBare, freeBare])
      (by simp [fullOf, comm, commFull, freeFull])
  | recover req pc comm res mem free next =>
    subst next
    have hbare : bareOf s .comm = freeBare pc := by simp [bareOf, byWorker, comm, commBare]
    have hfull : fullOf s .comm = freeFull pc + {req} := by
      simp [fullOf, byWorker, comm, commFull]
    refine .of_held (h.sound.free hbare hfull free) rfl ?_ ?_ fun m _ _ => free_block free m
    · rw [bareOf, bareOf, update_comm]
      cases res <;> rfl
    · rw [fullOf, fullOf, update_comm]
      cases res <;> rfl
  | sendErr req err comm next =>
    subst next
    cases req with
    | none =>
      exact h.stay rfl rfl rfl (by simp [bareOf, comm, commBare]) (by simp [fullOf, comm, commFull])
    | some req =>
      exact h.stay rfl rfl rfl (by simp [bareOf, comm, commBare, freeBare])
        (by simp [fullOf, comm, commFull, freeFull])
  | drop pc comm res mem free next =>
    subst next
    have hbare : bareOf s .comm = freeBare pc := by simp [bareOf, byWorker, comm, commBare]
    have hfull : fullOf s .comm = freeFull pc + 0 := by simp [fullOf, byWorker, comm, commFull]
    refine .of_held (h.sound.free hbare hfull free) rfl ?_ ?_ fun m _ _ => free_block free m
    · rw [bareOf, bareOf, update_comm]
      cases res <;> rfl
    · rw [fullOf, fullOf, update_comm, add_zero]
      cases res <;> rfl

end Steps

def workerOf : Label F → Worker
  | .rx _ _ => .rx
  | .comm _ _ => .comm
  | .tx => .tx

section Runs

variable {nullAtEnd : Bool} {fmt : Formatting F} {queues : Queues}
  {s s' : State F}

/-- Every step of the system is a step of the exchange. -/
theorem step_kept [Zero F] (h : Inv s) {l : Label F}
    (hs : step nullAtEnd fmt queues l s = some s') :
    Kept (workerOf l) s s' := by
  cases l with
  | rx buf choice => exact rx_kept h (rxStep_move nullAtEnd fmt queues hs)
  | comm choice measured => exact comm_kept h (commStep_move queues hs)
  | tx => exact tx_kept h (txStep_move hs)

theorem Inv.kept_message (h : Inv s) (hk : Kept w s s') {m : ℕ} {p : LivePlace Worker Queue}
    (hp : m ∈ (holdings s).place (.live p)) (hw : p ≠ .full w) :
    s'.mem.messages m = s.mem.messages m :=
  congrArg Prod.fst (hk.elsewhere h.separate hp hw)

theorem Inv.requests_kept (h : Inv s) (hk : Kept w s s') {msg : ℕ} (hin : msg ∈ s.incoming) :
    (s'.mem.messages msg).type ∈ requestTypes := by
  rw [h.kept_message hk (p := .queue .incoming) hin (by simp)]
  exact h.requests msg hin

theorem Inv.rx_kept (h : Inv s) (hk : Kept w s s') (hw : w ≠ .rx) (hrx : s'.rx = s.rx) :
    RxFit s'.mem s'.rx := by
  have hfit := h.rx
  rw [hrx]
  cases hpc : s.rx with
  | send msg =>
    rw [hpc] at hfit
    rw [RxFit, h.kept_message hk (m := msg) (p := .full .rx)
      (by simp [fullOf, byWorker, hpc, rxFull]) (by simpa using hw.symm)]
    exact hfit
  | alloc req pc => rwa [hpc] at hfit
  | _ => trivial

theorem Inv.comm_kept (h : Inv s) (hk : Kept w s s') (hw : w ≠ .comm) (hcomm : s'.comm = s.comm) :
    CommFit s'.mem s'.comm := by
  have hfit := h.comm
  have hframe (m : ℕ) (hm : m ∈ commFull s.comm) : s'.mem.messages m = s.mem.messages m :=
    h.kept_message hk (p := .full .comm) hm (by simpa using hw.symm)
  rw [hcomm]
  cases hpc : s.comm with
  | wrap req =>
    rw [hpc] at hfit hframe
    rw [CommFit, hframe req (by simp [commFull])]
    exact hfit
  | fill req replyType value msg =>
    rw [hpc] at hfit hframe
    rw [CommFit, hframe msg (by simp [commFull])]
    exact hfit
  | alloc req replyType value pc => rwa [hpc] at hfit
  | _ => trivial

theorem rx_inv [Zero F] (h : Inv s) (hm : RxMove fmt queues s s') : Inv s' := by
  have hkept := rx_kept h hm
  obtain ⟨r, hm, rfl⟩ := hm
  have hold (m : ℕ) (hin : m ∈ s.incoming) := h.requests_kept hkept hin
  refine ⟨hkept.sound, ?_, h.comm_kept hkept (by decide) rfl, ?_⟩
  · cases hm with
    | alloc req pc rx choice res mem step next =>
      subst next
      have hbare : bareOf s .rx = allocBare pc := by simp [bareOf, byWorker, rx, rxBare]
      have hpc : Regular req.msgIdx pc := by simpa only [rx, RxFit] using h.rx
      have hres := h.sound.alloc_regular hbare hpc (allocStep_move step)
      cases res <;> exact hres
    | parse req msg rx parsingFunc parser content written parsed mem parse next =>
      subst next
      obtain ⟨htype, rfl⟩ := parser_request parser
      have hself := (parse_writes req.savePtr
        (show content.data = (s.mem.messages msg).data by rw [written]; rfl)).2
      rw [pools_setMessage] at parse
      rw [parse] at hself
      cases parsed with
      | false => trivial
      | true =>
        change (mem.messages msg).type ∈ requestTypes
        rw [hself, written]
        exact htype
    | free pc rx res mem step next =>
      subst next
      cases res <;> trivial
    | rest rx same =>
      subst same
      exact h.rx
    | start rx req next => subst next; trivial
    | sent msg rx room next => subst next; trivial
    | full msg rx next => subst next; trivial
  · cases hm with
    | sent msg rx room next =>
      subst next
      intro m hin
      rcases List.mem_append.mp hin with hin | hin
      · exact hold m hin
      · rw [List.mem_singleton.mp hin]
        simpa only [rx, RxFit] using h.rx
    | rest rx same => subst same; exact h.requests
    | start rx req next => subst next; exact hold
    | alloc req pc rx choice res mem step next => subst next; exact hold
    | parse req msg rx parsingFunc parser content written parsed mem parse next =>
      subst next
      exact hold
    | full msg rx next => subst next; exact hold
    | free pc rx res mem step next => subst next; exact hold

theorem tx_inv (h : Inv s) (hm : TxMove s s') : Inv s' := by
  have hkept := tx_kept h hm
  have hsame : s'.rx = s.rx ∧ s'.comm = s.comm ∧ s'.incoming = s.incoming := by
    cases hm <;> simp_all
  obtain ⟨hrx, hcomm, hin⟩ := hsame
  refine ⟨hkept.sound, h.rx_kept hkept (by decide) hrx, h.comm_kept hkept (by decide) hcomm, ?_⟩
  intro msg hmsg
  rw [hin] at hmsg
  exact h.requests_kept hkept hmsg

theorem alloc_type [Zero F] {msgTypeId m : ℕ} {pc : AllocPc} {res : AllocResult AllocPc}
    (h : AllocMove msgTypeId mem mem' pc res) (hres : res = .done m) :
    (mem'.messages m).type = msgTypeId := by
  cases h with
  | takeData m' data free next =>
    cases hres
    rw [next]
    simp [Memory.initBlocks, Memory.setPayload, Memory.setMessage]
  | rollback pc res free => cases res <;> cases hres
  | refused same => cases hres
  | takeMsg m free known next => cases hres
  | noData m empty same => cases hres

theorem comm_inv [Zero F] (h : Inv s) (hm : CommMove queues s s') : Inv s' := by
  have hkept := comm_kept h hm
  have hrx : s'.rx = s.rx := by cases hm <;> simp_all
  have hin : ∀ msg ∈ s'.incoming, msg ∈ s.incoming := by cases hm <;> simp_all
  refine ⟨hkept.sound, h.rx_kept hkept (by decide) hrx, ?_,
    fun msg hmsg => h.requests_kept hkept (hin msg hmsg)⟩
  cases hm with
  | receive comm req rest queued next =>
    subst next
    exact h.requests req (by simp [queued])
  | measure req comm measured next =>
    subst next
    change CommFit s.mem (commAfterMeasure req (answer (s.mem.messages req).type measured))
    rcases answer (s.mem.messages req).type measured with err | ⟨replyType, value⟩ <;> trivial
  | alloc req replyType value pc comm res mem alloc next =>
    subst next
    have hbare : bareOf s .comm = allocBare pc := by simp [bareOf, byWorker, comm, commBare]
    have hpc : Regular replyType pc := by simpa only [comm, CommFit] using h.comm
    have hres := h.sound.alloc_regular hbare hpc alloc
    cases res with
    | going pc' => exact hres
    | null => trivial
    | done msg => exact alloc_type alloc rfl
  | recover req pc comm res mem free next =>
    subst next
    cases res <;> trivial
  | sendErr req err comm next =>
    subst next
    cases req <;> trivial
  | drop pc comm res mem free next =>
    subst next
    cases res <;> trivial
  | rest comm empty same =>
    subst same
    exact h.comm
  | wrap req comm next => subst next; trivial
  | invalid req comm wrong next => subst next; trivial
  | fill req replyType value msg data comm attached next => subst next; trivial
  | unfit req replyType value msg comm wrong next => subst next; trivial
  | send req msg comm next => subst next; trivial
  | full req msg comm next => subst next; trivial

/-- Step lemma. -/
theorem Inv.step [Zero F] (h : Inv s) {l : Label F}
    (hs : step nullAtEnd fmt queues l s = some s') : Inv s' := by
  cases l with
  | rx buf choice => exact rx_inv h (rxStep_move nullAtEnd fmt queues hs)
  | comm choice measured => exact comm_inv h (commStep_move queues hs)
  | tx => exact tx_inv h (txStep_move hs)

theorem inv_initial (messages : ℕ → Message (Option ℕ)) (payloads : ℕ → MessagePayload F) :
    Inv (initial messages payloads) := by
  refine ⟨?_, trivial, trivial, by simp [initial]⟩
  exact .initial (by rintro ⟨⟩ <;> rfl) (by rintro ⟨⟩ <;> rfl) (by rintro ⟨⟩ <;> rfl)
    fun m hm => absurd hm (Multiset.notMem_zero m)

/-- Run lemma: whatever the workers do, in any order. -/
theorem Inv.runs [Zero F] {messages : ℕ → Message (Option ℕ)} {payloads : ℕ → MessagePayload F}
    {labels : List (Label F)}
    (h : Runs.runs (MeteoSystem.step nullAtEnd fmt queues) labels
      (initial messages payloads) = some s) : Inv s :=
  Runs.runs_invariant Inv (fun _ _ _ hinv hs => hinv.step hs) (inv_initial messages payloads) h

end Runs

def Allocating (s : State F) (pc : AllocPc) : Prop :=
  (∃ req, s.rx = .alloc req pc) ∨ ∃ req replyType value, s.comm = .alloc req replyType value pc

/-- Every block is in exactly one place, live messages and payloads belong together, and
a payload is left for every message block that is free or has been taken. -/
structure Conserved (s : State F) : Prop where
  onePlace : ∀ msg < poolSize, ∃! p, msg ∈ messagesAt (holdings s) p
  once : ∀ p, (messagesAt (holdings s) p).Nodup
  noOther : ∀ p, ∀ msg ∈ messagesAt (holdings s) p, msg < poolSize
  payload : ∀ d < poolSize,
    (d ∈ s.mem.payloadPool ∧ ∀ msg, Live (holdings s) msg → (s.mem.messages msg).data ≠ some d) ∨
      (d ∉ s.mem.payloadPool ∧ ∃! msg, Live (holdings s) msg ∧ (s.mem.messages msg).data = some d)
  payloadOnce : s.mem.payloadPool.Nodup ∧ ∀ d ∈ s.mem.payloadPool, d < poolSize
  paired : ∀ msg, Live (holdings s) msg → ∃ d < poolSize, (s.mem.messages msg).data = some d
  order : s.mem.msgPool.length ≤ s.mem.payloadPool.length
  payloadLeft : ∀ m, Allocating s (.takeData m) → s.mem.payloadPool ≠ []
  noRollback : ∀ pc, ¬ Allocating s (.rollback pc)

section Conservation

variable {s : State F}

/-- A message refers to a payload as the exchange says it does. -/
theorem Inv.data_iff (h : Inv s) {msg : ℕ} (hlive : Live (holdings s) msg) (d : ℕ) :
    (s.mem.messages msg).data = some d ↔ (holdings s).data msg = d := by
  rw [← live_iff] at hlive
  rw [h.sound.attached hlive, Option.some.injEq]
  rfl

theorem Inv.payload (h : Inv s) {d : ℕ} (hd : d < poolSize) :
    (d ∈ s.mem.payloadPool ∧ ∀ msg, Live (holdings s) msg → (s.mem.messages msg).data ≠ some d) ∨
      (d ∉ s.mem.payloadPool ∧
        ∃! msg, Live (holdings s) msg ∧ (s.mem.messages msg).data = some d) := by
  rcases h.sound.conserves.payload_cases (Multiset.nodup_range _) (Multiset.mem_range.mpr hd) with
    ⟨hin, hno⟩ | ⟨hout, msg, ⟨hlive, hdata⟩, huniq⟩
  · refine Or.inl ⟨hin, fun msg hlive heq => ?_⟩
    exact hno msg ((live_iff _ msg).mpr hlive) ((h.data_iff hlive d).mp heq)
  · have hlive' := (live_iff _ msg).mp hlive
    refine Or.inr ⟨hout, msg, ⟨hlive', (h.data_iff hlive' d).mpr hdata⟩, ?_⟩
    rintro msg' ⟨hlive'', hdata'⟩
    exact huniq msg' ⟨(live_iff _ msg').mpr hlive'', (h.data_iff hlive'' d).mp hdata'⟩

/-- A worker that has taken a message block holds it bare. -/
theorem Inv.bare_of_allocating (h : Inv s) {pc : AllocPc} (hpc : Allocating s pc) :
    ∃ w msgTypeId, bareOf s w = allocBare pc ∧ Regular msgTypeId pc := by
  rcases hpc with ⟨req, hrx⟩ | ⟨req, replyType, value, hcomm⟩
  · refine ⟨.rx, req.msgIdx, by simp [bareOf, byWorker, hrx, rxBare], ?_⟩
    simpa only [hrx, RxFit] using h.rx
  · refine ⟨.comm, replyType, by simp [bareOf, byWorker, hcomm, commBare], ?_⟩
    simpa only [hcomm, CommFit] using h.comm

theorem Inv.conserved (h : Inv s) : Conserved s where
  onePlace _ hlt := h.sound.conserves.onePlace hlt
  once := messagesAt_nodup h.separate
  noOther _ _ hp := h.sound.conserves.noOther hp
  payload d hd := h.payload hd
  payloadOnce := by
    have hsum := h.sound.conserves.payloads
    have hnodup := Multiset.nodup_range poolSize
    rw [← hsum] at hnodup
    refine ⟨(Multiset.nodup_add.mp hnodup).1, fun d hd => ?_⟩
    rw [← Multiset.mem_range, ← hsum]
    exact Multiset.mem_add.mpr (Or.inl hd)
  paired msg hlive := by
    have hmem := (live_iff _ msg).mpr hlive
    refine ⟨_, ?_, h.sound.attached hmem⟩
    rw [← Multiset.mem_range, ← h.sound.conserves.payloads]
    exact Multiset.mem_add.mpr (Or.inr (Multiset.mem_map_of_mem (holdings s).data hmem))
  order := by
    have hle := h.sound.conserves.payloads_left rfl .rx
    exact (Nat.le_add_right _ _).trans hle
  payloadLeft m hpc := by
    obtain ⟨w, _, hbare, -⟩ := h.bare_of_allocating hpc
    exact h.sound.payload_left hbare
  noRollback pc hpc := by
    obtain ⟨_, _, -, hregular⟩ := h.bare_of_allocating hpc
    exact hregular

end Conservation

end Ratfist.MeteoConservation
