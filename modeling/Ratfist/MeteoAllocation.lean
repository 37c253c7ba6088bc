import Ratfist.MeteoPools
import Mathlib.Data.Rat.Floor

/-!
A failed `meteo_alloc`. Without a payload the message block goes to `meteo_free`, which
decides by what its last user left in the block: it keeps a block of a foreign type, and it
frees the payload that the block still points to.
-/
namespace Ratfist.MeteoAllocation

open Subsystem MeteoPools

variable {F : Type}

/-- A failed allocation leaves the pools as they were, a successful one takes from them. -/
structure Atomic [Zero F] (msgTypeId : ℕ) (mem : Memory F) : Prop where
  restored : ∀ mem', meteoAlloc msgTypeId mem = (none, mem') →
    mem'.msgPool.Perm mem.msgPool ∧ mem'.payloadPool.Perm mem.payloadPool
  attached : ∀ mem', meteoAlloc msgTypeId mem = (none, mem') →
    ∀ msg data, msg ∉ mem.msgPool → (mem.messages msg).data = some data →
      data ∈ mem'.payloadPool → data ∈ mem.payloadPool
  allocated : ∀ msg content mem', meteoAlloc msgTypeId mem = (some (msg, content), mem') →
    msg ∈ mem.msgPool ∧ mem'.messages msg = content ∧ content.type = msgTypeId ∧
      content.transactionId = 0 ∧ ∃ payload ∈ mem.payloadPool, content.data = some payload

/-- What `meteo_free` gives back as it was taken: a message of a known type and without data. -/
def Blank (content : Message (Option ℕ)) : Prop :=
  content.type ∈ messageTypes ∧ content.data = none

/-- The rollback is not reached, or it finds a blank block. -/
def Undoable (msgTypeId : ℕ) (mem : Memory F) : Prop :=
  msgTypeId ∈ messageTypes → mem.payloadPool = [] →
    ∀ msg ∈ mem.msgPool.head?, Blank (mem.messages msg)

section Free

variable {msg : ℕ} {content : Message (Option ℕ)} {mem : Memory F}

theorem meteoFree_blank (h : Blank content) :
    meteoFree msg content mem = { mem with msgPool := msg :: mem.msgPool } := by
  simp only [meteoFree, if_pos h.1, h.2]

/-- In no other case is the failure undone. -/
theorem meteoFree_perm {rest : List ℕ}
    (hmsg : (meteoFree msg content { mem with msgPool := rest }).msgPool.Perm (msg :: rest))
    (hdata : (meteoFree msg content { mem with msgPool := rest }).payloadPool.Perm
      mem.payloadPool) : Blank content := by
  unfold meteoFree at hmsg hdata
  split_ifs at hmsg hdata with htype
  · cases hcontent : content.data with
    | none => exact ⟨htype, hcontent⟩
    | some data =>
      simp only [hcontent] at hdata
      have hlength := hdata.length_eq
      simp at hlength
  · have hlength := hmsg.length_eq
    simp at hlength

end Free

section Alloc

variable [Zero F] {msgTypeId : ℕ} {mem mem' : Memory F}

theorem meteoAlloc_allocated {msg : ℕ} {content : Message (Option ℕ)}
    (h : meteoAlloc msgTypeId mem = (some (msg, content), mem')) :
    msg ∈ mem.msgPool ∧ mem'.messages msg = content ∧ content.type = msgTypeId ∧
      content.transactionId = 0 ∧ ∃ payload ∈ mem.payloadPool, content.data = some payload := by
  unfold meteoAlloc at h
  split_ifs at h with hknown
  case neg => cases h
  cases hmsg : mem.msgPool with
  | nil => simp [hmsg] at h
  | cons m rest =>
    cases hdata : mem.payloadPool with
    | nil => simp [hmsg, hdata] at h
    | cons payload rest' =>
      simp only [hmsg, hdata, Prod.mk.injEq, Option.some.injEq] at h
      obtain ⟨⟨rfl, rfl⟩, rfl⟩ := h
      refine ⟨List.mem_cons_self, ?_, rfl, rfl, payload, List.mem_cons_self, rfl⟩
      simp [Memory.initBlocks, Memory.setMessage, Memory.setPayload]

/-- Where there is a message but no payload, the rest is up to `meteo_free`. -/
theorem meteoAlloc_rollback {msg : ℕ} {rest : List ℕ} (hknown : msgTypeId ∈ messageTypes)
    (hdata : mem.payloadPool = []) (hmsg : mem.msgPool = msg :: rest) :
    meteoAlloc msgTypeId mem =
      (none, meteoFree msg (mem.messages msg) { mem with msgPool := rest }) := by
  simp only [meteoAlloc, if_pos hknown, hmsg, hdata]

theorem meteoAlloc_null (hundo : Undoable msgTypeId mem)
    (h : meteoAlloc msgTypeId mem = (none, mem')) : mem' = mem := by
  by_cases hknown : msgTypeId ∈ messageTypes
  · cases hmsg : mem.msgPool with
    | nil =>
      simp only [meteoAlloc, if_pos hknown, hmsg] at h
      exact (Prod.mk.inj h).2.symm
    | cons msg rest =>
      cases hdata : mem.payloadPool with
      | nil =>
        have hblank := hundo hknown hdata msg (by simp [hmsg])
        rw [meteoAlloc_rollback hknown hdata hmsg, meteoFree_blank hblank] at h
        rw [← (Prod.mk.inj h).2, ← hmsg]
      | cons payload rest' => simp [meteoAlloc, hknown, hmsg, hdata] at h
  · rw [meteoAlloc, if_neg hknown] at h
    exact (Prod.mk.inj h).2.symm

end Alloc

/-- An allocation is atomic unless its rollback finds a block that is not blank. -/
theorem meteoAlloc_atomic_iff [Zero F] (msgTypeId : ℕ) (mem : Memory F) :
    Atomic msgTypeId mem ↔ Undoable msgTypeId mem := by
  constructor
  · intro hatomic hknown hdata msg hhead
    obtain ⟨rest, hmsg⟩ := List.head?_eq_some_iff.mp hhead
    obtain ⟨hmsgs, hpayloads⟩ :=
      hatomic.restored _ (meteoAlloc_rollback hknown hdata hmsg)
    rw [hmsg] at hmsgs
    exact meteoFree_perm hmsgs hpayloads
  · intro hundo
    refine ⟨?_, ?_, fun msg content mem' => meteoAlloc_allocated⟩
    · intro mem' h
      rw [meteoAlloc_null hundo h]
      exact ⟨List.Perm.refl _, List.Perm.refl _⟩
    · intro mem' h msg data hlive hattached hfree
      rwa [meteoAlloc_null hundo h] at hfree

/-! The rollback can find such a block where there are fewer payloads than messages. -/

def powerUp : Memory ℚ := ⟨[0, 1, 2], [0, 1], fun _ => ⟨0, 0, none⟩, fun _ => .zeroed⟩

def twoTaken : Memory ℚ := (meteoAlloc getTemperature (meteoAlloc getTemperature powerUp).2).2

/-- The release of the first message is interrupted between its two pool operations by an
allocation, which takes the third message with the payload of the first. -/
def interrupted : Memory ℚ :=
  (freeStep (.giveMsg 0) (meteoAlloc getTemperature (freeStep (.giveData 0) twoTaken).2).2).2

/-- The next allocation fails and frees the payload of the third message. -/
theorem rollback_frees_attached : interrupted.msgPool = [0] ∧
    (interrupted.messages 2).data = some 0 ∧
    (meteoAlloc getTemperature interrupted).1 = none ∧
    (meteoAlloc getTemperature interrupted).2.payloadPool = [0] ∧
    ¬ Atomic getTemperature interrupted := by
  have hnull : meteoAlloc getTemperature interrupted =
      (none, (meteoAlloc getTemperature interrupted).2) := rfl
  refine ⟨rfl, rfl, rfl, rfl, ?_⟩
  intro hatomic
  have hfreed := (hatomic.restored _ hnull).2.length_eq
  revert hfreed
  decide

end Ratfist.MeteoAllocation
