import Ratfist.Constants
import Ratfist.Runs
import Ratfist.Subsystem

/-!
The UART interrupt handlers of the two boards (`usart1_isr` and `usart2_isr`). The
peripheral raises its receive interrupt for RXNE and for ORE; TXE says that the transmit
register is empty, whether its interrupt is enabled or not. The handler of the F072 tests
TXE before ORE, and then an overrun keeps its interrupt pending for ever.
-/
namespace Ratfist.UsartInterrupts

open CString Constants Subsystem

inductive Flag
  | rxne
  | ore
  | txe
deriving DecidableEq, Repr

/-- One USART, the two buffers of its board, and what has gone onto the line. The
receive interrupt is enabled from `comm_init` on. -/
structure Usart where
  rdr : Byte
  rxne : Bool
  ore : Bool
  /-- The status register has been read since the data register was. -/
  statusRead : Bool
  /-- The transmit register; TXE is set while there is nothing in it. -/
  tdr : Option Byte
  txInterrupt : Bool
  line : List Byte
  bspRxBuffer : Mailbox Byte
  bspTxBuffer : Mailbox Byte

namespace Usart

def flag (u : Usart) : Flag → Bool
  | .rxne => u.rxne
  | .ore => u.ore
  | .txe => u.tdr.isNone

def getFlag (u : Usart) (f : Flag) : Bool × Usart := (u.flag f, { u with statusRead := true })

/-- Reading the data register clears RXNE, and on the F4 also an ORE that the status
register has shown before. -/
def recv (u : Usart) : Board → Byte × Usart
  | .stm32f072discovery => (u.rdr, { u with rxne := false, statusRead := false })
  | .stm32f411discovery =>
    (u.rdr, { u with rxne := false, ore := u.ore && !u.statusRead, statusRead := false })

def send (u : Usart) (ch : Byte) : Usart := { u with tdr := some ch }

def disableTxInterrupt (u : Usart) : Usart := { u with txInterrupt := false }

def clearOverrun (u : Usart) : Usart := { u with ore := false }

/-- The receive interrupt: the character is lost if the buffer is full. -/
def receive (u : Usart) (b : Board) : Usart :=
  let (ch, u) := u.recv b
  { u with bspRxBuffer := (u.bspRxBuffer.write ch).2 }

def transmit (u : Usart) : Usart :=
  match u.bspTxBuffer.read with
  | some (ch, box) => { u with bspTxBuffer := box }.send ch
  | none => u.disableTxInterrupt

end Usart

def usart1Isr (u : Usart) : Usart :=
  let (rxne, u) := u.getFlag .rxne
  if rxne then u.receive .stm32f072discovery
  else
    let (txe, u) := u.getFlag .txe
    if txe then u.transmit
    else
      let (ore, u) := u.getFlag .ore
      if ore then u.clearOverrun else u

def usart2Isr (u : Usart) : Usart :=
  let (rxne, u) := u.getFlag .rxne
  if rxne then u.receive .stm32f411discovery
  else
    let (ore, u) := u.getFlag .ore
    if ore then u.receive .stm32f411discovery
    else
      let (txe, u) := u.getFlag .txe
      if txe then u.transmit else u

def isr : Board → Usart → Usart
  | .stm32f072discovery => usart1Isr
  | .stm32f411discovery => usart2Isr

def pending (u : Usart) : Bool := u.rxne || u.ore || (u.txInterrupt && u.flag .txe)

/-- The handler runs because of a pending interrupt, or the transmit register has passed
its character on. A change of TXE in the middle of a run counts as one before it or
behind it, as the handlers test each flag once. -/
inductive Event
  | run
  | ready
deriving DecidableEq, Repr

def step (b : Board) : Event → Usart → Option Usart
  | .run, u => if pending u then some (isr b u) else none
  | .ready, u => u.tdr.map fun ch => { u with tdr := none, line := u.line ++ [ch] }

/-- What is left when nothing is pending any more and the line is quiet. -/
structure Settled (before after : Usart) : Prop where
  rxne : after.rxne = false
  ore : after.ore = false
  txInterrupt : after.txInterrupt = false
  emptied : before.txInterrupt → after.bspTxBuffer.items = []
  sent : before.txInterrupt →
    after.line = before.line ++ before.tdr.toList ++ before.bspTxBuffer.items

/-- However long the characters take on the line, the runs of the handler come to an end,
and then all is done. -/
structure Progresses (b : Board) (u : Usart) : Prop where
  ends : ∃ bound, ∀ events u', Runs.runs (step b) events u = some u' → events.length ≤ bound
  settled : ∀ events u', Runs.runs (step b) events u = some u' →
    (∀ event, step b event u' = none) → Settled u u'

/-- What one run of a handler does that has no overrun to miss. -/
inductive Handled (u : Usart) : Usart → Prop
  | received (h : u.rxne ∨ u.ore) (box : Mailbox Byte) :
      Handled u { u with rxne := false, ore := false, statusRead := false, bspRxBuffer := box }
  | transmitted (henabled : u.txInterrupt) (htdr : u.tdr = none) (ch : Byte) (box : Mailbox Byte)
      (h : u.bspTxBuffer.items = ch :: box.items) :
      Handled u { u with statusRead := true, tdr := some ch, bspTxBuffer := box }
  | disabled (henabled : u.txInterrupt) (h : u.bspTxBuffer.items = []) :
      Handled u { u with statusRead := true, txInterrupt := false }

section Steps

variable {b : Board} {u : Usart}

theorem transmit_handled (henabled : u.txInterrupt) (htdr : u.tdr = none) :
    Handled u { u with statusRead := true }.transmit := by
  unfold Usart.transmit
  cases hread : u.bspTxBuffer.read with
  | none => exact .disabled henabled (Mailbox.read_eq_none.mp hread)
  | some next =>
    obtain ⟨ch, box⟩ := next
    exact .transmitted henabled htdr ch box (Mailbox.read_eq_some hread).1

theorem isr_handled (hore : b = .stm32f072discovery → u.ore = false) (h : pending u) :
    Handled u (isr b u) := by
  by_cases hrx : u.rxne = true ∨ u.ore = true
  · have hreceived := Handled.received hrx (u.bspRxBuffer.write u.rdr).2
    cases b with
    | stm32f072discovery =>
      have hover := hore rfl
      have hchar : u.rxne = true := by simpa [hover] using hrx
      simpa [isr, usart1Isr, Usart.getFlag, Usart.flag, Usart.receive, Usart.recv, hchar, hover]
        using hreceived
    | stm32f411discovery =>
      -- ORE goes with the data register, as its flag or that of RXNE has been read
      by_cases hchar : u.rxne = true
      · simpa [isr, usart2Isr, Usart.getFlag, Usart.flag, Usart.receive, Usart.recv, hchar]
          using hreceived
      · have hover := hrx.resolve_left hchar
        simpa [isr, usart2Isr, Usart.getFlag, Usart.flag, Usart.receive, Usart.recv, hchar, hover]
          using hreceived
  · obtain ⟨hchar, hover⟩ : u.rxne = false ∧ u.ore = false := by simpa using hrx
    have htx : u.txInterrupt = true ∧ u.tdr = none := by
      simpa [pending, hchar, hover, Usart.flag] using h
    have hhandled := transmit_handled htx.1 htx.2
    cases b <;>
      simpa [isr, usart1Isr, usart2Isr, Usart.getFlag, Usart.flag, hchar, hover, htx.2]
        using hhandled

/-- What every step keeps: no character is lost on its way to the line, and the transmit
interrupt is given up only with an empty buffer. -/
structure Toward (b : Board) (before u : Usart) : Prop where
  ore : b = .stm32f072discovery → u.ore = false
  sent : u.line ++ u.tdr.toList ++ u.bspTxBuffer.items =
    before.line ++ before.tdr.toList ++ before.bspTxBuffer.items
  emptied : before.txInterrupt → u.txInterrupt ∨ u.bspTxBuffer.items = []

def toCome (u : Usart) : ℕ :=
  (u.rxne || u.ore).toNat + u.txInterrupt.toNat + u.tdr.toList.length +
    2 * u.bspTxBuffer.items.length

theorem Toward.step {before u' : Usart} (h : Toward b before u) {event : Event}
    (hs : step b event u = some u') : Toward b before u' ∧ toCome u' < toCome u := by
  cases event with
  | ready =>
    obtain ⟨ch, htdr, rfl⟩ := Option.map_eq_some_iff.mp hs
    have hsent := h.sent
    rw [htdr] at hsent
    refine ⟨⟨h.ore, by simpa using hsent, h.emptied⟩, ?_⟩
    simp [toCome, htdr]
  | run =>
    simp only [UsartInterrupts.step] at hs
    split_ifs at hs with hp
    cases hs
    have hhandled := isr_handled h.ore hp
    generalize isr b u = u' at hhandled
    cases hhandled with
    | received hrx box =>
      refine ⟨⟨fun _ => rfl, h.sent, h.emptied⟩, ?_⟩
      have hset : (u.rxne || u.ore) = true := by simpa using hrx
      simp [toCome, hset]
    | transmitted henabled htdr ch box hitems =>
      have hsent := h.sent
      rw [htdr, hitems] at hsent
      refine ⟨⟨h.ore, by simpa using hsent, fun _ => Or.inl henabled⟩, ?_⟩
      simp only [toCome, htdr, hitems, Option.toList_some, Option.toList_none, List.length_cons,
        List.length_nil]
      omega
    | disabled henabled hitems =>
      refine ⟨⟨h.ore, h.sent, fun _ => Or.inr hitems⟩, ?_⟩
      simp [toCome, henabled]

/-- When no step is left, nothing is pending and the line is quiet. -/
theorem Toward.settled {before : Usart} (h : Toward b before u)
    (hquiet : ∀ event, UsartInterrupts.step b event u = none) : Settled before u := by
  have hnone : pending u = false := by
    have := hquiet .run
    simpa [UsartInterrupts.step] using this
  have htdr : u.tdr = none := by
    have := hquiet .ready
    simpa [UsartInterrupts.step] using this
  obtain ⟨⟨hrxne, hore⟩, htx⟩ : (u.rxne = false ∧ u.ore = false) ∧ u.txInterrupt = false := by
    simpa [pending, Usart.flag, htdr] using hnone
  have hempty (hbefore : before.txInterrupt = true) : u.bspTxBuffer.items = [] := by
    have := h.emptied hbefore
    simpa [htx] using this
  refine ⟨hrxne, hore, htx, hempty, fun hbefore => ?_⟩
  have hsent := h.sent
  rw [htdr, hempty hbefore] at hsent
  simpa using hsent

theorem progresses (hore : b = .stm32f072discovery → u.ore = false) : Progresses b u := by
  have hstart : Toward b u u := ⟨hore, rfl, fun h => Or.inl h⟩
  have hstep : ∀ event s t, Toward b u s → step b event s = some t →
      Toward b u t ∧ toCome t < toCome s := fun _ _ _ hs hst => hs.step hst
  refine ⟨⟨toCome u, fun events u' hrun => ?_⟩, fun events u' hrun hquiet => ?_⟩
  · exact Runs.runs_length_le (Toward b u) toCome hstep hstart hrun
  · have hend := Runs.runs_invariant (Toward b u)
      (fun event s t hs hst => (hstep event s t hs hst).1) hstart hrun
    exact hend.settled hquiet

/-- On the F072 an overrun is not cleared while TXE is set, and it may always be set by the
next run. -/
theorem overrun_stays (h : u.ore = true) :
    ∃ event u', step .stm32f072discovery event u = some u' ∧ u'.ore = true := by
  cases htdr : u.tdr with
  | some ch =>
    refine ⟨.ready, { u with tdr := none, line := u.line ++ [ch] }, ?_, h⟩
    rw [step, htdr, Option.map_some]
  | none =>
    refine ⟨.run, usart1Isr u, by simp [step, pending, h, isr], ?_⟩
    by_cases hrxne : u.rxne = true
    · simp [usart1Isr, Usart.getFlag, Usart.flag, Usart.receive, Usart.recv, hrxne, h]
    · simp only [usart1Isr, Usart.getFlag, Usart.flag, hrxne, htdr, Usart.transmit]
      cases hread : u.bspTxBuffer.read <;>
        simp [Usart.send, Usart.disableTxInterrupt, h]

theorem not_progresses (h : u.ore = true) : ¬ Progresses .stm32f072discovery u := by
  intro hprogress
  obtain ⟨bound, hbound⟩ := hprogress.ends
  obtain ⟨events, u', hlen, hrun⟩ := Runs.runs_forever (fun s : Usart => s.ore = true)
    (fun _ hs => overrun_stays hs) (bound + 1) h
  have := hbound events u' hrun
  omega

end Steps

/-- Whatever flags are set, whatever the transmit buffer holds and whether its interrupt is
enabled: the handler gets done, unless it is that of the F072 and there is an overrun. -/
theorem handlers_progress_iff (b : Board) (u : Usart) :
    Progresses b u ↔ (b = .stm32f072discovery → u.ore = false) := by
  constructor
  · rintro h rfl
    by_contra hore
    exact not_progresses (by simpa using hore) h
  · exact progresses

/-- An overrun on an idle line, after its character has been read. -/
def overrun : Usart :=
  ⟨65, false, true, true, none, false, [], ⟨16, []⟩, ⟨16, []⟩⟩

/-- The handler of the F072 leaves it exactly as it is. -/
theorem overrun_hangs : usart1Isr overrun = overrun ∧ pending overrun = true ∧
    ¬ Progresses .stm32f072discovery overrun :=
  ⟨rfl, rfl, not_progresses rfl⟩

end Ratfist.UsartInterrupts
