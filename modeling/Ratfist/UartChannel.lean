import Ratfist.UsartInterrupts

/-!
The UART with its two buffers as a channel of characters. Tasks write to the transmit buffer,
whose callback enables the transmit interrupt, and read from the receive buffer; the handler
moves characters between the buffers and the peripheral. They take turns in any order, and the
callback may come later than the write that it belongs to.
-/
namespace Ratfist.UartChannel

open CString Constants Subsystem UsartInterrupts

/-- The peripheral and the buffers. A callback is owed from a write until it has been made;
`lost` counts the characters that came in and have not been kept. -/
structure Channel where
  usart : Usart
  owed : Bool
  lost : ℕ

/-- What tasks, the peripheral and the line do. The peripheral's part is that of the handler. -/
inductive Event
  | write (ch : Byte)
  | callback
  | usart (event : UsartInterrupts.Event)
  | arrive (ch : Byte)
  | read (ch : Byte)
deriving DecidableEq, Repr

/-- `comm_init`, with buffers of any size. -/
def commInit (rxBufferSize txBufferSize : ℕ) : Channel where
  usart := ⟨0, false, false, false, none, false, [], ⟨rxBufferSize, []⟩, ⟨txBufferSize, []⟩⟩
  owed := false
  lost := 0

/-- `os_char_buffer_write_ch` on the transmit buffer, when there is room. -/
def write (ch : Byte) (c : Channel) : Option Channel :=
  match c.usart.bspTxBuffer.write ch with
  | (true, box) => some { c with usart := { c.usart with bspTxBuffer := box }, owed := true }
  | (false, _) => none

/-- `enable_usart1_tx_interrupt` or `enable_usart2_tx_interrupt` -/
def enableTxInterrupt (c : Channel) : Channel :=
  { c with usart := { c.usart with txInterrupt := true }, owed := false }

/-- `os_char_buffer_read_ch` on the receive buffer, when it gives this character. -/
def read (ch : Byte) (c : Channel) : Option Channel :=
  match c.usart.bspRxBuffer.read with
  | some (next, box) =>
    if next = ch then some { c with usart := { c.usart with bspRxBuffer := box } } else none
  | none => none

/-- A character comes in from the line; if the last one is still there, this one is lost. -/
def arrive (ch : Byte) (c : Channel) : Channel :=
  if c.usart.rxne then { c with usart := { c.usart with ore := true }, lost := c.lost + 1 }
  else { c with usart := { c.usart with rdr := ch, rxne := true } }

/-- The handler loses the character that it has received when the buffer is full. -/
def dropped (u : Usart) : UsartInterrupts.Event → ℕ
  | .run => if u.rxne && u.bspRxBuffer.full then 1 else 0
  | .ready => 0

def step (b : Board) : Event → Channel → Option Channel
  | .write ch, c => write ch c
  | .callback, c => if c.owed then some (enableTxInterrupt c) else none
  | .usart event, c =>
    (UsartInterrupts.step b event c.usart).map fun u =>
      { c with usart := u, lost := c.lost + dropped c.usart event }
  | .arrive ch, c => some (arrive ch c)
  | .read ch, c => read ch c

def Event.written : Event → List Byte
  | .write ch => [ch]
  | _ => []

def Event.arrived : Event → List Byte
  | .arrive ch => [ch]
  | _ => []

def Event.taken : Event → List Byte
  | .read ch => [ch]
  | _ => []

def written (events : List Event) : List Byte := events.flatMap Event.written

def arrived (events : List Event) : List Byte := events.flatMap Event.arrived

def taken (events : List Event) : List Byte := events.flatMap Event.taken

def waiting (u : Usart) : List Byte :=
  u.bspRxBuffer.items ++ if u.rxne then [u.rdr] else []

/-- What a run of the handler does: the character received goes into the receive buffer, one
goes out, the transmit interrupt is disabled, or an overrun is cleared. -/
inductive Ran (b : Board) (u : Usart) : Usart → Prop
  | received (hrxne : u.rxne = true) :
      Ran b u { u with
        rxne := false
        ore := match b with
          | .stm32f072discovery => u.ore
          | .stm32f411discovery => false
        statusRead := false
        bspRxBuffer := (u.bspRxBuffer.write u.rdr).2 }
  | transmitted (hrxne : u.rxne = false) (htdr : u.tdr = none) (ch : Byte) (box : Mailbox Byte)
      (h : u.bspTxBuffer.items = ch :: box.items) :
      Ran b u { u with statusRead := true, tdr := some ch, bspTxBuffer := box }
  | disabled (hrxne : u.rxne = false) (htdr : u.tdr = none) (h : u.bspTxBuffer.items = []) :
      Ran b u { u with statusRead := true, txInterrupt := false }
  | cleared (hrxne : u.rxne = false) :
      Ran b u { u with statusRead := true, ore := false }

section Steps

variable {b : Board} {u : Usart}

theorem transmit_ran (hrxne : u.rxne = false) (htdr : u.tdr = none) :
    Ran b u { u with statusRead := true }.transmit := by
  unfold Usart.transmit
  cases hread : u.bspTxBuffer.read with
  | none => exact .disabled hrxne htdr (Mailbox.read_eq_none.mp hread)
  | some next =>
    obtain ⟨ch, box⟩ := next
    exact .transmitted hrxne htdr ch box (Mailbox.read_eq_some hread).1

theorem isr_ran (hore : b = .stm32f411discovery → u.ore = true → u.rxne = true)
    (h : pending u) : Ran b u (isr b u) := by
  by_cases hrxne : u.rxne = true
  · have hreceived := Ran.received (b := b) hrxne
    cases b <;>
      simpa [isr, usart1Isr, usart2Isr, Usart.getFlag, Usart.flag, Usart.receive, Usart.recv,
        hrxne] using hreceived
  · have hrxne : u.rxne = false := by simpa using hrxne
    cases b with
    | stm32f072discovery =>
      cases htdr : u.tdr with
      | none =>
        simpa [isr, usart1Isr, Usart.getFlag, Usart.flag, hrxne, htdr]
          using transmit_ran (b := .stm32f072discovery) hrxne htdr
      | some ch =>
        have hover : u.ore = true := by simpa [pending, Usart.flag, hrxne, htdr] using h
        simpa [isr, usart1Isr, Usart.getFlag, Usart.flag, Usart.clearOverrun, hrxne, htdr, hover]
          using Ran.cleared (b := .stm32f072discovery) hrxne
    | stm32f411discovery =>
      have hover : u.ore = false := by
        by_contra hover
        exact absurd (hore rfl (by simpa using hover)) (by simp [hrxne])
      have htdr : u.tdr = none := by
        have : u.txInterrupt = true ∧ u.tdr = none := by
          simpa [pending, Usart.flag, hrxne, hover] using h
        exact this.2
      simpa [isr, usart2Isr, Usart.getFlag, Usart.flag, hrxne, hover, htdr]
        using transmit_ran (b := .stm32f411discovery) hrxne htdr

end Steps

/-- What holds when `out` has been written, `came` has come in and `taken` has been read. -/
structure Carried (b : Board) (out came taken : List Byte) (c : Channel) : Prop where
  sent : c.usart.line ++ c.usart.tdr.toList ++ c.usart.bspTxBuffer.items = out
  kept : (taken ++ waiting c.usart).Sublist came
  count : taken.length + (waiting c.usart).length + c.lost = came.length
  awake : c.owed = true ∨ c.usart.txInterrupt = true ∨ c.usart.bspTxBuffer.items = []
  overrun : b = .stm32f411discovery → c.usart.ore = true → c.usart.rxne = true

section Runs

variable {b : Board} {out came taken : List Byte} {c c' : Channel}

theorem commInit_carried (rxBufferSize txBufferSize : ℕ) :
    Carried b [] [] [] (commInit rxBufferSize txBufferSize) :=
  ⟨rfl, List.Sublist.refl _, rfl, Or.inr (Or.inr rfl), fun _ h => by simp [commInit] at h⟩

theorem Carried.write (h : Carried b out came taken c) {ch : Byte}
    (hs : write ch c = some c') : Carried b (out ++ [ch]) came taken c' := by
  unfold UartChannel.write Mailbox.write at hs
  split_ifs at hs
  cases hs
  refine ⟨?_, h.kept, h.count, Or.inl rfl, h.overrun⟩
  rw [← h.sent, List.append_assoc _ _ [ch]]

theorem Carried.callback (h : Carried b out came taken c) :
    Carried b out came taken (enableTxInterrupt c) :=
  ⟨h.sent, h.kept, h.count, Or.inr (Or.inl rfl), h.overrun⟩

theorem Carried.read (h : Carried b out came taken c) {ch : Byte}
    (hs : read ch c = some c') : Carried b out came (taken ++ [ch]) c' := by
  unfold UartChannel.read at hs
  cases hread : c.usart.bspRxBuffer.read with
  | none => simp [hread] at hs
  | some next =>
    obtain ⟨next, box⟩ := next
    have hitems := (Mailbox.read_eq_some hread).1
    simp only [hread] at hs
    split_ifs at hs with hnext
    cases hs
    have hwaiting : waiting c.usart =
        ch :: waiting { c.usart with bspRxBuffer := box } := by
      rw [waiting, hitems, hnext]
      rfl
    have hkept := h.kept
    have hcount := h.count
    rw [hwaiting] at hkept hcount
    refine ⟨h.sent, ?_, ?_, h.awake, h.overrun⟩
    · rw [List.append_assoc]
      exact hkept
    · rw [List.length_cons] at hcount
      rw [List.length_append, List.length_singleton, ← hcount, Nat.add_right_comm _ 1]
      rfl

theorem Carried.arrive (h : Carried b out came taken c) (ch : Byte) :
    Carried b out (came ++ [ch]) taken (arrive ch c) := by
  have hlength : (came ++ [ch]).length = came.length + 1 := by simp
  unfold UartChannel.arrive
  split_ifs with hrxne
  · refine ⟨h.sent, h.kept.trans (List.sublist_append_left _ _), ?_, h.awake, fun _ _ => hrxne⟩
    rw [hlength, ← h.count]
    rfl
  · have hwaiting : waiting { c.usart with rdr := ch, rxne := true } = waiting c.usart ++ [ch] := by
      simp [waiting, hrxne]
    refine ⟨h.sent, ?_, ?_, h.awake, fun _ _ => rfl⟩
    · rw [hwaiting, ← List.append_assoc]
      exact h.kept.append (List.Sublist.refl [ch])
    · rw [hwaiting, hlength, ← h.count, List.length_append, List.length_singleton, ← Nat.add_assoc]
      exact Nat.add_right_comm _ _ _

/-- The handler moves the character received to the buffer or loses it. -/
theorem Carried.receive (h : Carried b out came taken c) (hrxne : c.usart.rxne = true)
    (ore statusRead : Bool) (hore : b = .stm32f411discovery → ore = false) :
    Carried b out came taken
      { c with
        usart := { c.usart with
          rxne := false
          ore := ore
          statusRead := statusRead
          bspRxBuffer := (c.usart.bspRxBuffer.write c.usart.rdr).2 }
        lost := c.lost + dropped c.usart .run } := by
  have hkept := h.kept
  have hcount := h.count
  have hbefore : waiting c.usart = c.usart.bspRxBuffer.items ++ [c.usart.rdr] := by
    simp [waiting, hrxne]
  by_cases hfull : c.usart.bspRxBuffer.full = true
  · have hdropped : dropped c.usart .run = 1 := by simp [dropped, hrxne, hfull]
    have hafter (u : Usart) (hu : u.rxne = false)
        (hbox : u.bspRxBuffer = (c.usart.bspRxBuffer.write c.usart.rdr).2) :
        waiting u = c.usart.bspRxBuffer.items := by
      simp [waiting, hu, hbox, Mailbox.write, hfull]
    refine ⟨h.sent, ?_, ?_, h.awake, fun hb hover => by simp [hore hb] at hover⟩
    · rw [hafter _ rfl rfl]
      rw [hbefore, ← List.append_assoc] at hkept
      exact (List.sublist_append_left _ _).trans hkept
    · rw [hafter _ rfl rfl, hdropped, ← hcount, hbefore, List.length_append, List.length_singleton,
        ← Nat.add_assoc]
      exact (Nat.add_right_comm _ _ _).symm
  · have hdropped : dropped c.usart .run = 0 := by simp [dropped, hfull]
    have hafter (u : Usart) (hu : u.rxne = false)
        (hbox : u.bspRxBuffer = (c.usart.bspRxBuffer.write c.usart.rdr).2) :
        waiting u = waiting c.usart := by
      simp [waiting, hu, hbox, hrxne, Mailbox.write, hfull]
    refine ⟨h.sent, ?_, ?_, h.awake, fun hb hover => by simp [hore hb] at hover⟩
    · rw [hafter _ rfl rfl]
      exact hkept
    · rw [hafter _ rfl rfl, hdropped]
      exact hcount

theorem Carried.usart (h : Carried b out came taken c) {event : UsartInterrupts.Event}
    {u : Usart} (hs : UsartInterrupts.step b event c.usart = some u) :
    Carried b out came taken { c with usart := u, lost := c.lost + dropped c.usart event } := by
  have hsent := h.sent
  cases event with
  | ready =>
    obtain ⟨ch, htdr, rfl⟩ := Option.map_eq_some_iff.mp hs
    rw [htdr] at hsent
    exact ⟨by simpa using hsent, h.kept, h.count, h.awake, h.overrun⟩
  | run =>
    rw [UsartInterrupts.step] at hs
    split_ifs at hs with hpending
    cases hs
    have hran := isr_ran h.overrun hpending
    have hquiet (hrxne : c.usart.rxne = false) : dropped c.usart .run = 0 := by
      simp [dropped, hrxne]
    generalize isr b c.usart = u at hran
    cases hran with
    | received hrxne => exact h.receive hrxne _ _ fun hb => by rw [hb]
    | transmitted hrxne htdr ch box hitems =>
      rw [htdr, hitems] at hsent
      rw [hquiet hrxne]
      refine ⟨by simpa using hsent, h.kept, h.count, ?_, h.overrun⟩
      have := h.awake
      simpa [hitems] using this.imp_right Or.inl
    | disabled hrxne htdr hitems =>
      rw [hquiet hrxne]
      exact ⟨hsent, h.kept, h.count, Or.inr (Or.inr hitems), h.overrun⟩
    | cleared hrxne =>
      rw [hquiet hrxne]
      exact ⟨hsent, h.kept, h.count, h.awake, fun _ hore => by simp at hore⟩

theorem Carried.step (h : Carried b out came taken c) {event : Event}
    (hs : step b event c = some c') :
    Carried b (out ++ event.written) (came ++ event.arrived) (taken ++ event.taken) c' := by
  cases event with
  | write ch => simpa [Event.written, Event.arrived, Event.taken] using h.write hs
  | callback =>
    obtain ⟨-, ht⟩ := Option.ite_none_right_eq_some.mp hs
    cases ht
    simpa [Event.written, Event.arrived, Event.taken] using h.callback
  | usart event =>
    obtain ⟨u, hu, rfl⟩ := Option.map_eq_some_iff.mp hs
    simpa [Event.written, Event.arrived, Event.taken] using h.usart hu
  | arrive ch =>
    cases hs
    simpa [Event.written, Event.arrived, Event.taken] using h.arrive ch
  | read ch => simpa [Event.written, Event.arrived, Event.taken] using h.read hs

theorem carried_of_run {rxBufferSize txBufferSize : ℕ} {events : List Event}
    (h : Runs.runs (UartChannel.step b) events (commInit rxBufferSize txBufferSize) = some c) :
    Carried b (written events) (arrived events) (UartChannel.taken events) c := by
  refine Runs.runs_history (fun events c => Carried b (written events) (arrived events)
    (UartChannel.taken events) c) (commInit_carried _ _) ?_ h
  intro events event m t _ hm hstep
  rw [written, arrived, UartChannel.taken, List.flatMap_append, List.flatMap_append,
    List.flatMap_append, List.flatMap_singleton, List.flatMap_singleton, List.flatMap_singleton]
  exact hm.step hstep

/-- Steps of the peripheral alone are steps of the channel. -/
theorem usart_runs {events : List UsartInterrupts.Event}
    (hcarried : Carried b out came taken c)
    (h : Runs.runs (UartChannel.step b) (events.map .usart) c = some c') :
    Carried b out came taken c' ∧
      Runs.runs (UsartInterrupts.step b) events c.usart = some c'.usart ∧ c'.owed = c.owed := by
  induction events generalizing c with
  | nil =>
    cases h
    exact ⟨hcarried, rfl, rfl⟩
  | cons event events ih =>
    obtain ⟨m, hm, hrest⟩ := Runs.runs_cons h
    obtain ⟨u, hu, rfl⟩ := Option.map_eq_some_iff.mp hm
    rw [Runs.runs, hu]
    exact ih (hcarried.usart hu) hrest

end Runs

structure Faithful (b : Board) (events : List Event) (c : Channel) : Prop where
  /-- What is written goes out unchanged, as far as it has gone. -/
  sent : c.usart.line ++ c.usart.tdr.toList ++ c.usart.bspTxBuffer.items = written events
  /-- What is read came in, in this order, and nothing is missing but what is counted. -/
  kept : (taken events ++ waiting c.usart).Sublist (arrived events)
  count : (taken events).length + (waiting c.usart).length + c.lost = (arrived events).length
  /-- Once the callbacks have been made the peripheral sends all, without further calls. -/
  drained : c.owed = false → (b = .stm32f072discovery → c.usart.ore = false) →
    (∃ bound, ∀ (more : List UsartInterrupts.Event) c',
      Runs.runs (step b) (more.map .usart) c = some c' → more.length ≤ bound) ∧
    ∀ (more : List UsartInterrupts.Event) c',
      Runs.runs (step b) (more.map .usart) c = some c' →
      (∀ event, step b (.usart event) c' = none) → c'.usart.line = written events

/-- Any order of writes, reads and interrupts, with buffers of any size. -/
theorem channel_faithful (b : Board) (rxBufferSize txBufferSize : ℕ) (events : List Event)
    (c : Channel)
    (h : Runs.runs (step b) events (commInit rxBufferSize txBufferSize) = some c) :
    Faithful b events c := by
  have hcarried := carried_of_run h
  refine ⟨hcarried.sent, hcarried.kept, hcarried.count, ?_⟩
  intro howed hore
  have hprogress := progresses hore
  obtain ⟨bound, hbound⟩ := hprogress.ends
  refine ⟨⟨bound, fun more c' hmore => hbound more c'.usart (usart_runs hcarried hmore).2.1⟩, ?_⟩
  intro more c' hmore hquiet
  obtain ⟨hlater, hrun, howed'⟩ := usart_runs hcarried hmore
  have hdone (event : UsartInterrupts.Event) : UsartInterrupts.step b event c'.usart = none :=
    Option.map_eq_none_iff.mp (hquiet event)
  have hsettled := hprogress.settled more c'.usart hrun hdone
  have htdr : c'.usart.tdr = none := by simpa [UsartInterrupts.step] using hdone .ready
  have hempty : c'.usart.bspTxBuffer.items = [] := by
    have hawake := hlater.awake
    rw [howed', howed, hsettled.txInterrupt] at hawake
    simpa using hawake
  have hsent := hlater.sent
  rw [htdr, hempty] at hsent
  simpa using hsent

/-- Two characters go out and come in at once, and the second is still to be read. -/
theorem two_characters : ∃ c,
    Runs.runs (step .stm32f411discovery)
      [.write 65, .write 66, .callback, .usart .run, .arrive 97, .usart .ready, .usart .run,
        .arrive 98, .read 97] (commInit 4 4) = some c ∧
    c.usart.line = [65] ∧ c.lost = 0 ∧
    Faithful .stm32f411discovery
      [.write 65, .write 66, .callback, .usart .run, .arrive 97, .usart .ready, .usart .run,
        .arrive 98, .read 97] c :=
  ⟨_, rfl, rfl, rfl, channel_faithful _ 4 4 _ _ rfl⟩

end Ratfist.UartChannel
