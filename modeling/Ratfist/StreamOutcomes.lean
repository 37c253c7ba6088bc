import Ratfist.FrameScan

/-!
The receive worker on arbitrary bytes: it never leaves its buffer, every run of
bytes behind a '$' comes to at most one outcome, and a message is reported as too
long exactly when the buffer fills up without a CR LF at position ten or later.
-/
namespace Ratfist.StreamOutcomes

open CString CheckedArray Constants Assembler FrameScan

variable {n : ℕ} {σ : Type}

def OneOutcome (out : List RxEvent) : Prop :=
  (∃ msg, out = [.delivered msg]) ∨ out = [.scheduled rxChecksumError] ∨
    out = [.scheduled messageTooLongError]

/-- The position is reset, and nothing but a '$' changes the context. -/
def Idle (process : Vector Byte n → σ → Vector Byte n × σ) (ctx : RxWorkerContext n σ) : Prop :=
  ctx.posInBuf = 0 ∧ ctx.msgIsIncoming = false ∧
    ∀ junk, dollar ∉ junk → feed process ctx junk = some (ctx, [])

theorem feed_not_incoming (process : Vector Byte n → σ → Vector Byte n × σ)
    (ctx : RxWorkerContext n σ) (h : ctx.msgIsIncoming = false) (junk : List Byte)
    (hj : dollar ∉ junk) : feed process ctx junk = some (ctx, []) := by
  induction junk with
  | nil => rfl
  | cons ch junk ih =>
    obtain ⟨hch, hrest⟩ : dollar ≠ ch ∧ dollar ∉ junk := by simpa using hj
    simp [feed, assembleIncomingMessage, Ne.symm hch, h, ih hrest]

theorem idle_of_refines (process : Vector Byte n → σ → Vector Byte n × σ)
    {ctx : RxWorkerContext n σ} (h : Refines ctx none) : Idle process ctx :=
  ⟨h.2.1, h.1, feed_not_incoming process ctx h.1⟩

theorem verdict_oneOutcome (seg : List Byte) : OneOutcome [verdict seg] := by
  unfold verdict
  split_ifs
  · exact Or.inl ⟨_, rfl⟩
  · exact Or.inr (Or.inl rfl)

/-- After one '$': nothing yet, or one outcome and an idle scanner. -/
theorem outcome_settled {seg : List Byte} {r : Scan × List RxEvent} (h : Outcome n seg r) :
    r.2 = [] ∨ (OneOutcome r.2 ∧ r.1 = none) := by
  cases h with
  | pending hlen hun => exact Or.inl rfl
  | judged k hk hn hc hun => exact Or.inr ⟨verdict_oneOutcome _, rfl⟩
  | tooLong hlen hun => exact Or.inr ⟨Or.inr (Or.inr rfl), rfl⟩

theorem outcome_tooLong_iff {seg : List Byte} {r : Scan × List RxEvent} (h : Outcome n seg r) :
    .scheduled messageTooLongError ∈ r.2 ↔
      n ≤ seg.length ∧ ∀ k, k ≤ n → ¬ Complete (seg.take k) := by
  cases h with
  | pending hlen hun =>
    simp only [List.not_mem_nil, false_iff, not_and]
    omega
  | judged k hk hn hc hun =>
    simp only [List.mem_singleton, (verdict_ne_tooLong _).symm, false_iff]
    exact fun h => h.2 k hn hc
  | tooLong hlen hun => simpa using ⟨hlen, hun⟩

/-- Every byte stream, from the initial state, whatever the registry makes of the
delivered messages: nothing comes of the bytes in front of the first '$'. -/
theorem assembler_stream_safety (b : Board)
    (process : Vector Byte b.bspMaxMessageLength → σ → Vector Byte b.bspMaxMessageLength × σ)
    (buf : Vector Byte b.bspMaxMessageLength) (subsystems : σ) (bytes : List Byte) :
    ∃ ctx events, feed process (dispatcherInit buf subsystems) bytes = some (ctx, events) ∧
      ctx.posInBuf < b.bspMaxMessageLength ∧
      (dollar ∉ bytes → events = [] ∧ Idle process ctx) ∧
      ∀ pre seg, bytes = pre ++ dollar :: seg → dollar ∉ seg →
        ∃ ctx₀ before out, feed process (dispatcherInit buf subsystems) pre = some (ctx₀, before) ∧
          events = before ++ out ∧
          (out = [] ∨ (OneOutcome out ∧ Idle process ctx)) ∧
          (.scheduled messageTooLongError ∈ out ↔
            b.bspMaxMessageLength ≤ seg.length ∧
            ∀ k, 10 ≤ k → k ≤ b.bspMaxMessageLength →
              ¬ (seg[k - 2]? = some cr ∧ seg[k - 1]? = some lf)) := by
  have hn : 0 < b.bspMaxMessageLength := by cases b <;> decide
  obtain ⟨ctx, hfeed, href⟩ := feed_init hn process buf subsystems bytes
  refine ⟨ctx, _, hfeed, href.posInBuf_lt, ?_, ?_⟩
  · intro hbytes
    rw [feed_not_incoming process (dispatcherInit buf subsystems) rfl bytes hbytes,
      Option.some.injEq, Prod.mk.injEq] at hfeed
    rw [← hfeed.1, ← hfeed.2]
    exact ⟨rfl, idle_of_refines process (refines_init hn buf subsystems)⟩
  rintro pre seg rfl hseg
  obtain ⟨ctx₀, hpre, -⟩ := feed_init hn process buf subsystems pre
  rw [scan_append] at href ⊢
  have hout :=
    scan_outcome b.bspMaxMessageLength hn (scan b.bspMaxMessageLength none pre).1 seg hseg
  refine ⟨ctx₀, _, _, hpre, rfl, ?_, ?_⟩
  · rcases outcome_settled hout with hnil | ⟨hone, hidle⟩
    · exact Or.inl hnil
    · simp only [hidle] at href
      exact Or.inr ⟨hone, idle_of_refines process href⟩
  · rw [outcome_tooLong_iff hout]
    refine and_congr_right (fun hlen => forall_congr' (fun k => ?_))
    constructor
    · intro h h10 hk hcrlf
      exact h hk ((complete_take_iff seg k (by omega)).mpr ⟨h10, hcrlf⟩)
    · intro h hk hc
      obtain ⟨h10, hcrlf⟩ := (complete_take_iff seg k (by omega)).mp hc
      exact h h10 hk hcrlf

end Ratfist.StreamOutcomes
