import Ratfist.Assembler

/-!
What the receive worker is for: a scanner over byte streams whose only memory
is the bytes since the last '$'. The assembler refines it from every state that
its calls can reach; index safety of the buffer is part of the refinement.
-/
namespace Ratfist.FrameScan

open CString CheckedArray Constants Assembler

/-- A message is complete when at least ten bytes have arrived and the last two are CR LF. -/
def Complete (seg : List Byte) : Prop :=
  10 ≤ seg.length ∧ seg[seg.length - 2]? = some cr ∧ seg[seg.length - 1]? = some lf

instance (seg : List Byte) : Decidable (Complete seg) := inferInstanceAs (Decidable (_ ∧ _))

/-- The bytes in front of the separator, the checksum and CR LF. -/
def body (seg : List Byte) : List Byte := seg.take (seg.length - 5)

def readChecksum (seg : List Byte) : StrtoulResult :=
  strtoul 16 ((seg.drop (seg.length - 4)).take 2)

def Accepted (seg : List Byte) : Prop :=
  seg[seg.length - 5]? = some star ∧ (readChecksum seg).consumed = 2 ∧
    (readChecksum seg).value = (xorBytes (body seg)).toNat

instance (seg : List Byte) : Decidable (Accepted seg) := inferInstanceAs (Decidable (_ ∧ _))

def verdict (seg : List Byte) : RxEvent :=
  if Accepted seg then .delivered (body seg ++ [0]) else .scheduled rxChecksumError

/-- `none` between messages, otherwise the bytes since the last '$'. -/
abbrev Scan := Option (List Byte)

def scanStep (n : ℕ) (s : Scan) (ch : Byte) : Scan × List RxEvent :=
  if ch = dollar then (some [], [])
  else match s with
    | none => (none, [])
    | some seg =>
      if Complete (seg ++ [ch]) then (none, [verdict (seg ++ [ch])])
      else if n ≤ seg.length + 1 then (none, [.scheduled messageTooLongError])
      else (some (seg ++ [ch]), [])

def scan (n : ℕ) (s : Scan) : List Byte → Scan × List RxEvent
  | [] => (s, [])
  | ch :: bytes =>
    let (s, events) := scanStep n s ch
    let (s, later) := scan n s bytes
    (s, events ++ later)

/-- The buffer holds the bytes since the last '$', and there is room for one more. -/
def Refines {n : ℕ} {σ : Type} (ctx : RxWorkerContext n σ) : Scan → Prop
  | none => ctx.msgIsIncoming = false ∧ ctx.posInBuf = 0 ∧ 0 < n
  | some seg => ctx.msgIsIncoming = true ∧ ctx.posInBuf = seg.length ∧ seg.length < n ∧
      Holds ctx.incomingMsgBuf seg

variable {n : ℕ} {σ : Type}

theorem Refines.posInBuf_lt {ctx : RxWorkerContext n σ} {s : Scan} (h : Refines ctx s) :
    ctx.posInBuf < n := by
  cases s with
  | none => exact h.2.1 ▸ h.2.2
  | some seg => exact h.2.1 ▸ h.2.2.1

theorem refines_init (hn : 0 < n) (buf : Vector Byte n) (subsystems : σ) :
    Refines (dispatcherInit buf subsystems) none := ⟨rfl, rfl, hn⟩

private theorem set_drop (seg : List Byte) (h : 10 ≤ seg.length) :
    (seg.set (seg.length - 2) 0).drop (seg.length - 4) =
      (seg.drop (seg.length - 4)).take 2 ++ 0 :: seg.drop (seg.length - 1) := by
  rw [List.set_eq_take_append_cons_drop, if_pos (by omega),
    List.drop_append_of_le_length (by rw [List.length_take]; omega), List.drop_take,
    show seg.length - 2 - (seg.length - 4) = 2 by omega,
    show seg.length - 2 + 1 = seg.length - 1 by omega]

private theorem set_take (seg : List Byte) (h : 10 ≤ seg.length) :
    ((seg.set (seg.length - 2) 0).set (seg.length - 5) 0).take (seg.length - 4) =
      body seg ++ [0] := by
  rw [List.take_set, List.take_set_of_le (by omega),
    show seg.length - 4 = seg.length - 5 + 1 by omega,
    List.take_succ_eq_append_getElem (by omega),
    List.set_append_right _ _ (by rw [List.length_take]; omega)]
  have hlen : (seg.take (seg.length - 5)).length = seg.length - 5 := by
    rw [List.length_take]
    omega
  rw [hlen, Nat.sub_self]
  rfl

theorem endsInCrLf_eq (buf : Vector Byte n) (seg : List Byte) (hbuf : Holds buf seg) :
    endsInCrLf buf seg.length = some (decide (Complete seg)) := by
  unfold endsInCrLf Complete
  by_cases hlen : 10 ≤ seg.length
  · rw [if_pos hlen, sub_of_le (by omega), sub_of_le (by omega)]
    have h2 : seg.length - 2 < seg.length := by omega
    have h1 : seg.length - 1 < seg.length := by omega
    simp only [Option.bind_eq_bind, Option.bind_some, hbuf.read h2, hbuf.read h1,
      List.getElem?_eq_getElem h2, List.getElem?_eq_getElem h1, hlen, true_and, Option.some.injEq]
    by_cases hc : seg[seg.length - 2] = cr
    · by_cases hl : seg[seg.length - 1] = lf <;> simp [hc, hl]
    · simp [hc]
  · simp [hlen]

theorem checksumMatches_eq (buf : Vector Byte n) (seg : List Byte) (h : 10 ≤ seg.length)
    (hbuf : Holds buf (seg.set (seg.length - 2) 0)) :
    checksumMatches buf seg.length =
      some (decide ((readChecksum seg).consumed = 2 ∧
        (readChecksum seg).value = (xorBytes (body seg)).toNat)) := by
  have hn := hbuf.length_le
  rw [List.length_set] at hn
  have hread : strtoul 16 (buf.toList.drop (seg.length - 4)) = readChecksum seg := by
    rw [hbuf.drop (by rw [List.length_set]; omega), set_drop seg h, List.append_assoc,
      List.cons_append, strtoul_append_nul 16 (by omega)]
    rfl
  have hbody : buf.toList.take (seg.length - 5) = body seg := by
    rw [hbuf.take (by rw [List.length_set]; omega), List.take_set_of_le (by omega)]
    rfl
  unfold checksumMatches
  rw [sub_of_le (by omega), sub_of_le (by omega), sub_of_le (by omega)]
  simp only [Option.bind_eq_bind, Option.bind_some, hread,
    calcChecksum_eq buf.toList (seg.length - 5) (by rw [Vector.length_toList]; omega), hbody]
  by_cases hc : (readChecksum seg).consumed = 2
  · rw [if_neg (by omega)]
    simp [hc, beq_eq_decide]
  · rw [if_pos (by omega)]
    simp [hc]

/-- A complete message in the buffer is judged; the scanner is idle afterwards. -/
theorem finishMessage_spec (process : Vector Byte n → σ → Vector Byte n × σ)
    (ctx : RxWorkerContext n σ) (seg : List Byte) (h : 10 ≤ seg.length)
    (hbuf : Holds ctx.incomingMsgBuf seg) (hpos : ctx.posInBuf = 0)
    (hflag : ctx.msgIsIncoming = false) :
    ∃ ctx', finishMessage process ctx seg.length = some (ctx', [verdict seg]) ∧
      Refines ctx' none := by
  have hn : seg.length ≤ n := hbuf.length_le
  have h5 : seg.length - 5 < seg.length := by omega
  have hread : read ctx.incomingMsgBuf (seg.length - 5) = some seg[seg.length - 5] := hbuf.read h5
  have hstar : seg[seg.length - 5]? = some star ↔ seg[seg.length - 5] = star := by
    rw [List.getElem?_eq_getElem h5, Option.some.injEq]
  unfold finishMessage
  rw [sub_of_le (by omega), sub_of_le (by omega), sub_of_le (by omega)]
  simp only [Option.bind_eq_bind, Option.bind_some, hread, Option.pure_def]
  by_cases hs : seg[seg.length - 5] = star
  · have hw := hbuf.set 0 (i := seg.length - 2) (by omega)
    rw [if_neg (by simpa using hs), write_of_lt _ _ (by omega)]
    simp only [Option.bind_some, checksumMatches_eq _ seg h hw]
    by_cases hcsum : (readChecksum seg).consumed = 2 ∧
        (readChecksum seg).value = (xorBytes (body seg)).toNat
    · have hv : verdict seg = .delivered (body seg ++ [0]) := by
        rw [verdict, if_pos ⟨hstar.mpr hs, hcsum⟩]
      have hmsg := (hw.set 0 (i := seg.length - 5) (by omega)).take (k := seg.length - 4)
        (by rw [List.length_set, List.length_set]; omega)
      rw [set_take seg h] at hmsg
      -- the overflow test runs after a delivery too, with the position already reset
      simp only [hcsum, and_self, decide_true, if_true,
        write_of_lt _ _ (show seg.length - 5 < n by omega),
        Option.bind_some, checkOverflow, hpos, hmsg, hv, if_neg (show ¬ n ≤ 0 by omega)]
      exact ⟨_, rfl, hflag, rfl, by omega⟩
    · have hv : verdict seg = .scheduled rxChecksumError := by
        rw [verdict, if_neg (fun hacc => hcsum hacc.2)]
      simp only [hcsum, decide_false, Bool.false_eq_true, if_false, hv]
      exact ⟨_, rfl, hflag, hpos, by omega⟩
  · have hv : verdict seg = .scheduled rxChecksumError := by
      rw [verdict, if_neg (fun hacc => hs (hstar.mp hacc.1))]
    rw [if_pos (by simpa using hs), hv]
    exact ⟨_, rfl, hflag, hpos, by omega⟩

/-- One call follows one step of the scanner, without leaving the buffer. -/
theorem step_refines (process : Vector Byte n → σ → Vector Byte n × σ)
    (ctx : RxWorkerContext n σ) (s : Scan) (h : Refines ctx s) (ch : Byte) :
    ∃ ctx', assembleIncomingMessage process ctx (some ch) =
        some (ctx', (scanStep n s ch).2) ∧ Refines ctx' (scanStep n s ch).1 := by
  have hn : 0 < n := Nat.lt_of_le_of_lt (Nat.zero_le _) h.posInBuf_lt
  simp only [assembleIncomingMessage, scanStep]
  by_cases hd : ch = dollar
  · rw [if_pos hd, if_pos hd]
    exact ⟨_, rfl, rfl, rfl, hn, Holds.nil _⟩
  · rw [if_neg hd, if_neg hd]
    cases s with
    | none =>
      rw [h.1]
      exact ⟨ctx, rfl, h⟩
    | some seg =>
      obtain ⟨hflag, hpos, hlt, hbuf⟩ := h
      have hpush := hbuf.push ch hlt
      have hlen : (seg ++ [ch]).length = seg.length + 1 := by simp
      have hcomplete := endsInCrLf_eq _ _ hpush
      rw [hlen] at hcomplete
      simp only [hflag, hpos, Bool.not_true, Bool.false_eq_true, if_false, Option.bind_eq_bind,
        write_of_lt _ _ hlt, Option.bind_some, hcomplete, Option.pure_def]
      by_cases hc : Complete (seg ++ [ch])
      · obtain ⟨ctx', hfin, href⟩ := finishMessage_spec process
          ⟨ctx.incomingMsgBuf.set seg.length ch hlt, 0, false, ctx.subsystems⟩ (seg ++ [ch])
          hc.1 hpush rfl rfl
        rw [hlen] at hfin
        simp only [hc, decide_true, if_true]
        exact ⟨ctx', hfin, href⟩
      · simp only [hc, decide_false, Bool.false_eq_true, if_false, checkOverflow]
        by_cases hfull : n ≤ seg.length + 1
        · simp only [hfull, if_true]
          exact ⟨_, rfl, rfl, rfl, hn⟩
        · simp only [hfull, if_false]
          exact ⟨_, rfl, rfl, hlen.symm, by rw [hlen]; omega, hpush⟩

/-- Over a whole stream the assembler reports what the scanner reports. -/
theorem feed_refines (process : Vector Byte n → σ → Vector Byte n × σ)
    (ctx : RxWorkerContext n σ) (s : Scan) (h : Refines ctx s) (bytes : List Byte) :
    ∃ ctx', feed process ctx bytes = some (ctx', (scan n s bytes).2) ∧
      Refines ctx' (scan n s bytes).1 := by
  induction bytes generalizing ctx s with
  | nil => exact ⟨ctx, rfl, h⟩
  | cons ch bytes ih =>
    obtain ⟨ctx₁, hstep, h₁⟩ := step_refines process ctx s h ch
    obtain ⟨ctx₂, hfeed, h₂⟩ := ih ctx₁ (scanStep n s ch).1 h₁
    refine ⟨ctx₂, ?_, h₂⟩
    simp only [feed, hstep, Option.bind_eq_bind, Option.bind_some, hfeed, Option.pure_def, scan]

theorem feed_init (hn : 0 < n) (process : Vector Byte n → σ → Vector Byte n × σ)
    (buf : Vector Byte n) (subsystems : σ) (bytes : List Byte) :
    ∃ ctx', feed process (dispatcherInit buf subsystems) bytes =
        some (ctx', (scan n none bytes).2) ∧ Refines ctx' (scan n none bytes).1 :=
  feed_refines process _ none (refines_init hn buf subsystems) bytes

theorem scan_append (n : ℕ) (s : Scan) (a b : List Byte) :
    scan n s (a ++ b) =
      ((scan n (scan n s a).1 b).1, (scan n s a).2 ++ (scan n (scan n s a).1 b).2) := by
  induction a generalizing s with
  | nil => rfl
  | cons ch a ih => simp only [List.cons_append, scan, ih, List.append_assoc]

/-- A '$' starts over from every state. -/
theorem scan_dollar (n : ℕ) (s : Scan) (bytes : List Byte) :
    scan n s (dollar :: bytes) = scan n (some []) bytes := by
  simp [scan, scanStep]

/-- Between messages every byte but '$' is ignored. -/
theorem scan_idle (n : ℕ) (bytes : List Byte) (h : dollar ∉ bytes) :
    scan n none bytes = (none, []) := by
  induction bytes with
  | nil => rfl
  | cons ch bytes ih =>
    obtain ⟨hch, hrest⟩ : dollar ≠ ch ∧ dollar ∉ bytes := by simpa using h
    simp [scan, scanStep, Ne.symm hch, ih hrest]

/-- No prefix of these bytes is a complete message. -/
def Unfinished (seg : List Byte) : Prop := ∀ k, k ≤ seg.length → ¬ Complete (seg.take k)

theorem unfinished_nil : Unfinished [] := by
  rintro k - ⟨h, -⟩
  simp at h

theorem Unfinished.snoc {seg : List Byte} (h : Unfinished seg) (ch : Byte)
    (hch : ¬ Complete (seg ++ [ch])) : Unfinished (seg ++ [ch]) := by
  intro k hk
  rcases Nat.lt_or_ge seg.length k with hlt | hle
  · rwa [List.take_of_length_le (by simp; omega)]
  · rw [List.take_append_of_le_length hle]
    exact h k hle

/-- What the bytes after a '$' come to: nothing so far, the verdict on the first
complete prefix, or an overflow at the n-th byte. -/
inductive Outcome (n : ℕ) (seg : List Byte) : Scan × List RxEvent → Prop
  | pending (hlen : seg.length < n) (hun : Unfinished seg) : Outcome n seg (some seg, [])
  | judged (k : ℕ) (hk : k ≤ seg.length) (hn : k ≤ n) (hc : Complete (seg.take k))
      (hun : ∀ j < k, ¬ Complete (seg.take j)) : Outcome n seg (none, [verdict (seg.take k)])
  | tooLong (hlen : n ≤ seg.length) (hun : ∀ j ≤ n, ¬ Complete (seg.take j)) :
      Outcome n seg (none, [.scheduled messageTooLongError])

private theorem outcome_from (n : ℕ) (seg bytes : List Byte) (hlen : seg.length < n)
    (hun : Unfinished seg) (hb : dollar ∉ bytes) :
    Outcome n (seg ++ bytes) (scan n (some seg) bytes) := by
  induction bytes generalizing seg with
  | nil =>
    rw [List.append_nil]
    exact .pending hlen hun
  | cons ch bytes ih =>
    obtain ⟨hch, hrest⟩ : dollar ≠ ch ∧ dollar ∉ bytes := by simpa using hb
    have htake : (seg ++ ch :: bytes).take (seg.length + 1) = seg ++ [ch] := by
      rw [List.take_append, List.take_of_length_le (Nat.le_succ _)]
      simp
    have hbefore : ∀ j < seg.length + 1, ¬ Complete ((seg ++ ch :: bytes).take j) := by
      intro j hj
      rw [List.take_append_of_le_length (by omega)]
      exact hun j (by omega)
    by_cases hc : Complete (seg ++ [ch])
    · have hscan : scan n (some seg) (ch :: bytes) = (none, [verdict (seg ++ [ch])]) := by
        simp [scan, scanStep, Ne.symm hch, hc, scan_idle n bytes hrest]
      rw [hscan, ← htake]
      exact .judged _ (by simp) hlen (by rwa [htake]) hbefore
    · by_cases hfull : n ≤ seg.length + 1
      · have hscan : scan n (some seg) (ch :: bytes) =
            (none, [.scheduled messageTooLongError]) := by
          simp [scan, scanStep, Ne.symm hch, hc, hfull, scan_idle n bytes hrest]
        rw [hscan]
        refine .tooLong (by simp; omega) ?_
        intro j hj
        rcases Nat.lt_or_ge seg.length j with hlt | hle
        · rwa [show j = seg.length + 1 by omega, htake]
        · exact hbefore j (by omega)
      · have hscan : scan n (some seg) (ch :: bytes) = scan n (some (seg ++ [ch])) bytes := by
          simp [scan, scanStep, Ne.symm hch, hc, hfull]
        have happ : seg ++ ch :: bytes = (seg ++ [ch]) ++ bytes := by simp
        rw [hscan, happ]
        exact ih (seg ++ [ch]) (by simp; omega) (hun.snoc ch hc) hrest

/-- From any state, the bytes after a '$' come to one outcome. -/
theorem scan_outcome (n : ℕ) (hn : 0 < n) (s : Scan) (seg : List Byte) (h : dollar ∉ seg) :
    Outcome n seg (scan n s (dollar :: seg)) := by
  rw [scan_dollar]
  exact outcome_from n [] seg hn unfinished_nil h

/-- A message that fits is judged with its last byte. -/
theorem scan_complete {n : ℕ} {s : Scan} {seg : List Byte} (hd : dollar ∉ seg)
    (hn : seg.length ≤ n) (hc : Complete seg)
    (hfirst : ∀ k < seg.length, ¬ Complete (seg.take k)) :
    scan n s (dollar :: seg) = (none, [verdict seg]) := by
  have hlen : 10 ≤ seg.length := hc.1
  have hself : seg.take seg.length = seg := List.take_length
  have hout := scan_outcome n (by omega) s seg hd
  generalize scan n s (dollar :: seg) = r at hout
  cases hout with
  | pending hlt hun => exact absurd hc (hself ▸ hun _ (Nat.le_refl _))
  | judged k hk hkn hck hun =>
    have hke : k = seg.length := by
      by_contra hne
      exact hfirst k (by omega) hck
    rw [hke, hself]
  | tooLong hle hun => exact absurd hc (hself ▸ hun _ hn)

/-- Bytes that fill the buffer before a message is complete are reported as too long. -/
theorem scan_tooLong {n : ℕ} (hpos : 0 < n) {s : Scan} {seg : List Byte} (hd : dollar ∉ seg)
    (hn : n ≤ seg.length) (hun : ∀ k ≤ n, ¬ Complete (seg.take k)) :
    scan n s (dollar :: seg) = (none, [.scheduled messageTooLongError]) := by
  have hout := scan_outcome n hpos s seg hd
  generalize scan n s (dollar :: seg) = r at hout
  cases hout with
  | pending hlt _ => omega
  | judged k _ hkn hck _ => exact absurd hck (hun k hkn)
  | tooLong _ _ => rfl

theorem verdict_ne_tooLong (seg : List Byte) : verdict seg ≠ .scheduled messageTooLongError := by
  unfold verdict
  split_ifs
  · simp
  · simp [rxChecksumError, messageTooLongError]

/-- A prefix is complete exactly when a CR LF ends there, at position ten or later. -/
theorem complete_take_iff (seg : List Byte) (k : ℕ) (hk : k ≤ seg.length) :
    Complete (seg.take k) ↔ 10 ≤ k ∧ seg[k - 2]? = some cr ∧ seg[k - 1]? = some lf := by
  unfold Complete
  rw [List.length_take, Nat.min_eq_left hk]
  constructor
  · rintro ⟨h, h2, h1⟩
    rw [List.getElem?_take_of_lt (by omega)] at h2 h1
    exact ⟨h, h2, h1⟩
  · rintro ⟨h, h2, h1⟩
    rw [List.getElem?_take_of_lt (by omega), List.getElem?_take_of_lt (by omega)]
    exact ⟨h, h2, h1⟩

end Ratfist.FrameScan
