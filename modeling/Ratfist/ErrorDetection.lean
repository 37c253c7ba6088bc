import Ratfist.FrameRoundTrip

/-!
A frame in which one byte behind the '$' has changed. The checksum of the payload changes
with every single byte of it, and a frame ends in the only CR LF of its bytes, so no other
payload than the one that was sent is handed on.
-/
namespace Ratfist.ErrorDetection

open CString CheckedArray Constants Assembler FrameScan FrameRoundTrip

theorem foldl_xor_set (bytes : List Byte) {i : ℕ} (hi : i < bytes.length) (c a : Byte) :
    (bytes.set i c).foldl (· ^^^ ·) a = bytes.foldl (· ^^^ ·) a ^^^ (bytes[i] ^^^ c) := by
  induction bytes generalizing i a with
  | nil => exact absurd hi (Nat.not_lt_zero _)
  | cons x bytes ih =>
    cases i with
    | zero =>
      have hmove (y : Byte) : bytes.foldl (· ^^^ ·) (a ^^^ y) =
          bytes.foldl (· ^^^ ·) a ^^^ y := by
        rw [UInt8.xor_comm a y, List.foldl_assoc, UInt8.xor_comm]
      rw [List.set_cons_zero, List.foldl_cons, List.foldl_cons, List.getElem_cons_zero, hmove c,
        hmove x, UInt8.xor_assoc, ← UInt8.xor_assoc x x c, UInt8.xor_self, UInt8.zero_xor]
    | succ i => exact ih (Nat.lt_of_succ_lt_succ hi) (a ^^^ x)

/-- No change of a single byte keeps the checksum. -/
theorem xorBytes_set_ne {bytes : List Byte} {i : ℕ} (hi : i < bytes.length) {c : Byte}
    (hc : bytes[i] ≠ c) : xorBytes (bytes.set i c) ≠ xorBytes bytes := by
  intro hsame
  apply hc
  rw [xorBytes, foldl_xor_set bytes hi] at hsame
  have hzero : bytes[i] ^^^ c = 0 := by
    rw [← UInt8.xor_right_inj (xorBytes bytes), UInt8.xor_zero]
    exact hsame
  exact UInt8.xor_eq_zero_iff.mp hzero

structure Plain (n : ℕ) (payload : List Byte) : Prop where
  no_dollar : dollar ∉ payload
  no_cr : cr ∉ payload
  no_lf : lf ∉ payload
  length_ge : 5 ≤ payload.length
  fits : (frame payload).length ≤ n

variable {n : ℕ} {payload : List Byte} {i k : ℕ} {c : Byte}

theorem Plain.sendable (h : Plain n payload) : Sendable n payload where
  no_dollar := h.no_dollar
  no_crlf _ hi := h.no_cr (List.mem_of_getElem? hi.1)
  length_ge := h.length_ge
  fits := h.fits

/-- In front of the end of a frame there is neither of its two bytes. -/
theorem Plain.front (h : Plain n payload) :
    cr ∉ payload ++ star :: hex2 (xorBytes payload) ∧
      lf ∉ payload ++ star :: hex2 (xorBytes payload) := by
  have hb : (xorBytes payload).toNat < 256 := (xorBytes payload).toNat_lt
  have hd := hexDigit_plain ((xorBytes payload).toNat / 16) (by omega)
  have hd' := hexDigit_plain ((xorBytes payload).toNat % 16) (by omega)
  constructor
  · simp [h.no_cr, hex2, hd.2.1.symm, hd'.2.1.symm, show cr ≠ star by decide]
  · simp [h.no_lf, hex2, hd.2.2.symm, hd'.2.2.symm, show lf ≠ star by decide]

/-- A byte that is not in front of the end of a frame. -/
theorem tail_end_iff {e : Byte} (he : e ∉ payload ++ star :: hex2 (xorBytes payload)) :
    (tailBytes payload)[k]? = some e ↔
      (k = payload.length + 3 ∧ e = cr) ∨ (k = payload.length + 4 ∧ e = lf) := by
  have hlen : (payload ++ star :: hex2 (xorBytes payload)).length = payload.length + 3 := by
    simp [hex2]
  have htail : tailBytes payload =
      (payload ++ star :: hex2 (xorBytes payload)) ++ [cr, lf] := by simp [tailBytes]
  rw [htail]
  rcases Nat.lt_or_ge k (payload.length + 3) with hin | hout
  · rw [List.getElem?_append_left (by omega)]
    exact iff_of_false (fun hk => he (List.mem_of_getElem? hk)) (by omega)
  · obtain ⟨d, rfl⟩ := Nat.exists_eq_add_of_le hout
    rw [List.getElem?_append_right (by omega), hlen, Nat.add_sub_cancel_left]
    rcases d with _ | _ | d
    · simp [eq_comm]
    · simp [eq_comm]
    · refine iff_of_false ?_ (by omega)
      simp

theorem Plain.cr_iff (h : Plain n payload) :
    (tailBytes payload)[k]? = some cr ↔ k = payload.length + 3 := by
  rw [tail_end_iff h.front.1]
  simp [show cr ≠ lf by decide]

theorem Plain.lf_iff (h : Plain n payload) :
    (tailBytes payload)[k]? = some lf ↔ k = payload.length + 4 := by
  rw [tail_end_iff h.front.2]
  simp [show lf ≠ cr by decide]

/-- Whatever byte has changed, a message can only end where the frame does. -/
theorem Plain.complete_set_iff (h : Plain n payload) (hi : i < payload.length + 5)
    (hc : (tailBytes payload)[i]? ≠ some c) (hk : k ≤ payload.length + 5) :
    Complete (((tailBytes payload).set i c).take k) ↔
      k = payload.length + 5 ∧ i < payload.length + 3 := by
  have hlen := tailBytes_length payload
  have hge := h.length_ge
  have hset (j : ℕ) : ((tailBytes payload).set i c)[j]? =
      if i = j then some c else (tailBytes payload)[j]? := by
    by_cases hj : i = j
    · rw [if_pos hj, ← hj, List.getElem?_set_self (by omega)]
    · rw [if_neg hj, List.getElem?_set_ne hj]
  rw [complete_take_iff _ _ (by rw [List.length_set]; omega), hset, hset]
  constructor
  · intro ⟨h10, hcr, hlf⟩
    by_cases hi2 : i = k - 2
    · rw [if_pos hi2] at hcr
      rw [if_neg (by omega)] at hlf
      have hend := h.lf_iff.mp hlf
      exact absurd ((h.cr_iff.mpr (by omega)).trans hcr.symm) hc
    · rw [if_neg hi2] at hcr
      have hend := h.cr_iff.mp hcr
      by_cases hi1 : i = k - 1
      · rw [if_pos hi1] at hlf
        exact absurd ((h.lf_iff.mpr (by omega)).trans hlf.symm) hc
      · omega
  · intro ⟨hwhole, hfront⟩
    refine ⟨by omega, ?_, ?_⟩
    · rw [if_neg (by omega)]
      exact h.cr_iff.mpr (by omega)
    · rw [if_neg (by omega)]
      exact h.lf_iff.mpr (by omega)

theorem body_set (payload : List Byte) (i : ℕ) (c : Byte) :
    body ((tailBytes payload).set i c) = payload.set i c := by
  rw [body, List.length_set, tailBytes_length, Nat.add_sub_cancel, List.take_set, tailBytes,
    List.take_left]

/-- In the payload or the separator no other byte is accepted. -/
theorem not_accepted_set (hi : i ≤ payload.length) (hc : (tailBytes payload)[i]? ≠ some c) :
    ¬ Accepted ((tailBytes payload).set i c) := by
  have hlen := tailBytes_length payload
  intro ⟨hstar, _, hvalue⟩
  rw [List.length_set, hlen, Nat.add_sub_cancel] at hstar
  rcases Nat.lt_or_eq_of_le hi with hin | rfl
  · have hsame : readChecksum ((tailBytes payload).set i c) = readChecksum (tailBytes payload) := by
      rw [readChecksum, List.length_set, List.drop_set_of_lt (by omega), readChecksum]
    rw [hsame, readChecksum_tail, body_set] at hvalue
    have hne : payload[i] ≠ c := by
      intro heq
      apply hc
      rw [tailBytes, List.getElem?_append_left hin, List.getElem?_eq_getElem hin, heq]
    exact xorBytes_set_ne hin hne (UInt8.toNat_inj.mp hvalue.symm)
  · rw [List.getElem?_set_self (by omega)] at hstar
    apply hc
    rw [hstar, tailBytes, List.getElem?_append_right (Nat.le_refl _), Nat.sub_self]
    rfl

/-- Behind the separator, only the payload itself can be handed on. -/
theorem verdict_set (hc : (tailBytes payload)[i]? ≠ some c) :
    (i ≤ payload.length ∧ verdict ((tailBytes payload).set i c) = .scheduled rxChecksumError) ∨
      (payload.length < i ∧ (verdict ((tailBytes payload).set i c) = .delivered (payload ++ [0]) ∨
        verdict ((tailBytes payload).set i c) = .scheduled rxChecksumError)) := by
  rcases Nat.lt_or_ge payload.length i with hout | hin
  · refine Or.inr ⟨hout, ?_⟩
    rw [verdict, body_set, List.set_eq_of_length_le (Nat.le_of_lt hout)]
    split_ifs
    · exact Or.inl rfl
    · exact Or.inr rfl
  · exact Or.inl ⟨hin, if_neg (not_accepted_set hin hc)⟩

theorem dollar_notMem_set {n : ℕ} (h : Plain n payload) (hdollar : c ≠ dollar) :
    dollar ∉ (tailBytes payload).set i c := by
  intro hmem
  rcases List.mem_or_eq_of_mem_set hmem with hold | hnew
  · exact dollar_notMem_tail h.sendable hold
  · exact hdollar hnew.symm

/-- What becomes of the frame, from any state of the scanner. -/
theorem Plain.scan_set (h : Plain n payload) (s : Scan) (hi : i < payload.length + 5)
    (hc : (tailBytes payload)[i]? ≠ some c) (hdollar : c ≠ dollar) :
    (scan n s (dollar :: (tailBytes payload).set i c)).2 =
      if i < payload.length + 3 then [verdict ((tailBytes payload).set i c)] else [] := by
  have hlen : ((tailBytes payload).set i c).length = payload.length + 5 := by
    rw [List.length_set, tailBytes_length]
  have hfits : payload.length + 6 ≤ n := frame_length payload ▸ h.fits
  have hnone := dollar_notMem_set h (i := i) hdollar
  by_cases hfront : i < payload.length + 3
  · have hwhole := (h.complete_set_iff hi hc (Nat.le_refl _)).mpr ⟨rfl, hfront⟩
    rw [← hlen, List.take_length] at hwhole
    rw [if_pos hfront, scan_complete hnone (by omega) hwhole]
    intro k hk hcomplete
    have hend := (h.complete_set_iff hi hc (by omega)).mp hcomplete
    omega
  · have hnever (k : ℕ) (hk : k ≤ payload.length + 5) :
        ¬ Complete (((tailBytes payload).set i c).take k) :=
      fun hcomplete => hfront ((h.complete_set_iff hi hc hk).mp hcomplete).2
    rw [if_neg hfront]
    have hout := scan_outcome n (by omega) s _ hnone
    generalize scan n s (dollar :: (tailBytes payload).set i c) = r at hout
    cases hout with
    | pending hlt hun => rfl
    | judged k hk hkn hcomplete hun => exact absurd hcomplete (hnever k (by omega))
    | tooLong hle hun => omega

/-- After any earlier stream, a frame in which one byte has changed hands on no other payload
than the one sent, and nothing but an error when the byte is not behind the separator. -/
theorem single_byte_errors_detected {σ : Type} (b : Board)
    (process : Vector Byte b.bspMaxMessageLength → σ → Vector Byte b.bspMaxMessageLength × σ)
    (buf : Vector Byte b.bspMaxMessageLength) (subsystems : σ) (earlier payload : List Byte)
    (h : Plain b.bspMaxMessageLength payload) (i : ℕ) (hpos : 0 < i)
    (hi : i < (frame payload).length) (c : Byte) (hc : (frame payload)[i]? ≠ some c)
    (hdollar : c ≠ dollar) :
    ∃ ctx₀ ctx before events,
      feed process (dispatcherInit buf subsystems) earlier = some (ctx₀, before) ∧
      feed process ctx₀ ((frame payload).set i c) = some (ctx, events) ∧
      (∀ msg, .delivered msg ∈ events → msg = payload ++ [0]) ∧
      (i ≤ payload.length + 1 → events = [.scheduled rxChecksumError]) := by
  have hn : 0 < b.bspMaxMessageLength := by cases b <;> decide
  obtain ⟨ctx₀, hpre, href⟩ := feed_init hn process buf subsystems earlier
  obtain ⟨ctx, hfeed, -⟩ := feed_refines process ctx₀ _ href ((frame payload).set i c)
  refine ⟨ctx₀, ctx, _, _, hpre, hfeed, ?_⟩
  obtain ⟨i, rfl⟩ := Nat.exists_eq_succ_of_ne_zero (Nat.ne_of_gt hpos)
  have hlen := frame_length payload
  have hc' : (tailBytes payload)[i]? ≠ some c := hc
  change (∀ msg, .delivered msg ∈ (scan _ _ (dollar :: (tailBytes payload).set i c)).2 → _) ∧
    (_ → (scan _ _ (dollar :: (tailBytes payload).set i c)).2 = _)
  rw [h.scan_set _ (by omega) hc' hdollar]
  rcases verdict_set hc' with ⟨hin, hverdict⟩ | ⟨hout, hverdict⟩
  · rw [if_pos (by omega), hverdict]
    refine ⟨?_, fun _ => rfl⟩
    intro msg hmsg
    simp at hmsg
  · refine ⟨?_, fun hsucc => absurd hsucc (by omega)⟩
    intro msg hmsg
    split_ifs at hmsg
    · have heq : verdict ((tailBytes payload).set i c) = .delivered msg :=
        (List.mem_singleton.mp hmsg).symm
      rcases hverdict with hsent | herror
      · exact RxEvent.delivered.inj (heq.symm.trans hsent)
      · exact absurd (heq.symm.trans herror) (by simp)
    · simp at hmsg

theorem flipped_digit_detected : ∃ ctx₀ ctx before events,
    feed (fun buf (_ : Unit) => (buf, ()))
        (dispatcherInit (Vector.replicate Board.stm32f072discovery.bspMaxMessageLength 0) ())
        (ascii "$junk") = some (ctx₀, before) ∧
      feed (fun buf (_ : Unit) => (buf, ())) ctx₀ ((frame (ascii "1,CHAN")).set 3 lf) =
        some (ctx, events) ∧
      (∀ msg, .delivered msg ∈ events → msg = ascii "1,CHAN" ++ [0]) ∧
      (3 ≤ (ascii "1,CHAN").length + 1 → events = [.scheduled rxChecksumError]) :=
  single_byte_errors_detected .stm32f072discovery _ _ () (ascii "$junk") (ascii "1,CHAN")
    ⟨by decide, by decide, by decide, by decide, by decide⟩ 3 (by decide) (by decide) lf
    (by decide) (by decide)

end Ratfist.ErrorDetection
