import Ratfist.StreamOutcomes

/-!
Frames through the receive worker. A frame that arrives whole is handed on with
exactly its payload; a frame cut anywhere and followed by the next '$' leaves no
trace. Both hold from every state the worker can be in.
-/
namespace Ratfist.FrameRoundTrip

open CString CheckedArray Constants Assembler FrameScan

/-- '$', the payload, '*', its checksum in hexadecimal, CR LF. -/
def frame (payload : List Byte) : List Byte :=
  dollar :: (payload ++ star :: (hex2 (xorBytes payload) ++ [cr, lf]))

theorem frame_length (payload : List Byte) : (frame payload).length = payload.length + 6 := by
  simp [frame, hex2]

structure Sendable (n : ℕ) (payload : List Byte) : Prop where
  no_dollar : dollar ∉ payload
  no_crlf : ∀ i, ¬ (payload[i]? = some cr ∧ payload[i + 1]? = some lf)
  length_ge : 5 ≤ payload.length
  fits : (frame payload).length ≤ n

/-- What the line carries for one payload: the whole frame and then bytes other
than '$', or only the first bytes of the frame. -/
inductive Sent (n : ℕ)
  | whole (payload : List Byte) (hp : Sendable n payload) (noise : List Byte)
      (hnoise : dollar ∉ noise)
  | cut (payload : List Byte) (hp : Sendable n payload) (kept : ℕ)
      (hkept : kept < (frame payload).length)

namespace Sent

variable {n : ℕ}

def bytes : Sent n → List Byte
  | whole payload _ noise _ => frame payload ++ noise
  | cut payload _ kept _ => (frame payload).take kept

def payload? : Sent n → Option (List Byte)
  | whole payload _ _ _ => some payload
  | cut _ _ _ _ => none

end Sent

def tailBytes (payload : List Byte) : List Byte :=
  payload ++ star :: (hex2 (xorBytes payload) ++ [cr, lf])

theorem tailBytes_length (payload : List Byte) :
    (tailBytes payload).length = payload.length + 5 := by
  simp [tailBytes, hex2]

theorem hexDigit_plain (n : ℕ) (h : n < 16) :
    hexDigit n ≠ dollar ∧ hexDigit n ≠ cr ∧ hexDigit n ≠ lf := by
  have hall : ∀ i : Fin 16, hexDigit i ≠ dollar ∧ hexDigit i ≠ cr ∧ hexDigit i ≠ lf := by decide
  exact hall ⟨n, h⟩

theorem hex2_plain (b : Byte) : ∀ d ∈ hex2 b, d ≠ dollar ∧ d ≠ lf := by
  have hb : b.toNat < 256 := b.toNat_lt
  intro d hd
  simp only [hex2, List.mem_cons, List.not_mem_nil, or_false] at hd
  rcases hd with rfl | rfl
  · exact ⟨(hexDigit_plain _ (by omega)).1, (hexDigit_plain _ (by omega)).2.2⟩
  · exact ⟨(hexDigit_plain _ (by omega)).1, (hexDigit_plain _ (by omega)).2.2⟩

theorem dollar_notMem_tail {n : ℕ} {payload : List Byte} (h : Sendable n payload) :
    dollar ∉ tailBytes payload := by
  have hhex : dollar ∉ hex2 (xorBytes payload) := fun hm => (hex2_plain _ _ hm).1 rfl
  simp [tailBytes, h.no_dollar, hhex, show dollar ≠ star by decide, show dollar ≠ cr by decide,
    show dollar ≠ lf by decide]

/-- The line feed that ends a frame is the only one behind a carriage return. -/
theorem not_complete_of_lt {n : ℕ} {payload : List Byte} (h : Sendable n payload) (k : ℕ)
    (hk : k < (tailBytes payload).length) : ¬ Complete ((tailBytes payload).take k) := by
  rw [complete_take_iff _ _ (Nat.le_of_lt hk)]
  rintro ⟨h10, hcr, hlf⟩
  rw [tailBytes_length] at hk
  rcases Nat.lt_or_ge (k - 1) payload.length with hin | hout
  · apply h.no_crlf (k - 2)
    rw [tailBytes, List.getElem?_append_left (by omega)] at hcr hlf
    rw [show k - 2 + 1 = k - 1 by omega]
    exact ⟨hcr, hlf⟩
  · rw [tailBytes, List.getElem?_append_right hout] at hlf
    have hpos : k - 1 - payload.length < 4 := by omega
    have hb : (xorBytes payload).toNat < 256 := (xorBytes payload).toNat_lt
    have hd := (hexDigit_plain ((xorBytes payload).toNat / 16) (by omega)).2.2
    have hd' := (hexDigit_plain ((xorBytes payload).toNat % 16) (by omega)).2.2
    generalize k - 1 - payload.length = i at hpos hlf
    match i, hpos with
    | 0, _ => exact absurd (Option.some.inj hlf) (by decide)
    | 1, _ => exact hd (Option.some.inj hlf)
    | 2, _ => exact hd' (Option.some.inj hlf)
    | 3, _ => exact absurd (Option.some.inj hlf) (by decide)

theorem complete_tail (payload : List Byte) (h : 5 ≤ payload.length) :
    Complete (tailBytes payload) := by
  have hlen := tailBytes_length payload
  refine ⟨by omega, ?_, ?_⟩
  · rw [hlen, tailBytes, List.getElem?_append_right (by omega),
      show payload.length + 5 - 2 - payload.length = 3 by omega]
    rfl
  · rw [hlen, tailBytes, List.getElem?_append_right (by omega),
      show payload.length + 5 - 1 - payload.length = 4 by omega]
    rfl

theorem body_tail (payload : List Byte) : body (tailBytes payload) = payload := by
  rw [body, tailBytes_length, Nat.add_sub_cancel, tailBytes, List.take_left]

theorem readChecksum_tail (payload : List Byte) :
    readChecksum (tailBytes payload) = ⟨(xorBytes payload).toNat, 2, false⟩ := by
  rw [readChecksum, tailBytes_length, show payload.length + 5 - 4 = payload.length + 1 by omega,
    tailBytes, List.drop_append, List.drop_of_length_le (Nat.le_succ _), Nat.add_sub_cancel_left]
  exact strtoul_hex2 _

/-- A whole frame passes the checksum test, and its body is the payload. -/
theorem verdict_tail (payload : List Byte) :
    verdict (payload ++ star :: (hex2 (xorBytes payload) ++ [cr, lf])) =
      .delivered (payload ++ [0]) := by
  change verdict (tailBytes payload) = _
  have hbody := body_tail payload
  have hcsum := readChecksum_tail payload
  have hstar : (tailBytes payload)[(tailBytes payload).length - 5]? = some star := by
    rw [tailBytes_length, Nat.add_sub_cancel, tailBytes,
      List.getElem?_append_right (Nat.le_refl _), Nat.sub_self]
    rfl
  rw [verdict, if_pos ⟨hstar, by rw [hcsum], by rw [hcsum, hbody]⟩, hbody]

/-- The scanner takes one byte more than the limit says, as it does not store the '$'. -/
theorem scan_frame_limit {m n : ℕ} (hn : 0 < n) {payload : List Byte} (h : Sendable m payload)
    (s : Scan) :
    scan n s (frame payload) = (none, [if (frame payload).length ≤ n + 1
      then .delivered (payload ++ [0]) else .scheduled messageTooLongError]) := by
  have hlen := tailBytes_length payload
  have hframe := frame_length payload
  change scan n s (dollar :: tailBytes payload) = _
  split_ifs with hfits
  · rw [scan_complete (dollar_notMem_tail h) (by omega) (complete_tail payload h.length_ge)
      (not_complete_of_lt h), tailBytes, verdict_tail]
  · exact scan_tooLong hn (dollar_notMem_tail h) (by omega)
      fun k hk => not_complete_of_lt h k (by omega)

theorem scan_frame {n : ℕ} {payload : List Byte} (h : Sendable n payload) (s : Scan) :
    scan n s (frame payload) = (none, [.delivered (payload ++ [0])]) := by
  have hpos := frame_length payload
  have hfits := h.fits
  rw [scan_frame_limit (by omega) h, if_pos (by omega)]

theorem scan_cut {n : ℕ} {payload : List Byte} (h : Sendable n payload) (s : Scan) (kept : ℕ)
    (hk : kept < (frame payload).length) : (scan n s ((frame payload).take kept)).2 = [] := by
  have hlen := tailBytes_length payload
  have hfits : payload.length + 6 ≤ n := frame_length payload ▸ h.fits
  cases kept with
  | zero => rfl
  | succ j =>
    change (scan n s (dollar :: (tailBytes payload).take j)).2 = []
    have hj : j < (tailBytes payload).length := Nat.lt_of_succ_lt_succ hk
    have htake : ((tailBytes payload).take j).length = j := by
      rw [List.length_take]
      omega
    have hout := scan_outcome n (by omega) s ((tailBytes payload).take j)
      (fun hm => dollar_notMem_tail h (List.mem_of_mem_take hm))
    generalize scan n s (dollar :: (tailBytes payload).take j) = r at hout
    cases hout with
    | pending hlt hun => rfl
    | judged i hi hn hc hun =>
      rw [List.take_take, Nat.min_eq_left (by omega)] at hc
      exact absurd hc (not_complete_of_lt h i (by omega))
    | tooLong hle hun => omega

/-- The scanner recovers exactly the uncut payloads, from any state. -/
theorem scan_sent {n : ℕ} (s : Scan) (sent : List (Sent n)) :
    (scan n s (sent.flatMap Sent.bytes)).2 =
      (sent.filterMap Sent.payload?).map (fun p => .delivered (p ++ [0])) := by
  induction sent generalizing s with
  | nil => rfl
  | cons f sent ih =>
    rw [List.flatMap_cons, scan_append, ih (scan n s f.bytes).1]
    cases f with
    | whole payload hp noise hnoise =>
      simp only [Sent.bytes, scan_append, scan_frame hp, scan_idle n noise hnoise, List.append_nil,
        List.filterMap_cons, Sent.payload?, List.map_cons, List.singleton_append]
    | cut payload hp kept hkept =>
      rw [Sent.bytes, scan_cut hp s kept hkept]
      rfl

/-- After any earlier stream, the worker hands on the payloads of the uncut frames,
unchanged, NUL-terminated and in order, and reports nothing. -/
theorem frames_survive_truncation {σ : Type} (b : Board)
    (process : Vector Byte b.bspMaxMessageLength → σ → Vector Byte b.bspMaxMessageLength × σ)
    (buf : Vector Byte b.bspMaxMessageLength) (subsystems : σ) (earlier : List Byte)
    (sent : List (Sent b.bspMaxMessageLength)) :
    ∃ ctx₀ ctx before, feed process (dispatcherInit buf subsystems) earlier = some (ctx₀, before) ∧
      feed process ctx₀ (sent.flatMap Sent.bytes) =
        some (ctx, (sent.filterMap Sent.payload?).map (fun p => .delivered (p ++ [0]))) := by
  have hn : 0 < b.bspMaxMessageLength := by cases b <;> decide
  obtain ⟨ctx₀, hpre, href⟩ := feed_init hn process buf subsystems earlier
  obtain ⟨ctx, hfeed, -⟩ := feed_refines process ctx₀ _ href (sent.flatMap Sent.bytes)
  rw [scan_sent _ sent] at hfeed
  exact ⟨ctx₀, ctx, _, hpre, hfeed⟩

end Ratfist.FrameRoundTrip
