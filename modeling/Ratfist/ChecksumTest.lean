import Ratfist.FrameScan
import Ratfist.NumberText

/-!
The test of the checksum. It is made with `strtoul`, which also takes one digit behind
white space or a sign; apart from these checksums the worker accepts exactly the
messages that carry the XOR of their bytes in two hexadecimal digits.
-/
namespace Ratfist.ChecksumTest

open CString CheckedArray Constants Assembler FrameScan NumberText

def isHexDigit (b : Byte) : Bool :=
  (48 ≤ b && b ≤ 57) || (65 ≤ b && b ≤ 70) || (97 ≤ b && b ≤ 102)

/-- The bytes from a '$' to the first CR LF that ends at position ten or later. -/
structure Message (n : ℕ) (seg : List Byte) : Prop where
  no_dollar : dollar ∉ seg
  length_le : seg.length ≤ n
  complete : Complete seg
  first : ∀ k < seg.length, ¬ Complete (seg.take k)

/-- The separator, and two bytes of which `p` holds. -/
def Checksum (seg : List Byte) (p : Byte → Byte → Prop) : Prop :=
  seg[seg.length - 5]? = some star ∧
    ∃ hi lo, seg[seg.length - 4]? = some hi ∧ seg[seg.length - 3]? = some lo ∧ p hi lo

def TwoDigits (v : ℕ) (hi lo : Byte) : Prop :=
  isHexDigit hi ∧ isHexDigit lo ∧ 16 * digitVal hi + digitVal lo = v

/-- The value `v` in one hexadecimal digit behind white space or a sign; a minus sign
leaves only zero below 256. -/
def PaddedDigit (v : ℕ) (pad lo : Byte) : Prop :=
  (isSpace pad ∨ pad = 43 ∨ pad = 45 ∧ v = 0) ∧ isHexDigit lo ∧ digitVal lo = v

def Correct (seg : List Byte) : Prop := Checksum seg (TwoDigits (xorBytes (body seg)).toNat)

def Padded (seg : List Byte) : Prop := Checksum seg (PaddedDigit (xorBytes (body seg)).toNat)

/-- A correct message is delivered, any other is reported. -/
def JudgedBy (correct : Prop) (seg : List Byte) (events : List RxEvent) : Prop :=
  (correct → events = [.delivered (body seg ++ [0])]) ∧
    (¬ correct → events = [.scheduled rxChecksumError])

theorem isHexDigit_eq (b : Byte) : isHexDigit b = isDigit 16 b := by
  have hall : ∀ i : Fin 256, isHexDigit (UInt8.ofFin i) = isDigit 16 (UInt8.ofFin i) := by
    decide +kernel
  simpa using hall b.toFin

theorem digitsVal_pair (hi lo : Byte) :
    digitsVal 16 [hi, lo] = 16 * digitVal hi + digitVal lo := by
  simp [digitsVal]

theorem digitVal_lt {d : Byte} (h : isHexDigit d = true) : digitVal d < 16 := by
  rw [isHexDigit_eq] at h
  simpa [isDigit] using h

/-- A number of two bytes is two digits, or one digit behind a blank or a sign. -/
theorem spelled_pair {hi lo : Byte} {spaces sign digits : List Byte}
    (h : Spelled 16 [hi, lo] spaces sign digits) :
    (digits = [hi, lo] ∧ sign = []) ∨ (digits = [lo] ∧ sign = [] ∧ isSpace hi) ∨
      (digits = [lo] ∧ sign = [hi] ∧ (hi = 45 ∨ hi = 43)) := by
  have hsplit := h.split
  rcases spaces with _ | ⟨a, spaces⟩
  · rcases h.plusMinus with rfl | rfl | rfl
    · exact Or.inl ⟨hsplit.symm, rfl⟩
    · cases hsplit
      exact Or.inr (Or.inr ⟨rfl, rfl, Or.inl rfl⟩)
    · cases hsplit
      exact Or.inr (Or.inr ⟨rfl, rfl, Or.inr rfl⟩)
  · obtain ⟨rfl, hrest⟩ := List.cons.inj hsplit
    have hrest : [lo] = spaces ++ (sign ++ digits) := hrest
    have hlen := congrArg List.length hrest
    have hpos := List.length_pos_of_ne_nil h.nonempty
    simp only [List.length_append, List.length_singleton] at hlen
    obtain rfl := List.length_eq_zero_iff.mp (show spaces.length = 0 by omega)
    obtain rfl := List.length_eq_zero_iff.mp (show sign.length = 0 by omega)
    exact Or.inr (Or.inl ⟨hrest.symm, rfl, h.blank hi (by simp)⟩)

/-- What `strtoul` makes of the two checksum bytes. -/
theorem strtoul_pair (hi lo : Byte) (v : ℕ) (hv : v < 256) :
    ((strtoul 16 [hi, lo]).consumed = 2 ∧ (strtoul 16 [hi, lo]).value = v) ↔
      TwoDigits v hi lo ∨ PaddedDigit v hi lo := by
  have hmax : ulongMax = 2 ^ 32 - 1 := rfl
  have hbare (s : List Byte) (hs : s.length ≤ [hi, lo].length) : readPrefix 16 s = 0 := by
    rcases s with _ | ⟨z, _ | ⟨x, _ | ⟨d, ds⟩⟩⟩ <;> first | rfl | simp at hs
  constructor
  · rintro ⟨hread, hvalue⟩
    obtain ⟨spaces, sign, digits, h⟩ := spelled_of_read hbare hread (by omega)
    have hdigit (d : Byte) (hd : d ∈ digits) : isHexDigit d = true := by
      rw [isHexDigit_eq]
      exact h.isDigits d hd
    rw [strtoul_spelled (by omega) h] at hvalue
    rcases spelled_pair h with ⟨rfl, rfl⟩ | ⟨rfl, rfl, hspace⟩ | ⟨rfl, rfl, hsign⟩
    · have hhi := digitVal_lt (hdigit hi (by simp))
      have hlo := digitVal_lt (hdigit lo (by simp))
      rw [digitsVal_pair, if_neg (by omega)] at hvalue
      exact Or.inl ⟨hdigit hi (by simp), hdigit lo (by simp), hvalue⟩
    · have hlo := digitVal_lt (hdigit lo (by simp))
      have hone : digitsVal 16 [lo] = digitVal lo := by simp [digitsVal]
      rw [hone, if_neg (by omega)] at hvalue
      exact Or.inr ⟨Or.inl hspace, hdigit lo (by simp), hvalue⟩
    · have hlo := digitVal_lt (hdigit lo (by simp))
      have hone : digitsVal 16 [lo] = digitVal lo := by simp [digitsVal]
      rw [hone, if_neg (by omega)] at hvalue
      rcases hsign with rfl | rfl
      · have hvalue : (2 ^ 32 - digitVal lo) % 2 ^ 32 = v := hvalue
        have hzero : digitVal lo = 0 ∧ v = 0 := by omega
        exact Or.inr ⟨Or.inr (Or.inr ⟨rfl, hzero.2⟩), hdigit lo (by simp), by omega⟩
      · exact Or.inr ⟨Or.inr (Or.inl rfl), hdigit lo (by simp), hvalue⟩
  · have hone : digitsVal 16 [lo] = digitVal lo := by simp [digitsVal]
    rintro (⟨hhi, hlo, rfl⟩ | ⟨hpad, hlo, rfl⟩)
    · have hhi' := digitVal_lt hhi
      have hlo' := digitVal_lt hlo
      rw [isHexDigit_eq] at hhi hlo
      have h : Spelled 16 [hi, lo] [] [] [hi, lo] :=
        ⟨rfl, by simp, Or.inl rfl, by simp [hhi, hlo], by simp⟩
      rw [strtoul_spelled (by omega) h, digitsVal_pair, if_neg (by omega)]
      exact ⟨rfl, rfl⟩
    · have hlo' := digitVal_lt hlo
      rw [isHexDigit_eq] at hlo
      rcases hpad with hspace | rfl | ⟨rfl, hzero⟩
      · have h : Spelled 16 [hi, lo] [hi] [] [lo] :=
          ⟨rfl, by simpa using hspace, Or.inl rfl, by simp [hlo], by simp⟩
        rw [strtoul_spelled (by omega) h, hone, if_neg (by omega)]
        exact ⟨rfl, rfl⟩
      · have h : Spelled 16 [43, lo] [] [43] [lo] :=
          ⟨rfl, by simp, Or.inr (Or.inr rfl), by simp [hlo], by simp⟩
        rw [strtoul_spelled (by omega) h, hone, if_neg (by omega)]
        exact ⟨rfl, rfl⟩
      · have h : Spelled 16 [45, lo] [] [45] [lo] :=
          ⟨rfl, by simp, Or.inr (Or.inl rfl), by simp [hlo], by simp⟩
        rw [strtoul_spelled (by omega) h, hone, hzero, if_neg (by omega)]
        exact ⟨rfl, rfl⟩

/-- The test of the worker. -/
theorem accepted_iff {seg : List Byte} (h : Complete seg) :
    Accepted seg ↔ Correct seg ∨ Padded seg := by
  have hlen : 10 ≤ seg.length := h.1
  have hhi : seg.length - 4 < seg.length := by omega
  have hlo : seg.length - 3 < seg.length := by omega
  have hpair : (seg.drop (seg.length - 4)).take 2 =
      [seg[seg.length - 4], seg[seg.length - 3]] := by
    rw [List.drop_eq_getElem_cons hhi,
      List.drop_eq_getElem_cons (by omega : seg.length - 4 + 1 < seg.length)]
    simp only [show seg.length - 4 + 1 = seg.length - 3 by omega]
    rfl
  have hv : (xorBytes (body seg)).toNat < 256 := (xorBytes (body seg)).toNat_lt
  simp only [Accepted, Correct, Padded, Checksum, readChecksum, hpair, strtoul_pair _ _ _ hv,
    List.getElem?_eq_getElem hhi, List.getElem?_eq_getElem hlo, Option.some.injEq,
    exists_and_left, exists_eq_left', and_or_left]

/-- Two digits are no padded digit. -/
theorem not_correct_of_padded {seg : List Byte} (h : Padded seg) : ¬ Correct seg := by
  rintro ⟨-, hi, lo, hhi, -, hdigit, -, -⟩
  obtain ⟨-, pad, lo', hpad, -, hkind, -, -⟩ := h
  rw [hhi, Option.some.injEq] at hpad
  subst hpad
  rw [isHexDigit_eq] at hdigit
  obtain ⟨hspace, hminus, hplus⟩ := isDigit_plain (by omega) hdigit
  rcases hkind with h | h | ⟨h, -⟩
  · rw [hspace] at h
    cases h
  · exact hplus h
  · exact hminus h

/-- Every reachable state of the worker, and every message: it is judged by its checksum
exactly when that is not a padded digit with the right value. -/
theorem checksum_exact_iff {σ : Type} (b : Board)
    (process : Vector Byte b.bspMaxMessageLength → σ → Vector Byte b.bspMaxMessageLength × σ)
    (buf : Vector Byte b.bspMaxMessageLength) (subsystems : σ) (earlier seg : List Byte)
    (h : Message b.bspMaxMessageLength seg) :
    ∃ ctx₀ ctx before events,
      feed process (dispatcherInit buf subsystems) earlier = some (ctx₀, before) ∧
      feed process ctx₀ (dollar :: seg) = some (ctx, events) ∧
      (JudgedBy (Correct seg) seg events ↔ ¬ Padded seg) := by
  have hn : 0 < b.bspMaxMessageLength := by cases b <;> decide
  obtain ⟨ctx₀, hpre, href⟩ := feed_init hn process buf subsystems earlier
  obtain ⟨ctx, hfeed, -⟩ := feed_refines process ctx₀ _ href (dollar :: seg)
  rw [scan_complete h.no_dollar h.length_le h.complete h.first] at hfeed
  refine ⟨ctx₀, ctx, _, _, hpre, hfeed, ?_⟩
  unfold JudgedBy verdict
  by_cases hcorrect : Correct seg
  · have hacc : Accepted seg := (accepted_iff h.complete).mpr (Or.inl hcorrect)
    rw [if_pos hacc]
    refine iff_of_true ⟨fun _ => rfl, fun hno => absurd hcorrect hno⟩ fun hpad => ?_
    exact not_correct_of_padded hpad hcorrect
  · have hacc : Accepted seg ↔ Padded seg := by
      rw [accepted_iff h.complete, or_iff_right hcorrect]
    by_cases hpad : Padded seg
    · rw [if_pos (hacc.mpr hpad)]
      refine iff_of_false (fun hjudged => ?_) (fun hno => hno hpad)
      have := hjudged.2 hcorrect
      simp at this
    · rw [if_neg (fun ha => hpad (hacc.mp ha))]
      exact iff_of_true ⟨fun hc => absurd hc hcorrect, fun _ => rfl⟩ hpad

def blankChecksum : List Byte := ascii "123456* 7" ++ [cr, lf]

theorem blankChecksum_message : Message Board.stm32f072discovery.bspMaxMessageLength
    blankChecksum :=
  ⟨by decide, by decide, by decide, by decide⟩

theorem blankChecksum_padded : Padded blankChecksum :=
  ⟨by decide, 32, 55, by decide, by decide, Or.inl (by decide), by decide, by decide⟩

theorem blank_checksum_delivered :
    (feed (fun buf (_ : Unit) => (buf, ()))
        (dispatcherInit (Vector.replicate Board.stm32f072discovery.bspMaxMessageLength 0) ())
        (dollar :: blankChecksum)).map Prod.snd = some [.delivered (ascii "123456" ++ [0])] ∧
      ¬ JudgedBy (Correct blankChecksum) blankChecksum [.delivered (ascii "123456" ++ [0])] := by
  refine ⟨by decide +kernel, fun h => ?_⟩
  have := h.2 (not_correct_of_padded blankChecksum_padded)
  simp at this

theorem blank_checksum_exact : ∃ ctx₀ ctx before events,
    feed (fun buf (_ : Unit) => (buf, ()))
        (dispatcherInit (Vector.replicate Board.stm32f072discovery.bspMaxMessageLength 0) ())
        (ascii "junk") = some (ctx₀, before) ∧
      feed (fun buf (_ : Unit) => (buf, ())) ctx₀ (dollar :: blankChecksum) =
        some (ctx, events) ∧
      (JudgedBy (Correct blankChecksum) blankChecksum events ↔ ¬ Padded blankChecksum) :=
  checksum_exact_iff .stm32f072discovery _ _ () (ascii "junk") blankChecksum
    blankChecksum_message

end Ratfist.ChecksumTest
