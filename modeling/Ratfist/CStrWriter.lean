import Ratfist.CString
import Ratfist.CheckedArray

/-!
`CStrWriter`: the `fmt::Write` that the Rust part serializes with. It keeps a NUL behind
what is written and refuses a piece that leaves no room for it. The bytes are copied
without a check of the bounds; `none` would be a copy beyond the buffer.
-/
namespace Ratfist

open CString CheckedArray

structure CStrWriter (n : ℕ) where
  buf : Vector Byte n
  pos : ℕ

namespace CStrWriter

variable {n : ℕ}

def new (buf : Vector Byte n) : Option (CStrWriter n) := do
  let buf ← write buf 0 0
  some ⟨buf, 0⟩

/-- Whether the piece was written, and the writer afterwards. -/
def writeStr (w : CStrWriter n) (s : List Byte) : Option (Bool × CStrWriter n) := do
  if (← sub n w.pos) < s.length + 1 then some (false, w)
  else
    let buf ← writeList w.buf w.pos s
    let pos := w.pos + s.length
    let buf ← write buf pos 0
    some (true, ⟨buf, pos⟩)

/-- What `write!` does with the pieces of its text: it stops at the first that fails. -/
def writeFmt (w : CStrWriter n) : List (List Byte) → Option (Bool × CStrWriter n)
  | [] => some (true, w)
  | s :: pieces => do
    let (ok, w) ← w.writeStr s
    if ok then w.writeFmt pieces else some (false, w)

/-- Calls of `write_str` that go on after a failure; the pieces that were written. -/
def writeStrs (w : CStrWriter n) : List (List Byte) → Option (List (List Byte) × CStrWriter n)
  | [] => some ([], w)
  | s :: pieces => do
    let (ok, w) ← w.writeStr s
    let (written, w) ← w.writeStrs pieces
    some (if ok then s :: written else written, w)

/-- The buffer holds the text and a NUL, and the position is between them. -/
structure Wrote (w : CStrWriter n) (text : List Byte) : Prop where
  pos_eq : w.pos = text.length
  holds : Holds w.buf (text ++ [0])

theorem Wrote.pos_lt {w : CStrWriter n} {text : List Byte} (h : Wrote w text) : w.pos < n := by
  have hle := h.holds.length_le
  rw [List.length_append, List.length_singleton] at hle
  rw [h.pos_eq]
  omega

theorem Wrote.nul {w : CStrWriter n} {text : List Byte} (h : Wrote w text) :
    read w.buf w.pos = some 0 := by
  rw [h.pos_eq, h.holds.read (by simp)]
  simp

theorem Wrote.text_eq {w : CStrWriter n} {text : List Byte} (h : Wrote w text) :
    w.buf.toList.take w.pos = text := by
  rw [h.pos_eq]
  exact h.holds.left

theorem new_wrote (hn : 0 < n) (buf : Vector Byte n) :
    ∃ w, new buf = some w ∧ Wrote w [] := by
  refine ⟨⟨buf.set 0 0 hn, 0⟩, ?_, rfl, (Holds.nil buf).push 0 hn⟩
  simp only [new, write_of_lt buf 0 hn, Option.bind_eq_bind, Option.bind_some]

/-- A piece is written in full where it leaves room for the NUL, and else not at all. -/
theorem writeStr_cases {w : CStrWriter n} {text : List Byte} (h : Wrote w text) (s : List Byte) :
    (n ≤ (text ++ s).length ∧ w.writeStr s = some (false, w)) ∨
      ((text ++ s).length < n ∧ ∃ w', w.writeStr s = some (true, w') ∧ Wrote w' (text ++ s)) := by
  have hpos := h.pos_lt
  have hlen := h.pos_eq
  rw [List.length_append, ← hlen]
  by_cases hroom : w.pos + s.length < n
  · refine Or.inr ⟨hroom, ?_⟩
    obtain ⟨buf, hwrite, hholds⟩ := h.holds.left.writeList s (by omega)
    have hfront : (text ++ s).length = w.pos + s.length := by
      rw [List.length_append, hlen]
    have hpush := hholds.push 0 (by omega)
    rw [← hlen] at hwrite
    refine ⟨⟨buf.set (text ++ s).length 0 (by omega), w.pos + s.length⟩, ?_, hfront.symm, hpush⟩
    simp only [writeStr, sub_of_le (Nat.le_of_lt hpos), Option.bind_eq_bind, Option.bind_some,
      if_neg (show ¬ n - w.pos < s.length + 1 by omega), hwrite, write_of_lt buf 0 hroom, hfront]
  · refine Or.inl ⟨by omega, ?_⟩
    simp only [writeStr, sub_of_le (Nat.le_of_lt hpos), Option.bind_eq_bind, Option.bind_some,
      if_pos (show n - w.pos < s.length + 1 by omega)]

/-- The whole text is written where it leaves room for the NUL, however it is cut up. -/
theorem writeFmt_cases {w : CStrWriter n} {text : List Byte} (h : Wrote w text)
    (pieces : List (List Byte)) :
    ∃ w', w.writeFmt pieces = some (decide ((text ++ pieces.flatten).length < n), w') ∧
      ((text ++ pieces.flatten).length < n → Wrote w' (text ++ pieces.flatten)) := by
  induction pieces generalizing w text with
  | nil =>
    have hpos := h.pos_lt
    rw [h.pos_eq] at hpos
    refine ⟨w, ?_, ?_⟩
    · rw [List.flatten_nil, List.append_nil, decide_eq_true hpos]
      rfl
    · intro _
      rwa [List.flatten_nil, List.append_nil]
  | cons s pieces ih =>
    rw [List.flatten_cons, ← List.append_assoc]
    rcases writeStr_cases h s with ⟨hlong, hfail⟩ | ⟨hfits, w', hok, hwrote⟩
    · have hno : ¬ (text ++ s ++ pieces.flatten).length < n := by
        rw [List.length_append]
        omega
      refine ⟨w, ?_, fun hfits => absurd hfits hno⟩
      rw [decide_eq_false hno]
      simp only [writeFmt, hfail]
      rfl
    · obtain ⟨w'', hrest, hdone⟩ := ih hwrote
      refine ⟨w'', ?_, hdone⟩
      simpa [writeFmt, hok] using hrest

/-- Any calls of `write_str`: the buffer holds the pieces that were written. -/
theorem writeStrs_wrote {w : CStrWriter n} {text : List Byte} (h : Wrote w text)
    (pieces : List (List Byte)) :
    ∃ written w', w.writeStrs pieces = some (written, w') ∧ Wrote w' (text ++ written.flatten) := by
  induction pieces generalizing w text with
  | nil => exact ⟨[], w, rfl, by rwa [List.flatten_nil, List.append_nil]⟩
  | cons s pieces ih =>
    rcases writeStr_cases h s with ⟨-, hfail⟩ | ⟨-, w', hok, hwrote⟩
    · obtain ⟨written, w'', hrest, hdone⟩ := ih h
      exact ⟨written, w'', by simp [writeStrs, hfail, hrest], hdone⟩
    · obtain ⟨written, w'', hrest, hdone⟩ := ih hwrote
      refine ⟨s :: written, w'', by simp [writeStrs, hok, hrest], ?_⟩
      rwa [List.flatten_cons, ← List.append_assoc]

end CStrWriter

end Ratfist
