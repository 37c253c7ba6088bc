import Mathlib.Data.Nat.Notation
import Mathlib.Tactic.Common

/-!
Fields of a register: `n` bits from an offset on. A field is replaced by masking out its old
value, and that leaves every field beside it as it is.
-/
namespace Ratfist.BitFields

variable {w n m : ℕ}

/-- The field of `n` bits from `offset` on. -/
def field (r : BitVec w) (offset n : ℕ) : BitVec n := r.extractLsb' offset n

def ones (w offset n : ℕ) : BitVec w := (BitVec.allOnes n).setWidth w <<< offset

/-- The register with another value in the field. -/
def replace (r : BitVec w) (offset : ℕ) (v : BitVec n) : BitVec w :=
  (r &&& ~~~ones w offset n) ||| (v.setWidth w <<< offset)

theorem getLsbD_ones (w offset n i : ℕ) :
    (ones w offset n).getLsbD i = decide (i < w ∧ offset ≤ i ∧ i < offset + n) := by
  rw [ones, BitVec.getLsbD_shiftLeft, BitVec.getLsbD_setWidth, BitVec.getLsbD_allOnes,
    Bool.eq_iff_iff]
  simp only [Bool.and_eq_true, Bool.not_eq_true', decide_eq_true_eq, decide_eq_false_iff_not]
  omega

theorem getLsbD_replace (r : BitVec w) {offset : ℕ} (v : BitVec n) (hfits : offset + n ≤ w)
    (i : ℕ) : (replace r offset v).getLsbD i =
      if offset ≤ i ∧ i < offset + n then v.getLsbD (i - offset) else r.getLsbD i := by
  rw [replace, BitVec.getLsbD_or, BitVec.getLsbD_and, BitVec.getLsbD_not, getLsbD_ones,
    BitVec.getLsbD_shiftLeft, BitVec.getLsbD_setWidth]
  by_cases hin : offset ≤ i ∧ i < offset + n
  · have hi : i < w := by omega
    have hshift : i - offset < w := by omega
    simp [hin, hi, hshift]
  · rw [if_neg hin]
    by_cases hi : i < w
    · by_cases hlow : i < offset
      · simp [hi, hlow, hin]
      · have hv : v.getLsbD (i - offset) = false := BitVec.getLsbD_of_ge _ _ (by omega)
        simp [hi, hin, hv]
    · have hr : r.getLsbD i = false := BitVec.getLsbD_of_ge _ _ (by omega)
      simp [hi, hr]

theorem field_replace_self (r : BitVec w) {offset : ℕ} (v : BitVec n) (hfits : offset + n ≤ w) :
    field (replace r offset v) offset n = v := by
  refine BitVec.eq_of_getLsbD_eq fun i hi => ?_
  rw [field, BitVec.getLsbD_extractLsb', getLsbD_replace r v hfits, if_pos (by omega)]
  simp [hi]

/-- A field that lies below or above the other. -/
theorem field_replace_beside (r : BitVec w) {offset offset' : ℕ} (v : BitVec n)
    (hfits : offset + n ≤ w) (h : offset' + m ≤ offset ∨ offset + n ≤ offset') :
    field (replace r offset v) offset' m = field r offset' m := by
  refine BitVec.eq_of_getLsbD_eq fun i hi => ?_
  rw [field, field, BitVec.getLsbD_extractLsb', BitVec.getLsbD_extractLsb',
    getLsbD_replace r v hfits, if_neg (by omega)]

/-- Fields of one width, side by side. -/
theorem field_replace_slot (r : BitVec w) {k l : ℕ} (v : BitVec n) (hfits : n * k + n ≤ w) :
    field (replace r (n * k) v) (n * l) n = if l = k then v else field r (n * l) n := by
  split_ifs with hsame
  · rw [hsame, field_replace_self r v hfits]
  · refine field_replace_beside r v hfits ?_
    rcases Nat.lt_or_gt_of_ne hsame with hlt | hgt
    · have := Nat.mul_le_mul_left n hlt
      left
      rw [Nat.mul_succ] at this
      exact this
    · have := Nat.mul_le_mul_left n hgt
      right
      rw [Nat.mul_succ] at this
      exact this

theorem one_setWidth (w : ℕ) : (1#1).setWidth w = 1#w := by
  refine BitVec.eq_of_getLsbD_eq fun i hi => ?_
  simp [hi]

/-- A bit that is set. -/
theorem or_bit (r : BitVec w) (k : ℕ) : r ||| 1#w <<< k = replace r k 1#1 := by
  have hones : ones w k 1 = 1#w <<< k := by
    rw [ones, ← one_setWidth w]
    rfl
  rw [replace, hones, one_setWidth w]
  refine BitVec.eq_of_getLsbD_eq fun i hi => ?_
  cases hr : r.getLsbD i
  · simp [hr]
  · simp [hr]
    omega

/-- A bit that is cleared. -/
theorem and_not_bit (r : BitVec w) (k : ℕ) :
    r &&& ~~~(1#w <<< k) = replace r k 0#1 := by
  have hones : ones w k 1 = 1#w <<< k := by
    rw [ones, ← one_setWidth w]
    rfl
  rw [replace, hones]
  simp

/-- A test of one bit. -/
theorem and_bit_ne_zero_iff (r : BitVec w) {k : ℕ} (hk : k < w) :
    r &&& (1#w <<< k) ≠ 0 ↔ field r k 1 = 1 := by
  have hfield : field r k 1 = BitVec.ofBool (r.getLsbD k) := by
    refine BitVec.eq_of_getLsbD_eq fun i hi => ?_
    have hzero : i = 0 := by omega
    rw [hzero]
    simp [field]
  have hne : 1#w <<< k ≠ 0 := by
    intro hzero
    have hbit := congrArg (fun x : BitVec w => x.getLsbD k) hzero
    simp [hk] at hbit
  rw [← BitVec.twoPow_eq, BitVec.and_twoPow, BitVec.twoPow_eq, hfield]
  cases hbit : r.getLsbD k
  · simp
  · simpa using hne

end Ratfist.BitFields
