import Mathlib.Algebra.Ring.Int.Defs
import Mathlib.Tactic.Common

/-!
Arithmetic on 32-bit machine integers, which are given by their values. An operation whose
result does not fit its type panics, as does a division by zero; a cast or a shift wraps.
-/
namespace Ratfist.Checked32

def InI32 (x : ℤ) : Prop := -2 ^ 31 ≤ x ∧ x < 2 ^ 31

def InU32 (x : ℤ) : Prop := 0 ≤ x ∧ x < 2 ^ 32

instance (x : ℤ) : Decidable (InI32 x) := inferInstanceAs (Decidable (_ ∧ _))

instance (x : ℤ) : Decidable (InU32 x) := inferInstanceAs (Decidable (_ ∧ _))

/-- The result of an operation on `i32`, if it fits. -/
def i32 (x : ℤ) : Option ℤ := if InI32 x then some x else none

/-- The result of an operation on `u32`, if it fits. -/
def u32 (x : ℤ) : Option ℤ := if InU32 x then some x else none

def asU32 (x : ℤ) : ℤ := x % 2 ^ 32

def asI32 (x : ℤ) : ℤ := (x + 2 ^ 31) % 2 ^ 32 - 2 ^ 31

def shlI32 (x : ℤ) (k : ℕ) : ℤ := asI32 (x * 2 ^ k)

def shlU32 (x : ℤ) (k : ℕ) : ℤ := asU32 (x * 2 ^ k)

/-- Arithmetic on signed numbers, logical on unsigned ones. -/
def shr (x : ℤ) (k : ℕ) : ℤ := x / 2 ^ k

/-- Towards zero. -/
def divI32 (x y : ℤ) : Option ℤ := if y = 0 then none else i32 (x.tdiv y)

def divU32 (x y : ℤ) : Option ℤ := if y = 0 then none else some (x / y)

theorem i32_of {x : ℤ} (h : InI32 x) : i32 x = some x := if_pos h

theorem u32_of {x : ℤ} (h : InU32 x) : u32 x = some x := if_pos h

theorem i32_of_not {x : ℤ} (h : ¬ InI32 x) : i32 x = none := if_neg h

theorem u32_of_not {x : ℤ} (h : ¬ InU32 x) : u32 x = none := if_neg h

theorem asU32_of {x : ℤ} (h : InU32 x) : asU32 x = x := Int.emod_eq_of_lt h.1 h.2

theorem asI32_of {x : ℤ} (h : InI32 x) : asI32 x = x := by
  unfold InI32 at h
  unfold asI32
  omega

theorem asI32_asU32 (x : ℤ) : asI32 (asU32 x) = asI32 x := by
  unfold asI32 asU32
  omega

theorem shlI32_of {x : ℤ} {k : ℕ} (h : InI32 (x * 2 ^ k)) : shlI32 x k = x * 2 ^ k := asI32_of h

theorem shlU32_of {x : ℤ} {k : ℕ} (h : InU32 (x * 2 ^ k)) : shlU32 x k = x * 2 ^ k := asU32_of h

theorem divU32_of {x y : ℤ} (h : y ≠ 0) : divU32 x y = some (x / y) := if_neg h

theorem shr_eq (x : ℤ) (k : ℕ) : shr x k = x / 2 ^ k := rfl

/-- The bound of a product. -/
theorem natAbs_mul_le {x y : ℤ} {a b : ℕ} (hx : x.natAbs ≤ a) (hy : y.natAbs ≤ b) :
    (x * y).natAbs ≤ a * b := by
  rw [Int.natAbs_mul]
  exact Nat.mul_le_mul hx hy

/-- The squares that fit. -/
theorem square_fits_iff (x : ℤ) : InI32 (x * x) ↔ x.natAbs ≤ 46340 := by
  have hsquare : x * x = (x.natAbs * x.natAbs : ℕ) := Int.natAbs_mul_self.symm
  rw [hsquare, InI32]
  constructor
  · intro ⟨_, hlt⟩
    by_contra hbig
    have hprod := Nat.mul_le_mul (Nat.lt_of_not_le hbig) (Nat.lt_of_not_le hbig)
    omega
  · intro hle
    have hprod := Nat.mul_le_mul hle hle
    omega

end Ratfist.Checked32
