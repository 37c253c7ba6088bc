import Ratfist.PressureSensor

/-!
When the compensation of the pressure sensor panics. The quantities of the calculation are
given over all integers, with the casts to `u32` and `i32` as parameters; of the some thirty
operations that are checked, nine decide.
-/
namespace Ratfist.Compensation

open CString MeteoPools Checked32 Rounding PressureSensor

section Quantities

variable (c : CalibrationData)

def x1 (ut : ℤ) : ℤ := (ut - c.ac6) * c.ac5 / 2 ^ 15

def b5 (ut : ℤ) : ℤ := x1 c ut + (c.mc * 2 ^ 11).tdiv (x1 c ut + c.md)

/-- The last `x3` before `b3`. -/
def x3Sum (b6 : ℤ) : ℤ := c.b2 * (b6 * b6 / 2 ^ 12) / 2 ^ 11 + c.ac2 * b6 / 2 ^ 11

def b3 (oss : ℕ) (b6 : ℤ) : ℤ := ((c.ac1 * 2 ^ 2 + x3Sum c b6) * 2 ^ oss + 2) / 2 ^ 2

/-- The last `x3` before `b4`. -/
def x3 (b6 : ℤ) : ℤ := (c.ac3 * b6 / 2 ^ 13 + c.b1 * (b6 * b6 / 2 ^ 12) / 2 ^ 16 + 2) / 2 ^ 2

def b4 (asU32 : ℤ → ℤ) (b6 : ℤ) : ℤ := c.ac4 * asU32 (x3 c b6 + 32768) / 2 ^ 15

def b7 (asU32 : ℤ → ℤ) (oss : ℕ) (up b3 : ℤ) : ℤ := asU32 (up - b3) * (50000 / 2 ^ oss)

def p1 (asI32 : ℤ → ℤ) (b4 b7 : ℤ) : ℤ :=
  asI32 (if b7 < 0x80000000 then b7 * 2 / b4 else b7 / b4 * 2)

def p (p1 : ℤ) : ℤ :=
  p1 + ((p1 / 2 ^ 8) * (p1 / 2 ^ 8) * 3038 / 2 ^ 16 + -7357 * p1 / 2 ^ 16 + 3791) / 2 ^ 4

end Quantities

variable {c : CalibrationData} {ut up b6 : ℤ} {oss : ℕ}

theorem b5_range (hc : Words c) (hprod : InI32 ((ut - c.ac6) * c.ac5)) :
    (x1 c ut).natAbs ≤ 2 ^ 16 ∧ (b5 c ut).natAbs ≤ 2 ^ 27 := by
  have hquot := Int.natAbs_tdiv_le_natAbs (c.mc * 2 ^ 11) (x1 c ut + c.md)
  have hmc := hc.mc
  have hx1 : (x1 c ut).natAbs ≤ 2 ^ 16 := by
    unfold InI32 at hprod
    unfold x1
    omega
  refine ⟨hx1, ?_⟩
  unfold b5
  omega

theorem calcB5_eq (hc : Words c) (hut : 0 ≤ ut ∧ ut < 2 ^ 16) : calcB5 c ut =
    if InI32 ((ut - c.ac6) * c.ac5) ∧ x1 c ut + c.md ≠ 0 then some (b5 c ut) else none := by
  have hac6 := hc.ac6
  have hmc := hc.mc
  have hmd := hc.md
  rw [calcB5, i32_of (x := ut - c.ac6) (by unfold InI32; omega)]
  simp only [Option.bind_eq_bind, Option.bind_some]
  by_cases hprod : InI32 ((ut - c.ac6) * c.ac5)
  · obtain ⟨hx1, hb5⟩ := b5_range hc hprod
    have hshift : shr ((ut - c.ac6) * c.ac5) 15 = x1 c ut := rfl
    have hquot := Int.natAbs_tdiv_le_natAbs (c.mc * 2 ^ 11) (x1 c ut + c.md)
    simp only [i32_of hprod, Option.bind_some, hshift,
      i32_of (show InI32 (x1 c ut + c.md) by unfold InI32; omega),
      shlI32_of (show InI32 (c.mc * 2 ^ 11) by unfold InI32; omega), divI32, hprod, true_and]
    by_cases hzero : x1 c ut + c.md = 0
    · simp only [if_pos hzero, Option.bind_none, if_neg (not_not.mpr hzero)]
    · simp only [if_neg hzero, if_pos hzero,
        i32_of (show InI32 ((c.mc * 2 ^ 11).tdiv (x1 c ut + c.md)) by unfold InI32; omega),
        Option.bind_some]
      exact i32_of (by unfold b5 at hb5; unfold InI32; omega)
  · simp only [i32_of_not hprod, hprod, Option.bind_none, false_and, if_false]

theorem b3_range (hc : Words c) (hoss : oss ≤ 3) (hsquare : b6.natAbs ≤ 46340)
    (hprod : InI32 (c.b2 * (b6 * b6 / 2 ^ 12))) :
    (x3Sum c b6).natAbs ≤ 2 ^ 21 ∧ (b3 c oss b6).natAbs ≤ 2 ^ 23 := by
  have hlin := natAbs_mul_le hc.ac2 hsquare
  have hac1 := hc.ac1
  have hsum : (x3Sum c b6).natAbs ≤ 2 ^ 21 := by
    unfold InI32 at hprod
    unfold x3Sum
    omega
  refine ⟨hsum, ?_⟩
  unfold b3
  interval_cases oss <;> omega

theorem calcB3_eq (hc : Words c) (hoss : oss ≤ 3) : calcB3 c oss b6 =
    if b6.natAbs ≤ 46340 ∧ InI32 (c.b2 * (b6 * b6 / 2 ^ 12)) then some (b3 c oss b6)
    else none := by
  rw [calcB3]
  by_cases hsquare : b6.natAbs ≤ 46340
  · simp only [i32_of ((square_fits_iff b6).mpr hsquare), Option.bind_eq_bind, Option.bind_some,
      shr_eq, hsquare, true_and]
    by_cases hprod : InI32 (c.b2 * (b6 * b6 / 2 ^ 12))
    · obtain ⟨hsum, hb3⟩ := b3_range hc hoss hsquare hprod
      have hlin := natAbs_mul_le hc.ac2 hsquare
      have hac1 := hc.ac1
      have hx3 : c.b2 * (b6 * b6 / 2 ^ 12) / 2 ^ 11 + c.ac2 * b6 / 2 ^ 11 = x3Sum c b6 := rfl
      simp only [i32_of hprod, Option.bind_some,
        i32_of (show InI32 (c.ac2 * b6) by unfold InI32; omega), hx3,
        i32_of (show InI32 (x3Sum c b6) by unfold InI32; omega),
        shlI32_of (show InI32 (c.ac1 * 2 ^ 2) by unfold InI32; omega),
        i32_of (show InI32 (c.ac1 * 2 ^ 2 + x3Sum c b6) by unfold InI32; omega)]
      have hshift : InI32 ((c.ac1 * 2 ^ 2 + x3Sum c b6) * 2 ^ oss) ∧
          InI32 ((c.ac1 * 2 ^ 2 + x3Sum c b6) * 2 ^ oss + 2) := by
        unfold InI32
        interval_cases oss <;> omega
      simp only [shlI32_of hshift.1, i32_of hshift.2, Option.bind_some, hprod, if_true]
      rfl
    · simp only [i32_of_not hprod, hprod, Option.bind_none, if_false]
  · simp only [i32_of_not ((square_fits_iff b6).not.mpr hsquare), Option.bind_eq_bind,
      Option.bind_none, hsquare, false_and, if_false]

theorem x3_range (hc : Words c) (hsquare : b6.natAbs ≤ 46340)
    (hprod : InI32 (c.b1 * (b6 * b6 / 2 ^ 12))) : (x3 c b6).natAbs ≤ 2 ^ 17 := by
  have hlin := natAbs_mul_le hc.ac3 hsquare
  unfold InI32 at hprod
  unfold x3
  omega

theorem calcB4_eq (hc : Words c) (hsquare : b6.natAbs ≤ 46340) : calcB4 c b6 =
    if InI32 (c.b1 * (b6 * b6 / 2 ^ 12)) ∧ c.ac4 * asU32 (x3 c b6 + 32768) < 2 ^ 32 then
      some (b4 c asU32 b6) else none := by
  have hlin := natAbs_mul_le hc.ac3 hsquare
  rw [calcB4]
  simp only [i32_of (show InI32 (c.ac3 * b6) by unfold InI32; omega),
    i32_of ((square_fits_iff b6).mpr hsquare), Option.bind_eq_bind, Option.bind_some,
    shr_eq]
  by_cases hprod : InI32 (c.b1 * (b6 * b6 / 2 ^ 12))
  · have hx3 := x3_range hc hsquare hprod
    have hcast : 0 ≤ asU32 (x3 c b6 + 32768) := Int.emod_nonneg _ (by decide)
    have hmul := Int.mul_nonneg hc.ac4.1 hcast
    have hsum : InI32 (c.ac3 * b6 / 2 ^ 13 + c.b1 * (b6 * b6 / 2 ^ 12) / 2 ^ 16) ∧
        InI32 (c.ac3 * b6 / 2 ^ 13 + c.b1 * (b6 * b6 / 2 ^ 12) / 2 ^ 16 + 2) := by
      unfold InI32 at hprod ⊢
      omega
    have hfold : (c.ac3 * b6 / 2 ^ 13 + c.b1 * (b6 * b6 / 2 ^ 12) / 2 ^ 16 + 2) / 2 ^ 2 =
        x3 c b6 := rfl
    simp only [i32_of hprod, Option.bind_some, i32_of hsum.1, i32_of hsum.2, hfold,
      i32_of (show InI32 (x3 c b6 + 32768) by unfold InI32; omega), hprod, true_and]
    by_cases hu32 : c.ac4 * asU32 (x3 c b6 + 32768) < 2 ^ 32
    · rw [if_pos hu32, u32_of ⟨hmul, hu32⟩]
      rfl
    · rw [if_neg hu32, u32_of_not (fun h => hu32 h.2)]
      rfl
  · simp only [i32_of_not hprod, hprod, Option.bind_none, false_and, if_false]

theorem b7_nonneg {b3 : ℤ} : 0 ≤ b7 asU32 oss up b3 := by
  have hcast : 0 ≤ asU32 (up - b3) := Int.emod_nonneg _ (by decide)
  have hfactor : (0 : ℤ) ≤ 50000 / 2 ^ oss := Int.ediv_nonneg (by decide) (by positivity)
  exact Int.mul_nonneg hcast hfactor

theorem calcB7_eq {b3 : ℤ} (hup : 0 ≤ up ∧ up < 2 ^ 19) (hb3 : b3.natAbs ≤ 2 ^ 23) :
    calcB7 oss up b3 =
      if b7 asU32 oss up b3 < 2 ^ 32 then some (b7 asU32 oss up b3) else none := by
  rw [calcB7, i32_of (x := up - b3) (by unfold InI32; omega)]
  simp only [Option.bind_eq_bind, Option.bind_some, shr_eq]
  by_cases hu32 : b7 asU32 oss up b3 < 2 ^ 32
  · rw [if_pos hu32]
    exact u32_of ⟨b7_nonneg, hu32⟩
  · rw [if_neg hu32]
    exact u32_of_not (fun h => hu32 h.2)

theorem calcP1_eq {b4 b7 : ℤ} (h7 : InU32 b7) :
    calcP1 b4 b7 = if b4 ≠ 0 then some (p1 asI32 b4 b7) else none := by
  unfold InU32 at h7
  by_cases hzero : b4 = 0
  · rw [if_neg (not_not.mpr hzero), calcP1]
    simp only [divU32, if_pos hzero, Option.bind_eq_bind, Option.bind_none, ite_self]
  · rw [if_pos hzero, calcP1, p1]
    simp only [divU32_of hzero, Option.bind_eq_bind, Option.bind_some]
    split_ifs with hsmall
    · rw [shlU32_of (by unfold InU32; omega), pow_one]
    · rw [shlU32, asI32_asU32, pow_one]

theorem calcP_eq (p1 : ℤ) : calcP p1 =
    if p1 / 2 ^ 8 * (p1 / 2 ^ 8) * 3038 < 2 ^ 31 then some (p p1) else none := by
  have hpos := mul_self_nonneg (p1 / 2 ^ 8)
  rw [calcP]
  simp only [Option.bind_eq_bind, shr_eq]
  by_cases hprod : p1 / 2 ^ 8 * (p1 / 2 ^ 8) * 3038 < 2 ^ 31
  · have hbound : (p1 / 2 ^ 8).natAbs ≤ 840 := by
      by_contra hbig
      have hsquare := Nat.mul_le_mul (Nat.lt_of_not_le hbig) (Nat.lt_of_not_le hbig)
      rw [← Int.natAbs_mul] at hsquare
      omega
    have hsum : InI32 (p1 / 2 ^ 8 * (p1 / 2 ^ 8) * 3038 / 2 ^ 16 + -7357 * p1 / 2 ^ 16) ∧
        InI32 (p1 / 2 ^ 8 * (p1 / 2 ^ 8) * 3038 / 2 ^ 16 + -7357 * p1 / 2 ^ 16 + 3791) := by
      unfold InI32
      omega
    rw [if_pos hprod, i32_of (x := p1 / 2 ^ 8 * (p1 / 2 ^ 8)) (by unfold InI32; omega)]
    simp only [Option.bind_some,
      i32_of (show InI32 (p1 / 2 ^ 8 * (p1 / 2 ^ 8) * 3038) by unfold InI32; omega),
      i32_of (show InI32 (-7357 * p1) by unfold InI32; omega), i32_of hsum.1, i32_of hsum.2]
    exact i32_of (by unfold InI32; omega)
  · rw [if_neg hprod]
    by_cases hsquare : InI32 (p1 / 2 ^ 8 * (p1 / 2 ^ 8))
    · have hno : ¬ InI32 (p1 / 2 ^ 8 * (p1 / 2 ^ 8) * 3038) := fun hfits => hprod hfits.2
      simp only [i32_of hsquare, i32_of_not hno, Option.bind_some, Option.bind_none]
    · simp only [i32_of_not hsquare, Option.bind_none]

def measuredP1 (c : CalibrationData) (ut up : ℤ) (oss : ℕ) : ℤ :=
  p1 asI32 (b4 c asU32 (b5 c ut - 4000)) (b7 asU32 oss up (b3 c oss (b5 c ut - 4000)))

structure NoPanic (c : CalibrationData) (ut up : ℤ) (oss : ℕ) : Prop where
  product : InI32 ((ut - c.ac6) * c.ac5)
  divisor : x1 c ut + c.md ≠ 0
  square : (b5 c ut - 4000).natAbs ≤ 46340
  b2 : InI32 (c.b2 * ((b5 c ut - 4000) * (b5 c ut - 4000) / 2 ^ 12))
  b1 : InI32 (c.b1 * ((b5 c ut - 4000) * (b5 c ut - 4000) / 2 ^ 12))
  ac4 : c.ac4 * asU32 (x3 c (b5 c ut - 4000) + 32768) < 2 ^ 32
  b7 : b7 asU32 oss up (b3 c oss (b5 c ut - 4000)) < 2 ^ 32
  b4 : b4 c asU32 (b5 c ut - 4000) ≠ 0
  p1 : measuredP1 c ut up oss / 2 ^ 8 * (measuredP1 c ut up oss / 2 ^ 8) * 3038 < 2 ^ 31

/-- The result of a calculation that goes through. -/
theorem compensate_eq_some_iff {r : ℤ × ℤ} (hc : Words c) (hut : 0 ≤ ut ∧ ut < 2 ^ 16)
    (hup : 0 ≤ up ∧ up < 2 ^ 19) (hoss : oss ≤ 3) : compensate c ut up oss = some r ↔
      NoPanic c ut up oss ∧ ((b5 c ut + 8) / 2 ^ 4, p (measuredP1 c ut up oss)) = r := by
  rw [compensate, calcB5_eq hc hut]
  simp only [Option.bind_eq_bind, shr_eq]
  by_cases h5 : InI32 ((ut - c.ac6) * c.ac5) ∧ x1 c ut + c.md ≠ 0
  swap
  · rw [if_neg h5]
    exact iff_of_false (by simp) (fun h => h5 ⟨h.1.product, h.1.divisor⟩)
  obtain ⟨-, hb5⟩ := b5_range hc h5.1
  rw [if_pos h5]
  simp only [Option.bind_some, i32_of (show InI32 (b5 c ut + 8) by unfold InI32; omega),
    i32_of (show InI32 (b5 c ut - 4000) by unfold InI32; omega), calcB3_eq hc hoss]
  by_cases h3 : (b5 c ut - 4000).natAbs ≤ 46340 ∧
      InI32 (c.b2 * ((b5 c ut - 4000) * (b5 c ut - 4000) / 2 ^ 12))
  swap
  · rw [if_neg h3]
    exact iff_of_false (by simp) (fun h => h3 ⟨h.1.square, h.1.b2⟩)
  obtain ⟨-, hb3⟩ := b3_range hc hoss h3.1 h3.2
  simp only [if_pos h3, Option.bind_some, calcB4_eq hc h3.1]
  by_cases h4 : InI32 (c.b1 * ((b5 c ut - 4000) * (b5 c ut - 4000) / 2 ^ 12)) ∧
      c.ac4 * asU32 (x3 c (b5 c ut - 4000) + 32768) < 2 ^ 32
  swap
  · rw [if_neg h4]
    exact iff_of_false (by simp) (fun h => h4 ⟨h.1.b1, h.1.ac4⟩)
  simp only [if_pos h4, Option.bind_some, calcB7_eq hup hb3]
  by_cases h7 : b7 asU32 oss up (b3 c oss (b5 c ut - 4000)) < 2 ^ 32
  swap
  · rw [if_neg h7]
    exact iff_of_false (by simp) (fun h => h7 h.1.b7)
  have hu32 : InU32 (b7 asU32 oss up (b3 c oss (b5 c ut - 4000))) := ⟨b7_nonneg, h7⟩
  simp only [if_pos h7, Option.bind_some, calcP1_eq hu32]
  by_cases hzero : b4 c asU32 (b5 c ut - 4000) ≠ 0
  swap
  · rw [if_neg hzero]
    exact iff_of_false (by simp) (fun h => hzero h.1.b4)
  have hfold : p1 asI32 (b4 c asU32 (b5 c ut - 4000))
      (b7 asU32 oss up (b3 c oss (b5 c ut - 4000))) = measuredP1 c ut up oss := rfl
  simp only [if_pos hzero, Option.bind_some, hfold, calcP_eq]
  by_cases hp : measuredP1 c ut up oss / 2 ^ 8 * (measuredP1 c ut up oss / 2 ^ 8) * 3038 < 2 ^ 31
  swap
  · rw [if_neg hp]
    exact iff_of_false (by simp) (fun h => hp h.1.p1)
  rw [if_pos hp, Option.bind_some, Option.some.injEq]
  constructor
  · intro h
    exact ⟨⟨h5.1, h5.2, h3.1, h3.2, h4.1, h4.2, h7, hzero, hp⟩, h⟩
  · intro h
    exact h.2

theorem compensate_isSome_iff (hc : Words c) (hut : 0 ≤ ut ∧ ut < 2 ^ 16)
    (hup : 0 ≤ up ∧ up < 2 ^ 19) (hoss : oss ≤ 3) :
    (compensate c ut up oss).isSome ↔ NoPanic c ut up oss := by
  simp only [Option.isSome_iff_exists, compensate_eq_some_iff hc hut hup hoss]
  exact ⟨fun ⟨_, h, _⟩ => h, fun h => ⟨_, h, rfl⟩⟩

/-- Whatever the sensor delivers, and whether it delivers at all, `measure` panics only where
its calculation can go wrong. -/
theorem measure_total_iff {d : Bmp085} (hd : FromBlock d) (bus : Bus) :
    (d.measure bus).isSome ↔ ∀ c ut up, (d.readings bus).1 = .ok (c, ut, up) →
      NoPanic c ut up d.precision.getOversamplingParam := by
  obtain ⟨hprecision, -⟩ := readings_driver hd bus
  rcases hr : d.readings bus with ⟨e | ⟨c, ut, up⟩, d'⟩
  · refine iff_of_true ?_ (fun c ut up h => by cases h)
    rw [Bmp085.measure, hr]
    rfl
  · obtain ⟨hc, hut, hup⟩ := readings_range hd (by rw [hr])
    rw [hr] at hprecision
    rw [measure_of_ok hr, hprecision,
      compensate_isSome_iff hc hut hup (getOversamplingParam_le d.precision)]
    constructor
    · intro h c' ut' up' heq
      cases heq
      exact h
    · intro h
      exact h c ut up rfl

/-- The calibration block of the data sheet's example, but for AC5. -/
def sampleConf (hi lo : Byte) : Vector Byte 22 :=
  #v[0x01, 0x98, 0xff, 0xb8, 0xc7, 0xd1, 0x7f, 0xe5, hi, lo, 0x5a, 0x71,
    0x18, 0x2e, 0x00, 0x04, 0x80, 0x00, 0xdd, 0xf9, 0x0b, 0x34]

def sampleTData : Vector Byte 2 := #v[0x6c, 0xfa]

def samplePData : Vector Byte 3 := #v[0x5d, 0x23, 0x00]

def sampleBus : Bus := ⟨some (sampleConf 0x7f 0xf5), true, some sampleTData, true, some samplePData⟩

end Ratfist.Compensation
