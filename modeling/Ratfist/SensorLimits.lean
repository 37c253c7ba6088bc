import Ratfist.Compensation

/-!
Calibration words and raw readings with which the compensation of the pressure sensor goes
through. The bounds are on what the device delivers: a divisor of at least `k`, a temperature
at most `b` away from the reference and a pressure in proportion to AC4 keep all nine checks.
-/
namespace Ratfist.SensorLimits

open CString Checked32 PressureSensor Compensation

/-- How far the temperature may move the factor of AC4, times four. -/
def slope (c : CalibrationData) (b : ℕ) : ℕ :=
  c.ac3.natAbs * b / 2 ^ 13 + c.b1.natAbs * (b * b) / 2 ^ 28 + 3

/-- At least this much of AC4 is left. -/
def sensitivity (c : CalibrationData) (b : ℕ) : ℕ :=
  c.ac4.natAbs * (32768 - slope c b / 4) / 2 ^ 15

/-- How much may be added to or taken from the raw pressure. -/
def offset (c : CalibrationData) (oss b : ℕ) : ℕ :=
  (4 * c.ac1.natAbs + c.b2.natAbs * (b * b) / 2 ^ 23 + c.ac2.natAbs * b / 2 ^ 11 + 2) *
    2 ^ oss / 4 + 2

/-- Every operation of `measure` stays within 32 bits; `k` bounds the divisor from below and
`b` the temperature from above. -/
structure Plausible (c : CalibrationData) (ut up : ℤ) (oss k b : ℕ) : Prop where
  product : InI32 ((ut - c.ac6) * c.ac5)
  divisor : 0 < k ∧ k * 2 ^ 15 ≤ ((ut - c.ac6) * c.ac5 + c.md * 2 ^ 15).natAbs
  temperature : ((ut - c.ac6) * c.ac5 - 4000 * 2 ^ 15).natAbs +
    c.mc.natAbs * 2 ^ 11 / k * 2 ^ 15 ≤ b * 2 ^ 15
  square : b ≤ 46340
  b1 : c.b1.natAbs * (b * b) < 2 ^ 43
  b2 : c.b2.natAbs * (b * b) < 2 ^ 43
  ac3 : slope c b / 4 < 32768
  ac4 : 0 < sensitivity c b
  lower : offset c oss b ≤ up
  upper : (up + offset c oss b) * (50000 / 2 ^ oss) < 2 ^ 32
  pressure : 2 * ((up + offset c oss b) * (50000 / 2 ^ oss)) < 215296 * sensitivity c b

/-- Without this no calculation goes through. -/
structure Possible (c : CalibrationData) (ut : ℤ) : Prop where
  product : InI32 ((ut - c.ac6) * c.ac5)
  divisor : (ut - c.ac6) * c.ac5 < -c.md * 2 ^ 15 ∨
    (1 - c.md) * 2 ^ 15 ≤ (ut - c.ac6) * c.ac5
  ac4 : c.ac4 ≠ 0

variable {c : CalibrationData} {ut up b6 : ℤ} {oss k b : ℕ}

/-- A coefficient times the scaled square of the temperature. -/
theorem natAbs_square_le {x : ℤ} (hb : b6.natAbs ≤ b) :
    (x * (b6 * b6 / 2 ^ 12)).natAbs * 2 ^ 12 ≤ x.natAbs * (b * b) := by
  have hsquare : b6 * b6 = (b6.natAbs * b6.natAbs : ℕ) := Int.natAbs_mul_self.symm
  have hscaled : (b6 * b6 / 2 ^ 12).natAbs * 2 ^ 12 ≤ b * b := by
    have hle := Nat.mul_le_mul hb hb
    rw [hsquare]
    omega
  rw [Int.natAbs_mul, Nat.mul_assoc]
  exact Nat.mul_le_mul_left _ hscaled

theorem divisor_ne_zero (h : Plausible c ut up oss k b) : k ≤ (x1 c ut + c.md).natAbs := by
  have hdivisor := h.divisor.2
  unfold x1
  omega

/-- The temperature is within its bound. -/
theorem natAbs_b6_le (h : Plausible c ut up oss k b) : (b5 c ut - 4000).natAbs ≤ b := by
  have hk := divisor_ne_zero h
  have htemperature := h.temperature
  have hquot : ((c.mc * 2 ^ 11).tdiv (x1 c ut + c.md)).natAbs ≤ c.mc.natAbs * 2 ^ 11 / k := by
    rw [Int.natAbs_tdiv, Int.natAbs_mul]
    exact Nat.div_le_div_left hk h.divisor.1
  have hx1 : (x1 c ut - 4000).natAbs * 2 ^ 15 ≤
      ((ut - c.ac6) * c.ac5 - 4000 * 2 ^ 15).natAbs + (2 ^ 15 - 1) := by
    unfold x1
    omega
  unfold b5
  omega

theorem natAbs_x3Sum_le (hb : b6.natAbs ≤ b) : (x3Sum c b6).natAbs ≤
    c.b2.natAbs * (b * b) / 2 ^ 23 + c.ac2.natAbs * b / 2 ^ 11 + 2 := by
  have hsquare := natAbs_square_le (x := c.b2) hb
  have hlinear := natAbs_mul_le (Nat.le_refl c.ac2.natAbs) hb
  unfold x3Sum
  omega

theorem natAbs_b3_le (hoss : oss ≤ 3) (hb : b6.natAbs ≤ b) :
    (b3 c oss b6).natAbs ≤ offset c oss b := by
  have hsum := natAbs_x3Sum_le (c := c) hb
  unfold b3 offset
  interval_cases oss <;> omega

theorem x3_bounds (hb : b6.natAbs ≤ b) :
    -(slope c b / 4 : ℕ) ≤ x3 c b6 ∧ x3 c b6 ≤ slope c b / 4 := by
  have hsquare := natAbs_square_le (x := c.b1) hb
  have hlinear := natAbs_mul_le (Nat.le_refl c.ac3.natAbs) hb
  unfold x3 slope
  omega

theorem b4_bounds (hc : Words c) (hslope : slope c b / 4 < 32768) (hb : b6.natAbs ≤ b) :
    c.ac4 * asU32 (x3 c b6 + 32768) < 2 ^ 32 ∧ (sensitivity c b : ℤ) ≤ b4 c asU32 b6 := by
  obtain ⟨hlow, hhigh⟩ := x3_bounds (c := c) hb
  obtain ⟨hac4, hac4'⟩ := hc.ac4
  have hcast : asU32 (x3 c b6 + 32768) = x3 c b6 + 32768 := asU32_of ⟨by omega, by omega⟩
  have hleast : (c.ac4.natAbs * (32768 - slope c b / 4) : ℕ) ≤ c.ac4 * (x3 c b6 + 32768) := by
    rw [Nat.cast_mul, Int.natAbs_of_nonneg hac4]
    exact Int.mul_le_mul_of_nonneg_left (by omega) hac4
  have hmost : c.ac4 * (x3 c b6 + 32768) ≤ 65535 * 65535 :=
    mul_le_mul (by omega) (by omega) (by omega) (by decide)
  unfold b4 sensitivity
  rw [hcast]
  omega

theorem b7_bounds (hoss : oss ≤ 3) (hup : up < 2 ^ 19) (hlower : offset c oss b ≤ up)
    (hb : b6.natAbs ≤ b) (hb3 : (b3 c oss b6).natAbs ≤ 2 ^ 23) :
    b7 asU32 oss up (b3 c oss b6) ≤ (up + offset c oss b) * (50000 / 2 ^ oss) := by
  have hoffset := natAbs_b3_le (c := c) hoss hb
  have hcast : asU32 (up - b3 c oss b6) = up - b3 c oss b6 := asU32_of ⟨by omega, by omega⟩
  unfold b7
  rw [hcast]
  exact Int.mul_le_mul_of_nonneg_right (by omega) (Int.ediv_nonneg (by decide) (by positivity))

/-- A pressure whose square fits. -/
theorem p1_bounds {b4 b7 : ℤ} (hb4 : 0 < b4) (hb7 : 0 ≤ b7) (h : 2 * b7 < 215296 * b4) :
    p1 asI32 b4 b7 / 2 ^ 8 * (p1 asI32 b4 b7 / 2 ^ 8) * 3038 < 2 ^ 31 := by
  have hdouble : b7 * 2 / b4 < 215296 := Int.ediv_lt_of_lt_mul hb4 (by omega)
  have hsingle : b7 / b4 < 107648 := Int.ediv_lt_of_lt_mul hb4 (by omega)
  have hpos : 0 ≤ b7 * 2 / b4 := Int.ediv_nonneg (by omega) (by omega)
  have hpos' : 0 ≤ b7 / b4 := Int.ediv_nonneg hb7 (by omega)
  obtain ⟨q, hq, hlow, hhigh⟩ : ∃ q, p1 asI32 b4 b7 = q ∧ 0 ≤ q ∧ q < 215296 := by
    refine ⟨_, rfl, ?_⟩
    unfold p1
    split_ifs
    · rw [asI32_of (by unfold InI32; omega)]
      exact ⟨hpos, hdouble⟩
    · rw [asI32_of (by unfold InI32; omega)]
      omega
  rw [hq]
  have hsquare : q / 2 ^ 8 * (q / 2 ^ 8) ≤ 840 * 840 :=
    mul_le_mul (by omega) (by omega) (by omega) (by decide)
  omega

theorem Plausible.noPanic (hc : Words c) (hup : up < 2 ^ 19) (hoss : oss ≤ 3)
    (h : Plausible c ut up oss k b) : NoPanic c ut up oss := by
  have hb := natAbs_b6_le h
  have hsquare : (b5 c ut - 4000).natAbs ≤ 46340 := hb.trans h.square
  have hb1 := natAbs_square_le (x := c.b1) hb
  have hb2 := natAbs_square_le (x := c.b2) hb
  have hfit1 := h.b1
  have hfit2 := h.b2
  have hprod : InI32 (c.b2 * ((b5 c ut - 4000) * (b5 c ut - 4000) / 2 ^ 12)) := by
    unfold InI32
    omega
  obtain ⟨hac4, hleast⟩ := b4_bounds hc h.ac3 hb
  obtain ⟨-, hb3⟩ := b3_range hc hoss hsquare hprod
  have hb7 := b7_bounds hoss hup h.lower hb hb3
  have hpos := h.ac4
  have hpressure := h.pressure
  have hk := divisor_ne_zero h
  have hk' := h.divisor.1
  refine ⟨h.product, by omega, hsquare, hprod, by unfold InI32; omega, hac4,
    hb7.trans_lt h.upper, by omega, p1_bounds (by omega) b7_nonneg ?_⟩
  omega

theorem possible_of_noPanic (h : NoPanic c ut up oss) : Possible c ut := by
  refine ⟨h.product, ?_, ?_⟩
  · have hdivisor := h.divisor
    unfold x1 at hdivisor
    omega
  · intro hzero
    refine h.b4 ?_
    simp [b4, hzero]

/-- Whatever the sensor delivers, and whether it delivers at all: `measure` returns where the
coefficients and the readings are within bounds, and panics where they are impossible. -/
theorem measure_total {d : Bmp085} (hd : FromBlock d) (bus : Bus) :
    ((∀ c ut up, (d.readings bus).1 = .ok (c, ut, up) →
        ∃ k b, Plausible c ut up d.precision.getOversamplingParam k b) →
      (d.measure bus).isSome) ∧
    ((d.measure bus).isSome →
      ∀ c ut up, (d.readings bus).1 = .ok (c, ut, up) → Possible c ut) := by
  refine ⟨fun h => (measure_total_iff hd bus).mpr fun c ut up hr => ?_, fun h c ut up hr =>
    possible_of_noPanic ((measure_total_iff hd bus).mp h c ut up hr)⟩
  obtain ⟨k, b, hwithin⟩ := h c ut up hr
  obtain ⟨hc, -, hup⟩ := readings_range hd hr
  exact hwithin.noPanic hc hup.2 (getOversamplingParam_le d.precision)

/-- The example of the data sheet, with twice the samples. -/
theorem sample_measured : (new.measure sampleBus).isSome ∧
    ∀ c ut up, (new.readings sampleBus).1 = .ok (c, ut, up) → Possible c ut := by
  obtain ⟨hwithin, hpossible⟩ := measure_total fromBlock_new sampleBus
  have hreadings : (new.readings sampleBus).1 =
      .ok (calibrationData (sampleConf 0x7f 0xf5), 27898, 47686) := by
    decide +kernel
  have hsome := hwithin fun c ut up hr => by
    rw [hreadings] at hr
    cases hr
    refine ⟨7000, 4000, ?_⟩
    constructor <;> decide +kernel
  exact ⟨hsome, hpossible hsome⟩

/-- A calibration block of zeros. -/
theorem zeros_panic :
    new.measure { sampleBus with conf := some (Vector.replicate 22 0) } = none := by
  decide +kernel

end Ratfist.SensorLimits
