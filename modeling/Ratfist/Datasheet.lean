import Ratfist.Compensation

/-!
The compensation of the pressure sensor against that of the sensor's data sheet, over exact
integers. There AC4, AC5 and AC6 are unsigned; the driver reads AC5 and AC6 as signed words,
which matters as far as the intermediate value B5 changes.
-/
namespace Ratfist.Datasheet

open CString Checked32 PressureSensor Compensation

def word (confData : Vector Byte 22) (k : Fin 11) : ℤ :=
  confData[2 * k.val].toNat * 256 + confData[2 * k.val + 1].toNat

def signed (w : ℤ) : ℤ := if w < 2 ^ 15 then w else w - 2 ^ 16

def datasheetWords (confData : Vector Byte 22) : CalibrationData where
  ac1 := signed (word confData 0)
  ac2 := signed (word confData 1)
  ac3 := signed (word confData 2)
  ac4 := word confData 3
  ac5 := word confData 4
  ac6 := word confData 5
  b1 := signed (word confData 6)
  b2 := signed (word confData 7)
  mb := signed (word confData 8)
  mc := signed (word confData 9)
  md := signed (word confData 10)

section Reference

variable (c : CalibrationData) (ut up : ℤ) (oss : ℕ)

def temperature : ℤ := (b5 c ut + 8) / 2 ^ 4

def exactP1 : ℤ := p1 id (b4 c id (b5 c ut - 4000)) (b7 id oss up (b3 c oss (b5 c ut - 4000)))

def pressure : ℤ := p (exactP1 c ut up oss)

def signedValues : List ℤ :=
  let b6 := b5 c ut - 4000
  let p1 := exactP1 c ut up oss
  [ut - c.ac6, (ut - c.ac6) * c.ac5, x1 c ut, c.mc * 2 ^ 11, x1 c ut + c.md,
    (c.mc * 2 ^ 11).tdiv (x1 c ut + c.md), b5 c ut, b5 c ut + 8, temperature c ut,
    b6, b6 * b6, b6 * b6 / 2 ^ 12, c.b2 * (b6 * b6 / 2 ^ 12),
    c.b2 * (b6 * b6 / 2 ^ 12) / 2 ^ 11, c.ac2 * b6, c.ac2 * b6 / 2 ^ 11, x3Sum c b6,
    c.ac1 * 2 ^ 2, c.ac1 * 2 ^ 2 + x3Sum c b6, (c.ac1 * 2 ^ 2 + x3Sum c b6) * 2 ^ oss,
    (c.ac1 * 2 ^ 2 + x3Sum c b6) * 2 ^ oss + 2, b3 c oss b6,
    c.ac3 * b6, c.ac3 * b6 / 2 ^ 13, c.b1 * (b6 * b6 / 2 ^ 12),
    c.b1 * (b6 * b6 / 2 ^ 12) / 2 ^ 16,
    c.ac3 * b6 / 2 ^ 13 + c.b1 * (b6 * b6 / 2 ^ 12) / 2 ^ 16,
    c.ac3 * b6 / 2 ^ 13 + c.b1 * (b6 * b6 / 2 ^ 12) / 2 ^ 16 + 2, x3 c b6,
    p1, p1 / 2 ^ 8, p1 / 2 ^ 8 * (p1 / 2 ^ 8), p1 / 2 ^ 8 * (p1 / 2 ^ 8) * 3038,
    p1 / 2 ^ 8 * (p1 / 2 ^ 8) * 3038 / 2 ^ 16, -7357 * p1, -7357 * p1 / 2 ^ 16,
    p1 / 2 ^ 8 * (p1 / 2 ^ 8) * 3038 / 2 ^ 16 + -7357 * p1 / 2 ^ 16,
    p1 / 2 ^ 8 * (p1 / 2 ^ 8) * 3038 / 2 ^ 16 + -7357 * p1 / 2 ^ 16 + 3791,
    (p1 / 2 ^ 8 * (p1 / 2 ^ 8) * 3038 / 2 ^ 16 + -7357 * p1 / 2 ^ 16 + 3791) / 2 ^ 4,
    pressure c ut up oss]

def unsignedValues : List ℤ :=
  let b6 := b5 c ut - 4000
  let b4 := b4 c id b6
  let b7 := b7 id oss up (b3 c oss b6)
  [x3 c b6 + 32768, c.ac4 * (x3 c b6 + 32768), b4, up - b3 c oss b6, 50000 / 2 ^ oss, b7] ++
    if b7 < 0x80000000 then [b7 * 2, b7 * 2 / b4] else [b7 / b4, b7 / b4 * 2]

/-- The inputs for which the data sheet's calculation has its results in 32 bits. -/
structure Fits : Prop where
  inI32 : ∀ x ∈ signedValues c ut up oss, InI32 x
  inU32 : ∀ x ∈ unsignedValues c ut up oss, InU32 x
  divisor : x1 c ut + c.md ≠ 0
  b4_ne_zero : b4 c id (b5 c ut - 4000) ≠ 0

/-- The coefficients with AC5 and AC6 as signed words. -/
def withSigned : CalibrationData := { c with ac5 := signed c.ac5, ac6 := signed c.ac6 }

structure SameB5 : Prop where
  product : InI32 ((ut - signed c.ac6) * signed c.ac5)
  divisor : x1 (withSigned c) ut + c.md ≠ 0
  b5 : b5 (withSigned c) ut = b5 c ut

end Reference

theorem signedWord_eq_signed (hi lo : Byte) :
    signedWord hi lo = signed (hi.toNat * 256 + lo.toNat) := by
  have hh : hi.toNat < 256 := hi.toNat_lt
  have hl : lo.toNat < 256 := lo.toNat_lt
  rw [signedWord_eq, signed]
  split_ifs <;> omega

/-- What the driver makes of a calibration block. -/
theorem calibrationData_eq (confData : Vector Byte 22) :
    calibrationData confData = withSigned (datasheetWords confData) := by
  simp [calibrationData, withSigned, datasheetWords, signedWord_eq_signed, unsignedWord_eq, word]

section SameB5

variable {c : CalibrationData} {ut up : ℤ} {oss : ℕ}

theorem signed_eq_self_iff {w : ℤ} : signed w = w ↔ w < 2 ^ 15 := by
  rw [signed]
  split_ifs <;> omega

/-- Words below 2^15, and only they, are no different as signed words. -/
theorem withSigned_eq_self_iff : withSigned c = c ↔ c.ac5 < 2 ^ 15 ∧ c.ac6 < 2 ^ 15 := by
  rw [← signed_eq_self_iff, ← signed_eq_self_iff]
  constructor
  · intro hsame
    exact ⟨congrArg CalibrationData.ac5 hsame, congrArg CalibrationData.ac6 hsame⟩
  · intro hsame
    obtain ⟨h5, h6⟩ := hsame
    rw [withSigned, h5, h6]

theorem sameB5_of_lt (hfits : Fits c ut up oss) (h5 : c.ac5 < 2 ^ 15) (h6 : c.ac6 < 2 ^ 15) :
    SameB5 c ut := by
  have hsame : withSigned c = c := withSigned_eq_self_iff.mpr ⟨h5, h6⟩
  refine ⟨?_, ?_, ?_⟩
  · rw [signed_eq_self_iff.mpr h5, signed_eq_self_iff.mpr h6]
    exact hfits.inI32 _ (by simp only [signedValues, List.mem_cons, true_or, or_true])
  · rw [hsame]
    exact hfits.divisor
  · rw [hsame]

/-- Where the exact values fit, the casts of the driver change nothing. -/
theorem Fits.casts (h : Fits c ut up oss) :
    asU32 (x3 c (b5 c ut - 4000) + 32768) = x3 c (b5 c ut - 4000) + 32768 ∧
      b7 asU32 oss up (b3 c oss (b5 c ut - 4000)) = b7 id oss up (b3 c oss (b5 c ut - 4000)) ∧
      asI32 (exactP1 c ut up oss) = exactP1 c ut up oss := by
  have hx3 : InU32 (x3 c (b5 c ut - 4000) + 32768) :=
    h.inU32 _ (by simp only [unsignedValues, List.cons_append, List.mem_cons, true_or])
  have hdiff : InU32 (up - b3 c oss (b5 c ut - 4000)) :=
    h.inU32 _ (by simp only [unsignedValues, List.cons_append, List.mem_cons, true_or, or_true])
  have hp1 : InI32 (exactP1 c ut up oss) :=
    h.inI32 _ (by simp only [signedValues, List.mem_cons, true_or, or_true])
  refine ⟨asU32_of hx3, ?_, asI32_of hp1⟩
  rw [b7, asU32_of hdiff]
  rfl

theorem Fits.b4_eq (h : Fits c ut up oss) :
    b4 (withSigned c) asU32 (b5 c ut - 4000) = b4 c id (b5 c ut - 4000) := by
  rw [b4, b4, id_eq, ← h.casts.1]
  rfl

theorem Fits.measuredP1_eq (h : Fits c ut up oss) (hb5 : b5 (withSigned c) ut = b5 c ut) :
    measuredP1 (withSigned c) ut up oss = exactP1 c ut up oss := by
  obtain ⟨-, hb7, hp1⟩ := h.casts
  have hb3 : b3 (withSigned c) oss (b5 c ut - 4000) = b3 c oss (b5 c ut - 4000) := rfl
  rw [measuredP1, hb5, h.b4_eq, hb3, hb7]
  exact hp1

theorem Fits.noPanic (h : Fits c ut up oss) (hsame : SameB5 c ut) :
    NoPanic (withSigned c) ut up oss := by
  obtain ⟨hx3, hb7, -⟩ := h.casts
  refine ⟨hsame.product, hsame.divisor, ?_, ?_, ?_, ?_, ?_, ?_, ?_⟩
  · rw [hsame.b5, ← square_fits_iff]
    exact h.inI32 _ (by simp only [signedValues, List.mem_cons, true_or, or_true])
  · rw [hsame.b5]
    exact h.inI32 _ (by simp only [signedValues, withSigned, List.mem_cons, true_or, or_true])
  · rw [hsame.b5]
    exact h.inI32 _ (by simp only [signedValues, withSigned, List.mem_cons, true_or, or_true])
  · have hprod : InU32 (c.ac4 * (x3 c (b5 c ut - 4000) + 32768)) :=
      h.inU32 _ (by simp only [unsignedValues, List.cons_append, List.mem_cons, true_or, or_true])
    rw [← hx3] at hprod
    rw [hsame.b5]
    exact hprod.2
  · have hprod : InU32 (b7 id oss up (b3 c oss (b5 c ut - 4000))) :=
      h.inU32 _ (by simp only [unsignedValues, List.cons_append, List.mem_cons, true_or, or_true])
    rw [← hb7] at hprod
    rw [hsame.b5]
    exact hprod.2
  · rw [hsame.b5, h.b4_eq]
    exact h.b4_ne_zero
  · rw [h.measuredP1_eq hsame.b5]
    have hprod : InI32 (exactP1 c ut up oss / 2 ^ 8 * (exactP1 c ut up oss / 2 ^ 8) * 3038) :=
      h.inI32 _ (by simp only [signedValues, List.mem_cons, true_or, or_true])
    exact hprod.2

/-- Equal temperatures bound how far B5 can be off. -/
theorem b5_near (hpanic : NoPanic (withSigned c) ut up oss)
    (htemp : (b5 (withSigned c) ut + 8) / 2 ^ 4 = temperature c ut) :
    InI32 ((ut - signed c.ac6) * signed c.ac5) ∧ x1 (withSigned c) ut + c.md ≠ 0 ∧
      (b5 (withSigned c) ut - b5 c ut).natAbs < 16 := by
  rw [temperature] at htemp
  refine ⟨hpanic.product, hpanic.divisor, ?_⟩
  omega

end SameB5

/-- What one measurement gets from the sensor, and its setting. -/
structure Sample where
  confData : Vector Byte 22
  tData : Vector Byte 2
  pData : Vector Byte 3
  precision : Precision

namespace Sample

variable (s : Sample)

def c : CalibrationData := datasheetWords s.confData

def ut : ℤ := rawTempVal s.tData

def oss : ℕ := s.precision.getOversamplingParam

def up : ℤ := rawPressureVal s.oss s.pData

/-- The driver calculates the temperature and the pressure of the data sheet. -/
def Agrees : Prop :=
  compensate (calibrationData s.confData) s.ut s.up s.oss =
    some (temperature s.c s.ut, pressure s.c s.ut s.up s.oss)

instance : Decidable s.Agrees := inferInstanceAs (Decidable (_ = _))

theorem compensate_eq_some_iff {r : ℤ × ℤ} :
    compensate (calibrationData s.confData) s.ut s.up s.oss = some r ↔
      NoPanic (withSigned s.c) s.ut s.up s.oss ∧ ((b5 (withSigned s.c) s.ut + 8) / 2 ^ 4,
        p (measuredP1 (withSigned s.c) s.ut s.up s.oss)) = r := by
  have hoss : s.oss ≤ 3 := getOversamplingParam_le s.precision
  have hiff := Compensation.compensate_eq_some_iff (r := r) (words_calibrationData s.confData)
    (rawTempVal_range s.tData) (rawPressureVal_range hoss s.pData) hoss
  rw [calibrationData_eq] at hiff ⊢
  exact hiff

end Sample

/-- Whatever the sensor delivers, if the results of the data sheet fit: the driver has the
coefficients of the data sheet just when AC5 and AC6 are below 2^15. With these it has the
same results, as whenever B5 is the same, and it has not when B5 differs by 16 or more. -/
theorem compensation_agrees (s : Sample) (h : Fits s.c s.ut s.up s.oss) :
    (calibrationData s.confData = s.c ↔ s.c.ac5 < 2 ^ 15 ∧ s.c.ac6 < 2 ^ 15) ∧
      (s.c.ac5 < 2 ^ 15 → s.c.ac6 < 2 ^ 15 → SameB5 s.c s.ut) ∧
      (SameB5 s.c s.ut → s.Agrees) ∧
      (s.Agrees → InI32 ((s.ut - signed s.c.ac6) * signed s.c.ac5) ∧
        x1 (withSigned s.c) s.ut + s.c.md ≠ 0 ∧
        (b5 (withSigned s.c) s.ut - b5 s.c s.ut).natAbs < 16) := by
  refine ⟨?_, sameB5_of_lt h, ?_, ?_⟩
  · rw [calibrationData_eq]
    exact withSigned_eq_self_iff
  · intro hsame
    rw [Sample.Agrees, s.compensate_eq_some_iff, hsame.b5, h.measuredP1_eq hsame.b5]
    exact ⟨h.noPanic hsame, rfl⟩
  · intro hagrees
    obtain ⟨hpanic, hvalues⟩ := s.compensate_eq_some_iff.mp hagrees
    obtain ⟨htemp, -⟩ := Prod.mk.inj hvalues
    exact b5_near hpanic htemp

def sampleWith (hi lo : Byte) : Sample :=
  ⟨sampleConf hi lo, sampleTData, samplePData, .ultraLowPower⟩

theorem example_agrees : (sampleWith 0x7f 0xf5).Agrees :=
  have h := compensation_agrees (sampleWith 0x7f 0xf5)
    ⟨by decide +kernel, by decide +kernel, by decide +kernel, by decide +kernel⟩
  h.2.2.1 (h.2.1 (by decide +kernel) (by decide +kernel))

/-- AC5 is 32769, and the temperature 297 instead of 150. -/
theorem ac5_read_as_negative :
    Fits (sampleWith 0x80 0x01).c (sampleWith 0x80 0x01).ut (sampleWith 0x80 0x01).up
      (sampleWith 0x80 0x01).oss ∧ ¬ (sampleWith 0x80 0x01).Agrees :=
  ⟨⟨by decide +kernel, by decide +kernel, by decide +kernel, by decide +kernel⟩,
    by decide +kernel⟩

end Ratfist.Datasheet
