import Ratfist.Checked32
import Ratfist.MeteoPools
import Ratfist.Rounding
import Mathlib.Tactic.IntervalCases

/-!
The driver of the pressure sensor (`meteo/bmp085.rs`): the calibration block, the raw
readings and the compensation. The sensor may deliver any bytes; `none` is a panic of the
compensation, where an operation overflows or divides by zero.
-/
namespace Ratfist.PressureSensor

open CString MeteoPools Checked32 Rounding

inductive Precision
  | ultraLowPower
  | standard
  | high
  | ultraHigh
deriving DecidableEq, Repr

def Precision.getOversamplingParam : Precision → ℕ
  | ultraLowPower => 0
  | standard => 1
  | high => 2
  | ultraHigh => 3

structure CalibrationData where
  ac1 : ℤ
  ac2 : ℤ
  ac3 : ℤ
  ac4 : ℤ
  ac5 : ℤ
  ac6 : ℤ
  b1 : ℤ
  b2 : ℤ
  mb : ℤ
  mc : ℤ
  md : ℤ
deriving DecidableEq, Repr

/-- `((hi as u16) << 8 | lo as u16) as i16 as i32` -/
def signedWord (hi lo : Byte) : ℤ := ((hi.toUInt16 <<< 8) ||| lo.toUInt16).toInt16.toInt

/-- `(hi as u32) << 8 | lo as u32` -/
def unsignedWord (hi lo : Byte) : ℤ := ((hi.toUInt32 <<< 8) ||| lo.toUInt32).toNat

def calibrationData (confData : Vector Byte 22) : CalibrationData where
  ac1 := signedWord confData[0] confData[1]
  ac2 := signedWord confData[2] confData[3]
  ac3 := signedWord confData[4] confData[5]
  ac4 := unsignedWord confData[6] confData[7]
  ac5 := signedWord confData[8] confData[9]
  ac6 := signedWord confData[10] confData[11]
  b1 := signedWord confData[12] confData[13]
  b2 := signedWord confData[14] confData[15]
  mb := signedWord confData[16] confData[17]
  mc := signedWord confData[18] confData[19]
  md := signedWord confData[20] confData[21]

def rawTempVal (tDataBuf : Vector Byte 2) : ℤ :=
  asI32 (((tDataBuf[0].toUInt32 <<< 8) ||| tDataBuf[1].toUInt32).toNat)

def rawPressureVal (oss : ℕ) (pDataBuf : Vector Byte 3) : ℤ :=
  asI32 (((pDataBuf[0].toUInt32 <<< 16) ||| (pDataBuf[1].toUInt32 <<< 8) |||
    pDataBuf[2].toUInt32) >>> (8 - oss).toUInt32).toNat

section Compensation

variable (c : CalibrationData)

def calcB5 (ut : ℤ) : Option ℤ := do
  let x1 := shr (← i32 ((← i32 (ut - c.ac6)) * c.ac5)) 15
  let x2 ← divI32 (shlI32 c.mc 11) (← i32 (x1 + c.md))
  i32 (x1 + x2)

def calcB3 (oss : ℕ) (b6 : ℤ) : Option ℤ := do
  let x1 := shr (← i32 (c.b2 * shr (← i32 (b6 * b6)) 12)) 11
  let x2 := shr (← i32 (c.ac2 * b6)) 11
  let x3 ← i32 (x1 + x2)
  let sum ← i32 (shlI32 c.ac1 2 + x3)
  some (shr (← i32 (shlI32 sum oss + 2)) 2)

def calcB4 (b6 : ℤ) : Option ℤ := do
  let x1 := shr (← i32 (c.ac3 * b6)) 13
  let x2 := shr (← i32 (c.b1 * shr (← i32 (b6 * b6)) 12)) 16
  let x3 := shr (← i32 ((← i32 (x1 + x2)) + 2)) 2
  some (shr (← u32 (c.ac4 * asU32 (← i32 (x3 + 32768)))) 15)

def calcB7 (oss : ℕ) (up b3 : ℤ) : Option ℤ := do
  u32 (asU32 (← i32 (up - b3)) * shr 50000 oss)

def calcP1 (b4 b7 : ℤ) : Option ℤ :=
  if b7 < 0x80000000 then do
    some (asI32 (← divU32 (shlU32 b7 1) b4))
  else do
    some (asI32 (shlU32 (← divU32 b7 b4) 1))

def calcP (p1 : ℤ) : Option ℤ := do
  let x1 ← i32 (shr p1 8 * shr p1 8)
  let x1 := shr (← i32 (x1 * 3038)) 16
  let x2 := shr (← i32 (-7357 * p1)) 16
  i32 (p1 + shr (← i32 ((← i32 (x1 + x2)) + 3791)) 4)

/-- The compensation of `measure`: `t` and `p`. -/
def compensate (ut up : ℤ) (oss : ℕ) : Option (ℤ × ℤ) := do
  let b5 ← calcB5 c ut
  let t := shr (← i32 (b5 + 8)) 4
  let b6 ← i32 (b5 - 4000)
  let b3 ← calcB3 c oss b6
  let b4 ← calcB4 c b6
  let b7 ← calcB7 oss up b3
  let p1 ← calcP1 b4 b7
  some (t, ← calcP p1)

end Compensation

/-- The example of the data sheet. -/
example : compensate ⟨408, -72, -14383, 32741, 32757, 23153, 6190, 4, -32768, -8711, 2868⟩
    27898 23843 0 = some (150, 69964) := by
  decide

structure Bmp085 where
  calib : Option CalibrationData
  precision : Precision
deriving DecidableEq, Repr

def new : Bmp085 := ⟨none, .standard⟩

/-- What the five transactions of `measure` come to: whether they succeed and what is read. -/
structure Bus where
  conf : Option (Vector Byte 22)
  tMeas : Bool
  tData : Option (Vector Byte 2)
  pMeas : Bool
  pData : Option (Vector Byte 3)

namespace Bmp085

variable (d : Bmp085)

/-- The bus is used only when there is no calibration data yet. -/
def getCalibrationData (conf : Option (Vector Byte 22)) : Except MeteoError Bmp085 :=
  match d.calib with
  | some _ => .ok d
  | none =>
    match conf with
    | none => .error .i2cComm
    | some conf => .ok { d with calib := some (calibrationData conf) }

def getRawTempVal (tMeas : Bool) (tData : Option (Vector Byte 2)) : Except MeteoError ℤ :=
  match tMeas, tData with
  | true, some tData => .ok (rawTempVal tData)
  | _, _ => .error .i2cComm

def getRawPressureVal (pMeas : Bool) (pData : Option (Vector Byte 3)) : Except MeteoError ℤ :=
  match pMeas, pData with
  | true, some pData => .ok (rawPressureVal d.precision.getOversamplingParam pData)
  | _, _ => .error .i2cComm

def setPrecision (precision : Precision) : Bmp085 := { d with precision }

def readings (bus : Bus) : Except MeteoError (CalibrationData × ℤ × ℤ) × Bmp085 :=
  match d.getCalibrationData bus.conf with
  | .error e => (.error e, d)
  | .ok d =>
    (do
      let calib ← d.calib.elim (.error .i2cComm) .ok
      let ut ← getRawTempVal bus.tMeas bus.tData
      let up ← d.getRawPressureVal bus.pMeas bus.pData
      .ok (calib, ut, up), d)

def measure (bus : Bus) : Option (Except MeteoError (ℚ × ℚ) × Bmp085) :=
  match d.readings bus with
  | (.error e, d) => some (.error e, d)
  | (.ok (calib, ut, up), d) => do
    let (t, p) ← compensate calib ut up d.precision.getOversamplingParam
    some (.ok (single (single t / 10), single p), d)

end Bmp085

theorem signedWord_eq (hi lo : Byte) : signedWord hi lo =
    if hi.toNat < 128 then (hi.toNat * 256 + lo.toNat : ℤ)
    else hi.toNat * 256 + lo.toNat - 65536 := by
  have hh : hi.toNat < 256 := hi.toNat_lt
  have hl : lo.toNat < 256 := lo.toNat_lt
  have h8 : (8 : UInt16).toNat % 16 = 8 := rfl
  have hnat : ((hi.toUInt16 <<< 8) ||| lo.toUInt16).toNat = hi.toNat * 256 + lo.toNat := by
    rw [UInt16.toNat_or, UInt16.toNat_shiftLeft, UInt8.toNat_toUInt16, UInt8.toNat_toUInt16,
      h8, Nat.mod_eq_of_lt (by rw [Nat.shiftLeft_eq]; omega),
      ← Nat.shiftLeft_add_eq_or_of_lt (by omega), Nat.shiftLeft_eq]
  have hint : signedWord hi lo = ((hi.toUInt16 <<< 8) ||| lo.toUInt16).toBitVec.toInt := rfl
  rw [hint, BitVec.toInt_eq_toNat_cond, UInt16.toNat_toBitVec, hnat]
  split_ifs <;> omega

theorem toNat_word (hi lo : Byte) :
    ((hi.toUInt32 <<< 8) ||| lo.toUInt32).toNat = hi.toNat * 256 + lo.toNat := by
  have hh : hi.toNat < 256 := hi.toNat_lt
  have hl : lo.toNat < 256 := lo.toNat_lt
  have h8 : (8 : UInt32).toNat % 32 = 8 := rfl
  rw [UInt32.toNat_or, UInt32.toNat_shiftLeft, UInt8.toNat_toUInt32, UInt8.toNat_toUInt32, h8,
    Nat.mod_eq_of_lt (by rw [Nat.shiftLeft_eq]; omega),
    ← Nat.shiftLeft_add_eq_or_of_lt (by omega), Nat.shiftLeft_eq]

theorem unsignedWord_eq (hi lo : Byte) : unsignedWord hi lo = hi.toNat * 256 + lo.toNat := by
  rw [unsignedWord, toNat_word]
  omega

/-- A reading of the temperature has 16 bits. -/
theorem rawTempVal_range (tDataBuf : Vector Byte 2) :
    0 ≤ rawTempVal tDataBuf ∧ rawTempVal tDataBuf < 2 ^ 16 := by
  have hh : tDataBuf[0].toNat < 256 := tDataBuf[0].toNat_lt
  have hl : tDataBuf[1].toNat < 256 := tDataBuf[1].toNat_lt
  rw [rawTempVal, toNat_word, asI32_of (by unfold InI32; omega)]
  omega

/-- A reading of the pressure has at most 19 bits. -/
theorem rawPressureVal_range {oss : ℕ} (hoss : oss ≤ 3) (pDataBuf : Vector Byte 3) :
    0 ≤ rawPressureVal oss pDataBuf ∧ rawPressureVal oss pDataBuf < 2 ^ 19 := by
  have hall : ((pDataBuf[0].toUInt32 <<< 16) ||| (pDataBuf[1].toUInt32 <<< 8) |||
      pDataBuf[2].toUInt32).toNat < 2 ^ 24 := by
    have h0 : pDataBuf[0].toNat < 256 := pDataBuf[0].toNat_lt
    have h1 : pDataBuf[1].toNat < 256 := pDataBuf[1].toNat_lt
    have h2 : pDataBuf[2].toNat < 256 := pDataBuf[2].toNat_lt
    have h8 : (8 : UInt32).toNat % 32 = 8 := rfl
    have h16 : (16 : UInt32).toNat % 32 = 16 := rfl
    simp only [UInt32.toNat_or, UInt32.toNat_shiftLeft, UInt8.toNat_toUInt32, h8, h16,
      Nat.shiftLeft_eq]
    refine Nat.or_lt_two_pow (Nat.or_lt_two_pow ?_ ?_) ?_ <;> omega
  have hshift : (8 - oss).toUInt32.toNat % 32 = 8 - oss := by
    interval_cases oss <;> rfl
  rw [rawPressureVal, UInt32.toNat_shiftRight, hshift, Nat.shiftRight_eq_div_pow]
  generalize ((pDataBuf[0].toUInt32 <<< 16) ||| (pDataBuf[1].toUInt32 <<< 8) |||
      pDataBuf[2].toUInt32).toNat = raw at hall
  have hsmall : raw / 2 ^ (8 - oss) < 2 ^ 19 := by
    interval_cases oss <;> omega
  generalize raw / 2 ^ (8 - oss) = up at hsmall
  rw [asI32_of (by unfold InI32; omega)]
  omega

theorem getOversamplingParam_le (precision : Precision) :
    precision.getOversamplingParam ≤ 3 := by
  cases precision <;> decide

structure Words (c : CalibrationData) : Prop where
  ac1 : c.ac1.natAbs ≤ 2 ^ 15
  ac2 : c.ac2.natAbs ≤ 2 ^ 15
  ac3 : c.ac3.natAbs ≤ 2 ^ 15
  ac4 : 0 ≤ c.ac4 ∧ c.ac4 < 2 ^ 16
  ac6 : c.ac6.natAbs ≤ 2 ^ 15
  mc : c.mc.natAbs ≤ 2 ^ 15
  md : c.md.natAbs ≤ 2 ^ 15

theorem natAbs_signedWord_le (hi lo : Byte) : (signedWord hi lo).natAbs ≤ 2 ^ 15 := by
  have hh : hi.toNat < 256 := hi.toNat_lt
  have hl : lo.toNat < 256 := lo.toNat_lt
  rw [signedWord_eq]
  split_ifs <;> omega

theorem words_calibrationData (confData : Vector Byte 22) : Words (calibrationData confData) where
  ac1 := natAbs_signedWord_le _ _
  ac2 := natAbs_signedWord_le _ _
  ac3 := natAbs_signedWord_le _ _
  ac4 := by
    have hh : confData[6].toNat < 256 := confData[6].toNat_lt
    have hl : confData[7].toNat < 256 := confData[7].toNat_lt
    change 0 ≤ unsignedWord _ _ ∧ unsignedWord _ _ < 2 ^ 16
    rw [unsignedWord_eq]
    omega
  ac6 := natAbs_signedWord_le _ _
  mc := natAbs_signedWord_le _ _
  md := natAbs_signedWord_le _ _

/-- The calibration data, if any, comes from a block that has been read. -/
def FromBlock (d : Bmp085) : Prop :=
  ∀ c, d.calib = some c → ∃ confData, c = calibrationData confData

theorem fromBlock_new : FromBlock new := by
  intro c hc
  cases hc

theorem FromBlock.setPrecision {d : Bmp085} (h : FromBlock d) (precision : Precision) :
    FromBlock (d.setPrecision precision) := h

theorem getCalibrationData_ok {d d' : Bmp085} (h : FromBlock d)
    {conf : Option (Vector Byte 22)} (hd : d.getCalibrationData conf = .ok d') :
    d'.precision = d.precision ∧ FromBlock d' := by
  unfold Bmp085.getCalibrationData at hd
  cases hcalib : d.calib with
  | some c =>
    simp only [hcalib] at hd
    cases hd
    exact ⟨rfl, h⟩
  | none =>
    cases conf with
    | none =>
      simp only [hcalib] at hd
      cases hd
    | some confData =>
      simp only [hcalib] at hd
      cases hd
      refine ⟨rfl, ?_⟩
      intro c hc
      exact ⟨confData, (Option.some.inj hc).symm⟩

theorem readings_driver {d : Bmp085} (h : FromBlock d) (bus : Bus) :
    (d.readings bus).2.precision = d.precision ∧ FromBlock (d.readings bus).2 := by
  unfold Bmp085.readings
  cases hcalib : d.getCalibrationData bus.conf with
  | error e => exact ⟨rfl, h⟩
  | ok d' => exact getCalibrationData_ok h hcalib

theorem measure_of_ok {d d' : Bmp085} {bus : Bus} {c : CalibrationData} {ut up : ℤ}
    (h : d.readings bus = (.ok (c, ut, up), d')) : (d.measure bus).isSome =
      (compensate c ut up d'.precision.getOversamplingParam).isSome := by
  unfold Bmp085.measure
  rw [h]
  cases hcomp : compensate c ut up d'.precision.getOversamplingParam with
  | none =>
    simp only [hcomp, Option.bind_eq_bind, Option.bind_none]
    rfl
  | some tp => simp only [hcomp, Option.bind_eq_bind, Option.bind_some, Option.isSome_some]

/-- The calibration data still comes from a block after a measurement. -/
theorem FromBlock.measure {d d' : Bmp085} {bus : Bus} {r : Except MeteoError (ℚ × ℚ)}
    (h : FromBlock d) (hm : d.measure bus = some (r, d')) : FromBlock d' := by
  have hread := (readings_driver h bus).2
  unfold Bmp085.measure at hm
  rcases hr : d.readings bus with ⟨_ | ⟨c, ut, up⟩, d₁⟩
  · rw [hr] at hm hread
    cases hm
    exact hread
  · rw [hr] at hm hread
    obtain ⟨_, -, hlast⟩ := Option.bind_eq_some_iff.mp hm
    cases hlast
    exact hread

theorem getRawTempVal_range {tMeas : Bool} {tData : Option (Vector Byte 2)} {ut : ℤ}
    (h : Bmp085.getRawTempVal tMeas tData = .ok ut) : 0 ≤ ut ∧ ut < 2 ^ 16 := by
  match tMeas, tData with
  | false, _ => cases h
  | true, none => cases h
  | true, some tData =>
    rw [← Except.ok.inj h]
    exact rawTempVal_range tData

theorem getRawPressureVal_range {d : Bmp085} {pMeas : Bool} {pData : Option (Vector Byte 3)}
    {up : ℤ} (h : d.getRawPressureVal pMeas pData = .ok up) : 0 ≤ up ∧ up < 2 ^ 19 := by
  match pMeas, pData with
  | false, _ => cases h
  | true, none => cases h
  | true, some pData =>
    rw [← Except.ok.inj h]
    exact rawPressureVal_range (getOversamplingParam_le _) pData

/-- What any bytes of the sensor come to. -/
theorem readings_range {d : Bmp085} (hd : FromBlock d) {bus : Bus} {c : CalibrationData}
    {ut up : ℤ} (h : (d.readings bus).1 = .ok (c, ut, up)) :
    Words c ∧ (0 ≤ ut ∧ ut < 2 ^ 16) ∧ (0 ≤ up ∧ up < 2 ^ 19) := by
  unfold Bmp085.readings at h
  cases hcalib : d.getCalibrationData bus.conf with
  | error e =>
    rw [hcalib] at h
    cases h
  | ok d' =>
    obtain ⟨-, hblock⟩ := getCalibrationData_ok hd hcalib
    rw [hcalib] at h
    simp only at h
    cases hc : d'.calib with
    | none =>
      rw [hc] at h
      cases h
    | some c' =>
      cases htemp : Bmp085.getRawTempVal bus.tMeas bus.tData with
      | error e =>
        rw [hc, htemp] at h
        cases h
      | ok ut' =>
        cases hpressure : d'.getRawPressureVal bus.pMeas bus.pData with
        | error e =>
          rw [hc, htemp, hpressure] at h
          cases h
        | ok up' =>
          rw [hc, htemp, hpressure] at h
          have h : (Except.ok (c', ut', up') : Except MeteoError _) = .ok (c, ut, up) := h
          cases h
          obtain ⟨confData, rfl⟩ := hblock c hc
          exact ⟨words_calibrationData confData, getRawTempVal_range htemp,
            getRawPressureVal_range hpressure⟩

end Ratfist.PressureSensor
