import Ratfist.MeteoPools
import Ratfist.Rounding
import Ratfist.Runs
import Mathlib.Data.Fintype.Prod

/-!
The driver of the light sensor (`meteo/tsl2651.rs`) and the timing register of the sensor,
over any calls and any outcomes of the transactions. The conversion of a reading depends on
gain and integration time, which the driver keeps and the sensor gets as one byte; two of
the encodings overlap.
-/
namespace Ratfist.LightSensor

open CString MeteoPools Rounding

def controlRegAddr : Byte := 0x00 ||| 0x80 ||| 0x10
def timingRegAddr : Byte := 0x01 ||| 0x80 ||| 0x10

inductive State
  | on
  | off
deriving DecidableEq, Repr

def State.toByte : State → Byte
  | .on => 0x03
  | .off => 0x00

inductive Gain
  | gain1x
  | gain16x
deriving DecidableEq, Repr

instance : Fintype Gain := ⟨{.gain1x, .gain16x}, by intro g; cases g <;> decide⟩

namespace Gain

def toByte : Gain → Byte
  | gain1x => 0x10
  | gain16x => 0x00

def getScalingFactor : Gain → ℚ
  | gain1x => 1.0
  | gain16x => 16.0

end Gain

inductive IntegrationTime
  | time13_7ms
  | time101ms
  | time402ms
deriving DecidableEq, Repr

instance : Fintype IntegrationTime :=
  ⟨{.time13_7ms, .time101ms, .time402ms}, by intro t; cases t <;> decide⟩

namespace IntegrationTime

def toByte : IntegrationTime → Byte
  | time13_7ms => 0x00
  | time101ms => 0x01
  | time402ms => 0x10

def getScalingFactor : IntegrationTime → ℚ
  | time13_7ms => 0.034
  | time101ms => 0.252
  | time402ms => 1.0

end IntegrationTime

structure Tsl2561 where
  gain : Gain
  integTime : IntegrationTime
  state : State
deriving DecidableEq, Repr

def new : Tsl2561 := ⟨.gain1x, .time402ms, .off⟩

inductive Call
  | setState (newState : State)
  | setGainAndIntegTime (newGain : Gain) (newIntegTime : IntegrationTime)
deriving DecidableEq, Repr

def Call.command : Call → List Byte
  | setState newState => [controlRegAddr, 0x01, newState.toByte]
  | setGainAndIntegTime newGain newIntegTime =>
    [timingRegAddr, 0x01, newGain.toByte ||| newIntegTime.toByte]

namespace Tsl2561

variable (d : Tsl2561)

/-- `ok` says whether `run_transaction` returns `Ok`. -/
def setState (newState : State) (ok : Bool) : Except MeteoError Unit × Tsl2561 :=
  if ok then (.ok (), { d with state := newState }) else (.error .i2cComm, d)

def setGainAndIntegTime (newGain : Gain) (newIntegTime : IntegrationTime) (ok : Bool) :
    Except MeteoError Unit × Tsl2561 :=
  if ok then (.ok (), { d with gain := newGain, integTime := newIntegTime })
  else (.error .i2cComm, d)

def perform (ok : Bool) : Call → Except MeteoError Unit × Tsl2561
  | .setState newState => d.setState newState ok
  | .setGainAndIntegTime newGain newIntegTime => d.setGainAndIntegTime newGain newIntegTime ok

end Tsl2561

/-- The readings of the two channels in what the transaction reads, if it succeeds. -/
def getRawData (dataBuf : Option (Vector Byte 5)) : Except MeteoError (UInt16 × UInt16) :=
  match dataBuf with
  | none => .error .i2cComm
  | some dataBuf =>
    .ok ((dataBuf[2].toUInt16 <<< 8) ||| dataBuf[1].toUInt16,
      (dataBuf[4].toUInt16 <<< 8) ||| dataBuf[3].toUInt16)

/-- One of the ranges of `ch1 / ch0`, from `lo` up to but without `hi`, and its factors. -/
structure Range where
  lo : ℚ
  hi : ℚ
  c0 : ℚ
  c1 : ℚ

def ranges : List Range := [
  ⟨0.0, 0.125, 0.0304, 0.0272⟩,
  ⟨0.125, 0.25, 0.0325, 0.0440⟩,
  ⟨0.25, 0.375, 0.0351, 0.0544⟩,
  ⟨0.375, 0.50, 0.0381, 0.0624⟩,
  ⟨0.50, 0.61, 0.0224, 0.0310⟩,
  ⟨0.61, 0.80, 0.0128, 0.0153⟩,
  ⟨0.80, 1.30, 0.00146, 0.00112⟩]

section Measure

-- the rounding of `f32` operations and literals; the identity for exact arithmetic
variable (round : ℚ → ℚ)

/-- The last match of `measure`. -/
def lightLevel (ch0 ch1 x : ℚ) : Except MeteoError ℚ :=
  match ranges.find? (fun r => decide (round r.lo ≤ x ∧ x < round r.hi)) with
  | some r => .ok (round (round (round r.c0 * ch0) - round (round r.c1 * ch1)))
  | none => if round 1.30 ≤ x then .ok 0 else .error .invalidSensorData

def scaled (d : Tsl2561) (raw : UInt16) : Option ℚ := do
  let ch ← div round (round raw.toNat) (round d.gain.getScalingFactor)
  div round ch (round d.integTime.getScalingFactor)

/-- `none` is a division by zero. -/
def measure (d : Tsl2561) (dataBuf : Option (Vector Byte 5)) : Option (Except MeteoError ℚ) :=
  if d.state = .off then some (.error .sensorNotReady)
  else
    match getRawData dataBuf with
    | .error e => some (.error e)
    | .ok (rawCh0, rawCh1) =>
      if rawCh0 = 0 then some (.ok 0)
      else do
        let ch0 ← scaled round d rawCh0
        let ch1 ← scaled round d rawCh1
        some (lightLevel round ch0 ch1 (← div round ch1 ch0))

end Measure

/-- The driver and the byte in the timing register, once the sensor has accepted one. -/
structure System where
  driver : Tsl2561
  timing : Option Byte
deriving DecidableEq, Repr

def accept (timing : Option Byte) (command : List Byte) : Option Byte :=
  match command with
  | [addr, _, value] => if addr = timingRegAddr then some value else timing
  | _ => timing

def step (call : Call × Bool) (s : System) : Option System :=
  some ⟨(s.driver.perform call.2 call.1).2,
    if call.2 then accept s.timing call.1.command else s.timing⟩

def run (history : List (Call × Bool)) : Option System := Runs.runs step history ⟨new, none⟩

def lastSettings (history : List (Call × Bool)) : Option (Gain × IntegrationTime) :=
  history.foldl (fun last call =>
    match call with
    | (.setGainAndIntegTime newGain newIntegTime, true) => some (newGain, newIntegTime)
    | _ => last) none

def timingByte (settings : Gain × IntegrationTime) : Byte :=
  settings.1.toByte ||| settings.2.toByte

theorem scaled_isSome {round : ℚ → ℚ} (hround : ∀ x, x ≠ 0 → round x ≠ 0) (d : Tsl2561)
    (raw : UInt16) : ∃ ch, scaled round d raw = some ch ∧ (raw ≠ 0 → ch ≠ 0) := by
  have hgain : round d.gain.getScalingFactor ≠ 0 := by
    apply hround
    cases d.gain <;> norm_num [Gain.getScalingFactor]
  have htime : round d.integTime.getScalingFactor ≠ 0 := by
    apply hround
    cases d.integTime <;> norm_num [IntegrationTime.getScalingFactor]
  rw [scaled, div_of_ne_zero _ _ hgain, Option.bind_eq_bind, Option.bind_some,
    div_of_ne_zero _ _ htime]
  refine ⟨_, rfl, ?_⟩
  intro hraw
  have hnat : (raw.toNat : ℚ) ≠ 0 := by
    intro hzero
    exact hraw (UInt16.toNat_inj.mp (Nat.cast_eq_zero.mp hzero))
  exact hround _ (div_ne_zero (hround _ (div_ne_zero (hround _ hnat) hgain)) htime)

theorem lastSettings_snoc (history : List (Call × Bool)) (call : Call × Bool) :
    lastSettings (history ++ [call]) =
      match call with
      | (.setGainAndIntegTime newGain newIntegTime, true) => some (newGain, newIntegTime)
      | _ => lastSettings history := by
  rw [lastSettings, List.foldl_append]
  rfl

/-- The sensor has the byte of the settings last accepted, and the driver has these settings. -/
structure Told (last : Option (Gain × IntegrationTime)) (s : System) : Prop where
  timing : s.timing = last.map timingByte
  driver : ∀ settings, last = some settings → (s.driver.gain, s.driver.integTime) = settings

theorem Told.step {history : List (Call × Bool)} {call : Call × Bool} {s s' : System}
    (h : Told (lastSettings history) s) (hs : step call s = some s') :
    Told (lastSettings (history ++ [call])) s' := by
  cases hs
  obtain ⟨call, ok⟩ := call
  rw [lastSettings_snoc]
  cases ok with
  | false => cases call <;> exact ⟨h.timing, h.driver⟩
  | true =>
    cases call with
    | setState newState =>
      refine ⟨?_, h.driver⟩
      rw [← h.timing]
      rfl
    | setGainAndIntegTime newGain newIntegTime =>
      refine ⟨rfl, ?_⟩
      intro settings hsettings
      exact Option.some.inj hsettings

theorem told_of_run {history : List (Call × Bool)} {s : System} (h : run history = some s) :
    Told (lastSettings history) s := by
  refine Runs.runs_history (fun earlier m => Told (lastSettings earlier) m) ?_ ?_ h
  · exact ⟨rfl, by simp [lastSettings]⟩
  · intro earlier call m t _ hm hstep
    exact hm.step hstep

/-- Other settings have bytes of their own. -/
theorem timingByte_eq {settings settings' : Gain × IntegrationTime}
    (h : timingByte settings = timingByte settings') :
    settings = settings' ∨ (timingByte settings = 0x10 ∧ timingByte settings' = 0x10) := by
  have hall : ∀ s s' : Gain × IntegrationTime, timingByte s = timingByte s' →
      s = s' ∨ (timingByte s = 0x10 ∧ timingByte s' = 0x10) := by
    decide
  exact hall settings settings' h

/-- A reading of 16 and 0, which tells apart the settings with the byte 0x10. -/
def sixteen : Option (Vector Byte 5) := some #v[0x00, 0x10, 0x00, 0x00, 0x00]

theorem settings_of_sixteen {settings settings' : Gain × IntegrationTime}
    (hbyte : timingByte settings = 0x10) (hbyte' : timingByte settings' = 0x10)
    (h : measure single ⟨settings.1, settings.2, .on⟩ sixteen =
      measure single ⟨settings'.1, settings'.2, .on⟩ sixteen) : settings = settings' := by
  have hall : ∀ s s' : Gain × IntegrationTime, timingByte s = 0x10 → timingByte s' = 0x10 →
      measure single ⟨s.1, s.2, .on⟩ sixteen = measure single ⟨s'.1, s'.2, .on⟩ sixteen →
        s = s' := by
    decide +kernel
  exact hall settings settings' hbyte hbyte' h

/-- After the same byte the same reading is converted to the same light level. -/
def Determined (s s' : System) : Prop :=
  s.timing = s'.timing →
    ∀ dataBuf, measure single s.driver dataBuf = measure single s'.driver dataBuf

/-- The byte tells the conversion, except between different settings that share 0x10. -/
theorem conversion_determined_iff {history history' : List (Call × Bool)} {s s' : System}
    {settings settings' : Gain × IntegrationTime} (h : run history = some s)
    (h' : run history' = some s') (hlast : lastSettings history = some settings)
    (hlast' : lastSettings history' = some settings') (hon : s.driver.state = .on)
    (hon' : s'.driver.state = .on) :
    Determined s s' ↔
      (timingByte settings = 0x10 → timingByte settings' = 0x10 → settings = settings') := by
  have htold := told_of_run h
  have htold' := told_of_run h'
  rw [hlast] at htold
  rw [hlast'] at htold'
  have hdriver : s.driver = ⟨settings.1, settings.2, .on⟩ := by
    rw [← htold.driver settings rfl, ← hon]
  have hdriver' : s'.driver = ⟨settings'.1, settings'.2, .on⟩ := by
    rw [← htold'.driver settings' rfl, ← hon']
  rw [Determined, htold.timing, htold'.timing, hdriver, hdriver']
  constructor
  · intro hdetermined hbyte hbyte'
    have hsame := hdetermined (by simp [hbyte, hbyte'])
    exact settings_of_sixteen hbyte hbyte' (hsame sixteen)
  · intro hapart hbytes dataBuf
    have hsame : settings = settings' := by
      rcases timingByte_eq (Option.some.inj hbytes) with heq | ⟨hbyte, hbyte'⟩
      · exact heq
      · exact hapart hbyte hbyte'
    rw [hsame]

def ownSettings : List (Call × Bool) :=
  [(.setGainAndIntegTime .gain1x .time101ms, true), (.setState .on, true)]

def failedChange : List (Call × Bool) :=
  ownSettings ++ [(.setGainAndIntegTime .gain16x .time402ms, false)]

theorem failed_change_determined : ∃ s s',
    run ownSettings = some s ∧ run failedChange = some s' ∧
      (Determined s s' ↔ (timingByte (.gain1x, .time101ms) = 0x10 →
        timingByte (.gain1x, .time101ms) = 0x10 →
          (Gain.gain1x, IntegrationTime.time101ms) = (.gain1x, .time101ms))) :=
  ⟨_, _, rfl, rfl, conversion_determined_iff (show run ownSettings = some _ from rfl)
    (show run failedChange = some _ from rfl) rfl rfl rfl rfl⟩

/-- Both gains with 402 ms are programmed as 0x10. -/
theorem gain_lost_in_byte : ∃ s s',
    run [(.setGainAndIntegTime .gain1x .time402ms, true), (.setState .on, true)] = some s ∧
      run [(.setGainAndIntegTime .gain16x .time402ms, true), (.setState .on, true)] = some s' ∧
      s.driver.state = .on ∧ s'.driver.state = .on ∧ s.timing = some 0x10 ∧ ¬ Determined s s' := by
  refine ⟨_, _, rfl, rfl, rfl, rfl, rfl, ?_⟩
  intro h
  have hsame := h rfl sixteen
  revert hsame
  decide +kernel

end Ratfist.LightSensor
