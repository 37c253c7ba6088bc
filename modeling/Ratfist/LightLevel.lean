import Ratfist.LightSensor

/-!
The conversion of a reading in exact arithmetic. The ranges of the ratio of the channels lie
side by side up to 1.30, and each formula is positive up to the upper end of its range, the
last one by a few millionths.
-/
namespace Ratfist.LightLevel

open CString MeteoPools LightSensor

def Adjacent (a b : ℚ) : List Range → Prop
  | [] => a = b
  | r :: rest => r.lo = a ∧ Adjacent r.hi b rest

theorem Adjacent.cover {a b x : ℚ} {rs : List Range} (h : Adjacent a b rs) (hlow : a ≤ x)
    (hhigh : x < b) : ∃ r ∈ rs, r.lo ≤ x ∧ x < r.hi := by
  induction rs generalizing a with
  | nil => exact absurd (h ▸ hlow) (not_le.mpr hhigh)
  | cons r rest ih =>
    obtain ⟨hlo, hrest⟩ := h
    by_cases hx : x < r.hi
    · exact ⟨r, List.mem_cons_self, hlo.trans_le hlow, hx⟩
    · obtain ⟨r', hr', hin⟩ := ih hrest (not_lt.mp hx)
      exact ⟨r', List.mem_cons_of_mem r hr', hin⟩

theorem ranges_adjacent : Adjacent 0 1.30 ranges := by
  norm_num [ranges, Adjacent]

theorem ranges_cover {x : ℚ} (hlow : 0 ≤ x) (hhigh : x < 1.30) :
    ∃ r ∈ ranges, r.lo ≤ x ∧ x < r.hi :=
  ranges_adjacent.cover hlow hhigh

/-- At the upper end of its range no formula is negative. -/
theorem ranges_margin {r : Range} (hr : r ∈ ranges) : 0 ≤ r.c1 ∧ r.c1 * r.hi ≤ r.c0 := by
  have hall : ∀ r ∈ ranges, 0 ≤ r.c1 ∧ r.c1 * r.hi ≤ r.c0 := by
    norm_num [ranges]
  exact hall r hr

theorem formula_nonneg {r : Range} (hr : r ∈ ranges) {ch0 ch1 : ℚ} (hch0 : 0 < ch0)
    (hratio : ch1 / ch0 < r.hi) : 0 ≤ r.c0 * ch0 - r.c1 * ch1 := by
  obtain ⟨hc1, hmargin⟩ := ranges_margin hr
  have hch1 : ch1 ≤ r.hi * ch0 := ((div_lt_iff₀ hch0).mp hratio).le
  have hupper : r.c1 * ch1 ≤ r.c0 * ch0 := by
    calc r.c1 * ch1 ≤ r.c1 * (r.hi * ch0) := mul_le_mul_of_nonneg_left hch1 hc1
      _ = r.c1 * r.hi * ch0 := by ring
      _ ≤ r.c0 * ch0 := mul_le_mul_of_nonneg_right hmargin hch0.le
  linarith

theorem lightLevel_nonneg {ch0 ch1 : ℚ} (hch0 : 0 < ch0) (hch1 : 0 ≤ ch1) :
    ∃ v, lightLevel id ch0 ch1 (ch1 / ch0) = .ok v ∧ 0 ≤ v := by
  have hratio : 0 ≤ ch1 / ch0 := div_nonneg hch1 hch0.le
  unfold lightLevel
  split
  · rename_i r hfind
    have hin := List.find?_some hfind
    have hr := List.mem_of_find?_eq_some hfind
    simp only [id, decide_eq_true_eq] at hin
    exact ⟨_, rfl, formula_nonneg hr hch0 hin.2⟩
  · rename_i hfind
    have hhigh : 1.30 ≤ ch1 / ch0 := by
      by_contra hless
      obtain ⟨r, hr, hin⟩ := ranges_cover hratio (not_le.mp hless)
      have hnot := List.find?_eq_none.mp hfind r hr
      exact hnot (decide_eq_true hin)
    exact ⟨0, if_pos hhigh, le_refl 0⟩

theorem gain_pos (gain : Gain) : 0 < gain.getScalingFactor := by
  cases gain <;> norm_num [Gain.getScalingFactor]

theorem integTime_pos (integTime : IntegrationTime) : 0 < integTime.getScalingFactor := by
  cases integTime <;> norm_num [IntegrationTime.getScalingFactor]

theorem scaled_exact (d : Tsl2561) (raw : UInt16) :
    ∃ ch, scaled id d raw = some ch ∧ 0 ≤ ch ∧ (raw ≠ 0 → 0 < ch) := by
  have hgain := gain_pos d.gain
  have htime := integTime_pos d.integTime
  have hne : ∀ x : ℚ, x ≠ 0 → id x ≠ 0 := fun _ h => h
  obtain ⟨ch, hch, hpos⟩ := scaled_isSome hne d raw
  have hval : ch = raw.toNat / d.gain.getScalingFactor / d.integTime.getScalingFactor := by
    rw [scaled, Rounding.div_of_ne_zero id _ (hne _ hgain.ne'), Option.bind_eq_bind,
      Option.bind_some, Rounding.div_of_ne_zero id _ (hne _ htime.ne')] at hch
    exact (Option.some.inj hch).symm
  have hnonneg : 0 ≤ ch := by
    rw [hval]
    positivity
  exact ⟨ch, hch, hnonneg, fun hraw => hnonneg.lt_of_ne' (hpos hraw)⟩

theorem measure_on {d : Tsl2561} (hon : d.state = .on) (dataBuf : Vector Byte 5) :
    ∃ v, measure id d (some dataBuf) = some (.ok v) ∧ 0 ≤ v := by
  have hoff : d.state ≠ .off := by simp [hon]
  simp only [LightSensor.measure, if_neg hoff]
  obtain ⟨raw, hraw⟩ : ∃ raw, getRawData (some dataBuf) = .ok raw := ⟨_, rfl⟩
  obtain ⟨rawCh0, rawCh1⟩ := raw
  simp only [hraw]
  by_cases hzero : rawCh0 = 0
  · exact ⟨0, by rw [if_pos hzero], le_refl 0⟩
  · obtain ⟨ch0, hch0, -, hpos⟩ := scaled_exact d rawCh0
    obtain ⟨ch1, hch1, hnonneg, -⟩ := scaled_exact d rawCh1
    obtain ⟨v, hlevel, hv⟩ := lightLevel_nonneg (hpos hzero) hnonneg
    refine ⟨v, ?_, hv⟩
    simp only [if_neg hzero, hch0, hch1, Option.bind_eq_bind, Option.bind_some,
      Rounding.div_of_ne_zero id ch1 (hpos hzero).ne', id, hlevel]

/-- A sensor that is on reports a light level for every reading, whatever its settings. -/
theorem measure_nonneg (d : Tsl2561) (hon : d.state = .on) :
    (∀ dataBuf, ∃ v, measure id d (some dataBuf) = some (.ok v) ∧ 0 ≤ v) ∧
    (∀ x : ℚ, 0 ≤ x → x < 1.30 → ∃ r ∈ ranges, r.lo ≤ x ∧ x < r.hi) ∧
    ∀ r ∈ ranges, ∀ ch0 ch1 : ℚ, 0 < ch0 → ch1 / ch0 < r.hi → 0 ≤ r.c0 * ch0 - r.c1 * ch1 := by
  refine ⟨measure_on hon, fun x => ranges_cover, ?_⟩
  intro r hr ch0 ch1 hch0 hratio
  exact formula_nonneg hr hch0 hratio

theorem full_scale_nonneg :
    (∀ dataBuf, ∃ v, measure id ⟨.gain16x, .time13_7ms, .on⟩ (some dataBuf) = some (.ok v) ∧
      0 ≤ v) ∧
    (∀ x : ℚ, 0 ≤ x → x < 1.30 → ∃ r ∈ ranges, r.lo ≤ x ∧ x < r.hi) ∧
    ∀ r ∈ ranges, ∀ ch0 ch1 : ℚ, 0 < ch0 → ch1 / ch0 < r.hi → 0 ≤ r.c0 * ch0 - r.c1 * ch1 :=
  measure_nonneg ⟨.gain16x, .time13_7ms, .on⟩ rfl

end Ratfist.LightLevel
