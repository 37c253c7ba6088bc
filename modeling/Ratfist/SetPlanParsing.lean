import Ratfist.NumberFields
import Ratfist.PlanReadBack

/-!
`parse_set_plan` against what a SET_PLAN payload says. It accepts the payloads that describe
a plan and stores channel and legs. The number of legs it stores only when it finds the end
of the text, not when it leaves the loop at its bound.
-/
namespace Ratfist.SetPlanParsing

open CString Constants Routing SpinnerMessages NumberFields SpinnerBounds PlanReadBack

variable {F : Type} {n : ℕ}

def readTarget (libc : Libc F) (token : List Byte) : Option F :=
  let r := libc.strtof token
  if conversionFailed token r.consumed r.erange then none else some r.value

def readLegs (libc : Libc F) : List (List Byte) → Option (List (PwmLeg F))
  | [] => some []
  | [_] => none
  | duration :: target :: later => do
    let durationMsecs ← readDuration duration
    let targetPct ← readTarget libc target
    let legs ← readLegs libc later
    some (⟨durationMsecs.toUInt32, targetPct⟩ :: legs)

def readPlan (libc : Libc F) (n : ℕ) : List (List Byte) → Option (ℕ × List (PwmLeg F))
  | [] => none
  | channel :: later => do
    let chNum ← readNumber 255 channel
    let legs ← readLegs libc later
    if legs.length ≤ n then some (chNum, legs) else none

structure Stores (data : SpinPlanData n F) (chNum : ℕ) (legs : List (PwmLeg F)) : Prop where
  channelNum : data.channelNum.toNat = chNum
  planLegCount : data.planLegCount.toNat = legs.length
  planLegs : ∀ i, i < legs.length → data.planLegs[i]? = legs[i]?

/-- The payload is accepted if it describes a plan, and then the block holds that plan. -/
structure ReadsPlan (libc : Libc F) (stale : SpinPlanData n F) (payload : Option (List Byte)) :
    Prop where
  accepts : (parseSetPlan libc stale payload).1 = true ↔
    (readPlan libc n (savedTokens comma payload)).isSome
  stores : ∀ chNum legs, readPlan libc n (savedTokens comma payload) = some (chNum, legs) →
    Stores (parseSetPlan libc stale payload).2 chNum legs

theorem readDuration_value {token : List Byte} {d : ℕ} (h : readDuration token = some d) :
    (strtoul 10 token).value = d := by
  simp only [readDuration] at h
  split_ifs at h
  exact Option.some.inj h

theorem readTarget_value {libc : Libc F} {token : List Byte} {t : F}
    (h : readTarget libc token = some t) : (libc.strtof token).value = t := by
  simp only [readTarget] at h
  split_ifs at h
  exact Option.some.inj h

theorem readLegs_described {libc : Libc F} {toks : List (List Byte)} {legs : List (PwmLeg F)}
    (h : readLegs libc toks = some legs) : describedLegs libc toks = legs := by
  induction toks using readLegs.induct generalizing legs with
  | case1 =>
    cases h
    rfl
  | case2 => cases h
  | case3 duration target later ih =>
    simp only [readLegs, Option.bind_eq_bind, Option.bind_eq_some_iff] at h
    obtain ⟨d, hd, t, ht, legs', hlegs, hcons⟩ := h
    cases hcons
    rw [describedLegs, ih hlegs, readDuration_value hd, readTarget_value ht]

/-- A leg ends with its target. -/
theorem parseTarget_eq {libc : Libc F} {savePtr rest : Option (List Byte)} {token : List Byte}
    (h : strtokR libc.nullAtEnd comma savePtr = (some token, rest)) (i : Fin n)
    (later : List (Fin n)) (data : SpinPlanData n F) :
    parseTarget libc i later data savePtr =
      (readTarget libc token).elim (false, data.setTarget i (libc.strtof token).value, rest)
        (fun t => parseLegs libc later (data.setTarget i t) rest) := by
  simp only [parseTarget, h, readTarget]
  split_ifs with hbad <;> rfl

/-- The loop takes all tokens exactly when they are legs that it has room for. -/
theorem parseLegs_accepts_iff (libc : Libc F) (indices : List (Fin n)) (data : SpinPlanData n F)
    (savePtr : Option (List Byte)) :
    (∃ data' rest, parseLegs libc indices data savePtr = (true, data', rest) ∧
      savedTokens comma rest = []) ↔
    ∃ legs, readLegs libc (savedTokens comma savePtr) = some legs ∧
      legs.length ≤ indices.length := by
  induction indices generalizing data savePtr with
  | nil =>
    constructor
    · intro htaken
      obtain ⟨data', rest, hparse, hend⟩ := htaken
      cases hparse
      exact ⟨[], by rw [hend]; rfl, Nat.le_refl 0⟩
    · intro hread
      obtain ⟨legs, hlegs, hlen⟩ := hread
      refine ⟨data, savePtr, rfl, ?_⟩
      have hnone : describedLegs libc (savedTokens comma savePtr) = [] := by
        rw [readLegs_described hlegs, List.eq_nil_of_length_eq_zero (Nat.le_zero.mp hlen)]
      rcases htoks : savedTokens comma savePtr with _ | ⟨duration, _ | ⟨target, more⟩⟩
      · rfl
      · rw [htoks] at hlegs
        cases hlegs
      · rw [htoks] at hnone
        cases hnone
  | cons i later ih =>
    rcases hs : strtokR libc.nullAtEnd comma savePtr with ⟨_ | duration, save⟩
    · obtain ⟨hnil, hend⟩ := strtokR_none hs
      have hparse : parseLegs libc (i :: later) data savePtr =
          (true, { data with planLegCount := i.val.toUInt32 }, save) := by
        simp only [parseLegs, hs]
      rw [hnil]
      exact iff_of_true ⟨_, save, hparse, hend⟩ ⟨[], rfl, Nat.zero_le _⟩
    rw [parseLegs_eq hs, strtokR_some hs]
    rcases hs' : strtokR libc.nullAtEnd comma save with ⟨_ | target, save'⟩
    · rw [(strtokR_none hs').1]
      refine iff_of_false ?_ (by simp [readLegs])
      intro htaken
      obtain ⟨data', rest, hparse, -⟩ := htaken
      cases hd : readDuration duration <;> simp [hd, parseTarget, hs'] at hparse
    · rw [strtokR_some hs']
      simp only [parseTarget_eq hs', readLegs]
      cases hd : readDuration duration with
      | none => simp
      | some d =>
        cases ht : readTarget libc target with
        | none => simp
        | some t =>
          simp only [Option.elim_some, ih, Option.bind_eq_bind, Option.bind_some,
            Option.bind_eq_some_iff, List.length_cons]
          constructor
          · intro hread
            obtain ⟨legs, hlegs, hlen⟩ := hread
            exact ⟨_, ⟨legs, hlegs, rfl⟩, Nat.succ_le_succ hlen⟩
          · intro hread
            obtain ⟨_, ⟨legs, hlegs, hcons⟩, hlen⟩ := hread
            cases hcons
            exact ⟨legs, hlegs, Nat.le_of_succ_le_succ hlen⟩

theorem readPlan_eq_some_iff {libc : Libc F} {channel : List Byte} {later : List (List Byte)}
    {chNum : ℕ} {legs : List (PwmLeg F)} :
    readPlan libc n (channel :: later) = some (chNum, legs) ↔
      readNumber 255 channel = some chNum ∧ readLegs libc later = some legs ∧
        legs.length ≤ n := by
  simp only [readPlan, Option.bind_eq_bind, Option.bind_eq_some_iff]
  constructor
  · intro hread
    obtain ⟨ch, hch, legs', hlegs, hif⟩ := hread
    split_ifs at hif with hlen
    cases hif
    exact ⟨hch, hlegs, hlen⟩
  · intro hread
    obtain ⟨hch, hlegs, hlen⟩ := hread
    exact ⟨chNum, hch, legs, hlegs, if_pos hlen⟩

theorem readPlan_length_le {libc : Libc F} {toks : List (List Byte)} {chNum : ℕ}
    {legs : List (PwmLeg F)} (h : readPlan libc n toks = some (chNum, legs)) :
    legs.length ≤ n := by
  cases toks with
  | nil => cases h
  | cons channel later => exact (readPlan_eq_some_iff.mp h).2.2

theorem parseSetPlan_accepts_iff (libc : Libc F) (stale : SpinPlanData n F)
    (payload : Option (List Byte)) :
    (parseSetPlan libc stale payload).1 = true ↔
      ∃ plan, readPlan libc n (savedTokens comma payload) = some plan := by
  rcases hs : strtokR libc.nullAtEnd comma payload with ⟨_ | channel, save⟩
  · rw [(strtokR_none hs).1]
    simp [parseSetPlan, parseChannelNum, hs, readPlan]
  have hread := parseChannelNum_eq hs
  rw [strtokR_some hs]
  cases hch : parseChannelNum libc payload with
  | none =>
    rw [hch] at hread
    simp [parseSetPlan, hch, readPlan, ← hread]
  | some found =>
    obtain ⟨chNum, rest⟩ := found
    have hrest := parseChannelNum_rest hch
    rw [strtokR_some hs, List.tail_cons] at hrest
    rw [hch] at hread
    have hloop := parseLegs_accepts_iff libc (List.finRange n)
      { stale with channelNum := chNum } rest
    rw [hrest, List.length_finRange] at hloop
    have hplan : (∃ plan, readPlan libc n (channel :: savedTokens comma save) = some plan) ↔
        ∃ legs, readLegs libc (savedTokens comma save) = some legs ∧ legs.length ≤ n := by
      constructor
      · intro hsome
        obtain ⟨⟨_, legs⟩, hplan⟩ := hsome
        exact ⟨legs, (readPlan_eq_some_iff.mp hplan).2⟩
      · intro hsome
        obtain ⟨legs, hlegs⟩ := hsome
        exact ⟨(chNum.toNat, legs), readPlan_eq_some_iff.mpr ⟨hread.symm, hlegs⟩⟩
    rw [hplan, ← hloop]
    simp only [parseSetPlan, hch]
    rcases parseLegs libc (List.finRange n) { stale with channelNum := chNum } rest with
      ⟨_ | _, data, rest'⟩
    · simp
    · have hend := (strtokR_spec libc.nullAtEnd comma rest').1
      simp [hend, List.head?_eq_none_iff]

/-- What an accepted payload leaves in the block, whatever that held. -/
theorem parseSetPlan_stores {libc : Libc F} (stale : SpinPlanData n F)
    {payload : Option (List Byte)} {chNum : ℕ} {legs : List (PwmLeg F)} (hn : n < 2 ^ 32)
    (h : readPlan libc n (savedTokens comma payload) = some (chNum, legs)) :
    (parseSetPlan libc stale payload).2.channelNum.toNat = chNum ∧
      (parseSetPlan libc stale payload).2.planLegCount =
        (if legs.length < n then legs.length.toUInt32 else stale.planLegCount) ∧
      ∀ i, i < legs.length → (parseSetPlan libc stale payload).2.planLegs[i]? = legs[i]? := by
  have haccepted := (parseSetPlan_accepts_iff libc stale payload).mpr ⟨_, h⟩
  rcases hparse : parseSetPlan libc stale payload with ⟨ok, data⟩
  rw [hparse] at haccepted
  subst haccepted
  obtain ⟨hchannel, -, hcount⟩ := parseSetPlan_spec hparse
  match htoks : savedTokens comma payload with
  | [] =>
    rw [htoks] at h
    cases h
  | channel :: later =>
    rw [htoks, readPlan_eq_some_iff] at h
    obtain ⟨hch, hlegs, hlen⟩ := h
    have hdescribed := readLegs_described hlegs
    have hpairs : legPairs payload = legs.length := by
      rw [legPairs, htoks, List.length_cons, Nat.add_sub_cancel, ← describedLegs_length libc,
        hdescribed]
    have hsmall : (legPairs payload).toUInt32.toNat = legPairs payload := by
      have : legPairs payload < 2 ^ 32 := by omega
      simpa using this
    have hholds : HoldsPlan libc payload
        { data with planLegCount := (legPairs payload).toUInt32 } :=
      AcceptedPlan.holdsPlan ⟨stale, payload, data, hparse⟩ rfl rfl hsmall
    rw [hpairs] at hcount
    refine ⟨?_, hcount, ?_⟩
    · rcases hs : strtokR libc.nullAtEnd comma payload with ⟨_ | token, rest⟩
      · rw [(strtokR_none hs).1] at htoks
        cases htoks
      · have hread := parseChannelNum_eq hs
        rw [strtokR_some hs] at htoks
        cases htoks
        obtain ⟨found, hfound, heq⟩ := Option.map_eq_some_iff.mp hchannel
        rw [hfound, hch] at hread
        rw [← Option.some.inj hread, ← heq]
    · intro i hi
      have hstored := hholds.legs
      rw [htoks, List.tail_cons, hdescribed, hpairs] at hstored
      rw [← hstored, List.getElem?_take_of_lt hi, Vector.getElem?_toList]

/-- The payloads with fewer legs than the maximum are read as they should be, and those with
that many into a block that comes with this count. -/
theorem set_plan_parsing_iff (b : Board) (libc : Libc F)
    (stale : SpinPlanData b.maxSpinPlanLegs F) (payload : Option (List Byte)) :
    ReadsPlan libc stale payload ↔ ∀ chNum legs,
      readPlan libc b.maxSpinPlanLegs (savedTokens comma payload) = some (chNum, legs) →
        legs.length = b.maxSpinPlanLegs → stale.planLegCount.toNat = b.maxSpinPlanLegs := by
  have hn : b.maxSpinPlanLegs < 2 ^ 32 := by cases b <;> decide
  constructor
  · intro h chNum legs hread hfull
    have hcount := (h.stores chNum legs hread).planLegCount
    rw [(parseSetPlan_stores stale hn hread).2.1, if_neg (by omega)] at hcount
    exact hcount.trans hfull
  · intro h
    refine ⟨?_, ?_⟩
    · rw [parseSetPlan_accepts_iff, Option.isSome_iff_exists]
    · intro chNum legs hread
      obtain ⟨hchannel, hcount, hlegs⟩ := parseSetPlan_stores stale hn hread
      refine ⟨hchannel, ?_, hlegs⟩
      rw [hcount]
      split_ifs with hfewer
      · have : legs.length < 2 ^ 32 := by omega
        simpa using this
      · have hlen := readPlan_length_le hread
        have hfull : legs.length = b.maxSpinPlanLegs := by omega
        rw [h chNum legs hread hfull, hfull]

/-- Twenty legs, accepted into a fresh block whose count stays zero. -/
theorem twenty_legs_counted_zero :
    ¬ ReadsPlan (n := Board.stm32f072discovery.maxSpinPlanLegs) wholeNumbers
      ⟨0, 0, Vector.replicate _ ⟨0, 0⟩⟩
      (some (ascii "0" ++ (List.replicate 20 (ascii ",9,1")).flatten)) := by
  intro h
  have hread : readPlan wholeNumbers Board.stm32f072discovery.maxSpinPlanLegs
      (savedTokens comma (some (ascii "0" ++ (List.replicate 20 (ascii ",9,1")).flatten))) =
        some (0, List.replicate 20 ⟨9, 1⟩) := by
    decide +kernel
  have hcount := (h.stores 0 _ hread).planLegCount
  revert hcount
  decide +kernel

end Ratfist.SetPlanParsing
