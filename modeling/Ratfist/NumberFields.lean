import Ratfist.SpinnerMessages
import Ratfist.NumberText

/-!
The numbers in incoming messages: transaction id, channel and duration. Each is read
with `strtoul` and tested by hand; the tests let through what `strtoul` allows in front
of the digits. Any other token is read exactly when it is a decimal number in range.
-/
namespace Ratfist.NumberFields

open CString Constants Subsystem Routing SpinnerMessages NumberText

variable {F : Type} {n : ℕ}

/-- The number `v`, at most `max`, in decimal digits and nothing else. -/
structure Decimal (max : ℕ) (token : List Byte) (v : ℕ) : Prop where
  nonempty : token ≠ []
  digits : ∀ d ∈ token, 48 ≤ d ∧ d ≤ 57
  value : digitsVal 10 token = v
  le_max : v ≤ max

/-- The number read from a token, if any, is the one that its digits say. -/
def ReadsDecimals (max : ℕ) (token : List Byte) (read : Option ℕ) : Prop :=
  ∀ v, read = some v ↔ Decimal max token v

/-- Digits behind white space or a sign that `strtoul` makes a number up to `max` of. -/
def Decorated (max : ℕ) (token : List Byte) : Prop :=
  ∃ spaces sign digits, Spelled 10 token spaces sign digits ∧ (spaces ≠ [] ∨ sign ≠ []) ∧
    digitsVal 10 digits ≤ ulongMax ∧ signed sign (digitsVal 10 digits) ≤ max

/-- `strtoul`, the tests of errno and of `end_ptr`, and the test of the range. -/
def readNumber (max : ℕ) (token : List Byte) : Option ℕ :=
  let r := strtoul 10 token
  if conversionFailed token r.consumed r.erange || max < r.value then none else some r.value

def readDuration (token : List Byte) : Option ℕ :=
  let r := strtoul 10 token
  if conversionFailed token r.consumed r.erange then none else some r.value

/-- A leg behind its duration. -/
def parseTarget (libc : Libc F) (i : Fin n) (later : List (Fin n)) (data : SpinPlanData n F)
    (savePtr : Option (List Byte)) : Bool × SpinPlanData n F × Option (List Byte) :=
  match strtokR libc.nullAtEnd comma savePtr with
  | (none, savePtr) => (false, data, savePtr)
  | (some token, savePtr) =>
    let r := libc.strtof token
    let data := data.setTarget i r.value
    if conversionFailed token r.consumed r.erange then (false, data, savePtr)
    else parseLegs libc later data savePtr

/-- A parsing function stores the channel it reads first, and gives up without one. -/
def TakesChannel {δ : Type} (libc : Libc F) (parse : δ → Option (List Byte) → Bool × δ)
    (channelNum : δ → UInt8) : Prop :=
  ∀ data savePtr,
    (parseChannelNum libc savePtr = none → parse data savePtr = (false, data)) ∧
    ∀ ch rest, parseChannelNum libc savePtr = some (ch, rest) →
      channelNum (parse data savePtr).2 = ch

theorem isDigit_ten (d : Byte) : isDigit 10 d = true ↔ 48 ≤ d ∧ d ≤ 57 := by
  have hall : ∀ i : Fin 256, isDigit 10 (UInt8.ofFin i) = true ↔
      48 ≤ UInt8.ofFin i ∧ UInt8.ofFin i ≤ 57 := by
    decide +kernel
  simpa using hall d.toFin

theorem strtoul_value_le (base : ℕ) (token : List Byte) :
    (strtoul base token).value ≤ ulongMax := by
  simp only [strtoul]
  split_ifs with hnone hbig hneg
  · exact Nat.zero_le _
  · exact Nat.le_refl _
  · exact Nat.le_sub_one_of_lt (Nat.mod_lt _ (by decide))
  · exact Nat.le_of_not_lt hbig

theorem conversionFailed_eq_false_iff (token : List Byte) (consumed : ℕ) (erange : Bool) :
    conversionFailed token consumed erange = false ↔
      erange = false ∧ consumed ≠ 0 ∧ token.length ≤ consumed := by
  simp [conversionFailed, and_assoc, List.drop_eq_nil_iff]

/-- The numbers that pass all tests. -/
theorem readNumber_eq_some_iff (max : ℕ) (token : List Byte) (v : ℕ) :
    readNumber max token = some v ↔ ∃ spaces sign digits,
      Spelled 10 token spaces sign digits ∧ digitsVal 10 digits ≤ ulongMax ∧
      signed sign (digitsVal 10 digits) = v ∧ v ≤ max := by
  have hread : readNumber max token = some v ↔
      conversionFailed token (strtoul 10 token).consumed (strtoul 10 token).erange = false ∧
        (strtoul 10 token).value ≤ max ∧ (strtoul 10 token).value = v := by
    simp only [readNumber]
    split_ifs with h
    · simp only [Bool.or_eq_true, decide_eq_true_eq] at h
      refine iff_of_false (by simp) ?_
      rintro ⟨hok, hle, -⟩
      rcases h with h | h
      · rw [hok] at h
        cases h
      · omega
    · simp only [Bool.or_eq_true, decide_eq_true_eq, not_or, Bool.not_eq_true] at h
      simp only [Option.some.injEq]
      exact ⟨fun hv => ⟨h.1, by omega, hv⟩, fun hv => hv.2.2⟩
  rw [hread, conversionFailed_eq_false_iff]
  constructor
  · rintro ⟨⟨herange, hsome, hall⟩, hle, hv⟩
    have hbare (s : List Byte) (_ : s.length ≤ token.length) : readPrefix 10 s = 0 := by
      rcases s with _ | ⟨z, _ | ⟨x, _ | ⟨d, ds⟩⟩⟩ <;> simp [readPrefix]
    have hlen : (strtoul 10 token).consumed = token.length :=
      Nat.le_antisymm (strtoul_consumed_le 10 token) hall
    obtain ⟨spaces, sign, digits, h⟩ := spelled_of_read hbare hlen hsome
    rw [strtoul_spelled (by omega) h] at herange hle hv
    split_ifs at herange hle hv with hbig
    exact ⟨spaces, sign, digits, h, Nat.le_of_not_lt hbig, hv, hv ▸ hle⟩
  · rintro ⟨spaces, sign, digits, h, hle, rfl, hmax⟩
    have hlen : 0 < token.length := by
      have := List.length_pos_of_ne_nil h.nonempty
      rw [h.split]
      simp only [List.length_append]
      omega
    rw [strtoul_spelled (by omega) h, if_neg (Nat.not_lt.mpr hle)]
    exact ⟨⟨rfl, Nat.ne_of_gt hlen, Nat.le_refl _⟩, hmax, rfl⟩

/-- A decimal number is one of them. -/
theorem Decimal.spelled {max : ℕ} {token : List Byte} {v : ℕ} (h : Decimal max token v) :
    Spelled 10 token [] [] token :=
  ⟨rfl, by simp, Or.inl rfl, fun d hd => (isDigit_ten d).mpr (h.digits d hd), h.nonempty⟩

/-- A decorated number does not begin with a digit. -/
theorem Decorated.not_decimal {max max' : ℕ} {token : List Byte} (h : Decorated max token)
    (v : ℕ) : ¬ Decimal max' token v := by
  intro hdec
  obtain ⟨spaces, sign, digits, hspelled, hmore, -⟩ := h
  obtain ⟨first, rest, htoken⟩ := List.exists_cons_of_ne_nil hdec.nonempty
  have hfirst : isDigit 10 first = true :=
    (isDigit_ten first).mpr (hdec.digits first (by simp [htoken]))
  obtain ⟨hspace, hminus, hplus⟩ := isDigit_plain (by omega) hfirst
  have hsplit := hspelled.split
  rw [htoken] at hsplit
  rcases spaces with _ | ⟨a, spaces⟩
  · rcases hspelled.plusMinus with rfl | rfl | rfl
    · simp at hmore
    · exact hminus (List.cons.inj hsplit).1
    · exact hplus (List.cons.inj hsplit).1
  · have hblank := hspelled.blank a (by simp)
    rw [← (List.cons.inj hsplit).1, hspace] at hblank
    cases hblank

/-- The tests let through the decorated numbers, and nothing else is wrong with them. -/
theorem readNumber_iff {max : ℕ} (hmax : max ≤ ulongMax) (token : List Byte) :
    ReadsDecimals max token (readNumber max token) ↔ ¬ Decorated max token := by
  constructor
  · intro h hdecorated
    obtain ⟨spaces, sign, digits, hspelled, hmore, hle, hsigned⟩ := hdecorated
    have hread := (readNumber_eq_some_iff max token _).mpr
      ⟨spaces, sign, digits, hspelled, hle, rfl, hsigned⟩
    have hdec : Decorated max token := ⟨spaces, sign, digits, hspelled, hmore, hle, hsigned⟩
    exact hdec.not_decimal _ ((h _).mp hread)
  · intro hno v
    rw [readNumber_eq_some_iff]
    constructor
    · rintro ⟨spaces, sign, digits, hspelled, hle, rfl, hsigned⟩
      have hplain : spaces = [] ∧ sign = [] := by
        by_contra hmore
        exact hno ⟨spaces, sign, digits, hspelled, by tauto, hle, hsigned⟩
      obtain ⟨rfl, rfl⟩ := hplain
      obtain rfl : token = digits := hspelled.split
      exact ⟨hspelled.nonempty, fun d hd => (isDigit_ten d).mp (hspelled.isDigits d hd), rfl,
        hsigned⟩
    · intro h
      exact ⟨[], [], token, h.spelled, by rw [h.value]; exact Nat.le_trans h.le_max hmax,
        h.value, h.le_max⟩

/-! The fields in terms of `readNumber`. -/

theorem readDuration_eq (token : List Byte) : readDuration token = readNumber ulongMax token := by
  have hle := Nat.not_lt.mpr (strtoul_value_le 10 token)
  simp [readDuration, readNumber, hle]

theorem parseTransactionId_eq (token : List Byte) :
    parseTransactionId token = readNumber ulongMax token :=
  readDuration_eq token

theorem parseChannelNum_eq {libc : Libc F} {savePtr rest : Option (List Byte)}
    {token : List Byte} (h : strtokR libc.nullAtEnd comma savePtr = (some token, rest)) :
    (parseChannelNum libc savePtr).map (fun r => r.1.toNat) = readNumber 255 token := by
  simp only [parseChannelNum, h, readNumber]
  split_ifs with hbad
  · rfl
  · simp only [Bool.or_eq_true, decide_eq_true_eq, not_or, Nat.not_lt] at hbad
    simp only [Option.map_some, Option.some.injEq, Nat.toUInt8, UInt8.toNat_ofNat']
    omega

/-- A leg begins with its duration. -/
theorem parseLegs_eq {libc : Libc F} {savePtr rest : Option (List Byte)} {token : List Byte}
    (h : strtokR libc.nullAtEnd comma savePtr = (some token, rest)) (i : Fin n)
    (later : List (Fin n)) (data : SpinPlanData n F) :
    parseLegs libc (i :: later) data savePtr =
      (readDuration token).elim
        (false, data.setDuration i (strtoul 10 token).value.toUInt32, rest)
        (fun v => parseTarget libc i later (data.setDuration i v.toUInt32) rest) := by
  simp only [parseLegs, h, readDuration]
  split_ifs with hbad <;> rfl

theorem parseLegs_channelNum (libc : Libc F) (is : List (Fin n)) (data : SpinPlanData n F)
    (savePtr : Option (List Byte)) :
    (parseLegs libc is data savePtr).2.1.channelNum = data.channelNum := by
  induction is generalizing data savePtr with
  | nil => rfl
  | cons i later ih =>
    simp only [parseLegs]
    rcases strtokR libc.nullAtEnd comma savePtr with ⟨_ | token, savePtr⟩
    · rfl
    · simp only
      split_ifs
      · rfl
      · rcases strtokR libc.nullAtEnd comma savePtr with ⟨_ | token, savePtr⟩
        · rfl
        · simp only
          split_ifs
          · rfl
          · exact ih _ _

theorem parseSetPlan_channel (libc : Libc F) :
    TakesChannel libc (parseSetPlan (n := n) libc) SpinPlanData.channelNum := by
  intro data savePtr
  refine ⟨fun hnone => by simp only [parseSetPlan, hnone], fun ch rest hsome => ?_⟩
  have hkeeps := parseLegs_channelNum libc (List.finRange n) { data with channelNum := ch } rest
  simp only [parseSetPlan, hsome]
  rcases hlegs : parseLegs libc (List.finRange n) { data with channelNum := ch } rest with
    ⟨_ | _, data', savePtr'⟩
  all_goals
    rw [hlegs] at hkeeps
    exact hkeeps

theorem parseSpinChannel_channel (libc : Libc F) :
    TakesChannel libc (parseSpinChannel libc) SmallSizeMsgData.channelNum := by
  intro data savePtr
  exact ⟨fun hnone => by simp only [parseSpinChannel, hnone],
    fun ch rest hsome => by simp only [parseSpinChannel, hsome]⟩

theorem parseSetState_channel (libc : Libc F) :
    TakesChannel libc (parseSetState libc) SmallSizeMsgData.channelNum := by
  intro data savePtr
  refine ⟨fun hnone => by simp only [parseSetState, hnone], fun ch rest hsome => ?_⟩
  simp only [parseSetState, hsome]
  rcases strtokR libc.nullAtEnd comma rest with ⟨_ | token, savePtr⟩
  · rfl
  · simp only
    split_ifs <;> rfl

/-- Each field is read as a decimal number in range exactly when its token is not decorated;
the four parsing functions store the channel so read, and a leg its duration. -/
theorem number_fields_iff (libc : Libc F) (n : ℕ) :
    (∀ token, ReadsDecimals ulongMax token (parseTransactionId token) ↔
      ¬ Decorated ulongMax token) ∧
    (∀ savePtr token rest, strtokR libc.nullAtEnd comma savePtr = (some token, rest) →
      (ReadsDecimals 255 token ((parseChannelNum libc savePtr).map fun r => r.1.toNat) ↔
        ¬ Decorated 255 token)) ∧
    (TakesChannel libc (parseSetPlan (n := n) libc) SpinPlanData.channelNum ∧
      TakesChannel libc (parseGetPlan libc) SmallSizeMsgData.channelNum ∧
      TakesChannel libc (parseSetState libc) SmallSizeMsgData.channelNum ∧
      TakesChannel libc (parseGetState libc) SmallSizeMsgData.channelNum) ∧
    (∀ token, ReadsDecimals ulongMax token (readDuration token) ↔
      ¬ Decorated ulongMax token) ∧
    ∀ savePtr token rest, strtokR libc.nullAtEnd comma savePtr = (some token, rest) →
      ∀ (i : Fin n) (later : List (Fin n)) (data : SpinPlanData n F),
        parseLegs libc (i :: later) data savePtr =
          (readDuration token).elim
            (false, data.setDuration i (strtoul 10 token).value.toUInt32, rest)
            (fun v => parseTarget libc i later (data.setDuration i v.toUInt32) rest) := by
  refine ⟨fun token => ?_, fun savePtr token rest h => ?_,
    ⟨parseSetPlan_channel libc, parseSpinChannel_channel libc, parseSetState_channel libc,
      parseSpinChannel_channel libc⟩, fun token => ?_,
    fun savePtr token rest h i later data => parseLegs_eq h i later data⟩
  · rw [parseTransactionId_eq]
    exact readNumber_iff (Nat.le_refl _) token
  · rw [parseChannelNum_eq h]
    exact readNumber_iff (by decide) token
  · rw [readDuration_eq]
    exact readNumber_iff (Nat.le_refl _) token

theorem minus_not_decimal {max v : ℕ} {token : List Byte} (h : 45 ∈ token) :
    ¬ Decimal max token v :=
  fun hdec => absurd (hdec.digits 45 h) (by decide)

/-- A negative id and a negative duration are read as 2^32 - 1, and a number that is
negative enough is a channel. -/
theorem negative_numbers_accepted :
    parseTransactionId (ascii "-1") = some 4294967295 ∧
      readDuration (ascii "-1") = some 4294967295 ∧
      ((parseChannelNum wholeNumbers (some (ascii "-4294967291"))).map fun r => r.1.toNat) =
        some 5 ∧
      ¬ ReadsDecimals ulongMax (ascii "-1") (parseTransactionId (ascii "-1")) ∧
      ¬ ReadsDecimals ulongMax (ascii "-1") (readDuration (ascii "-1")) ∧
      ¬ ReadsDecimals 255 (ascii "-4294967291")
        ((parseChannelNum wholeNumbers (some (ascii "-4294967291"))).map fun r => r.1.toNat) := by
  have hid : parseTransactionId (ascii "-1") = some 4294967295 := by decide +kernel
  have hduration : readDuration (ascii "-1") = some 4294967295 := by decide +kernel
  have hchannel : ((parseChannelNum wholeNumbers (some (ascii "-4294967291"))).map
      fun r => r.1.toNat) = some 5 := by decide +kernel
  refine ⟨hid, hduration, hchannel, fun h => ?_, fun h => ?_, fun h => ?_⟩
  · exact minus_not_decimal (by decide) ((h _).mp hid)
  · exact minus_not_decimal (by decide) ((h _).mp hduration)
  · exact minus_not_decimal (by decide) ((h _).mp hchannel)

theorem channel_seventeen_read :
    ReadsDecimals 255 (ascii "17")
        ((parseChannelNum wholeNumbers (some (ascii "17,1"))).map fun r => r.1.toNat) ↔
      ¬ Decorated 255 (ascii "17") :=
  (number_fields_iff wholeNumbers 20).2.1 (some (ascii "17,1")) (ascii "17") (some (ascii "1"))
    (by decide)

end Ratfist.NumberFields
