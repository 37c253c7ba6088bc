import Ratfist.CStrWriter
import Ratfist.SpinnerMessages
import Ratfist.Transmit

/-!
The serializers of the two subsystems: the three of the spinner, which add up the
results of `snprintf`, and the one of the Rust part, which writes through `CStrWriter`.
Each gets the `n` bytes it may write to, and returns them with its result.
-/
namespace Ratfist.Serializers

open CString CheckedArray Constants Routing Transmit SpinnerMessages

variable {n legs : ℕ} {F : Type}

/-! The texts; `text` stands for `%f`, and for what Rust displays of a number. -/

def legText (text : F → List Byte) (leg : PwmLeg F) : List Byte :=
  comma :: (decimal leg.durationMsecs.toNat ++ comma :: text leg.targetPct)

def planText (text : F → List Byte) (data : SpinPlanData legs F) : List Byte :=
  comma :: decimal data.channelNum.toNat ++
    (data.planLegs.toList.take data.planLegCount.toNat).flatMap (legText text)

/-- `spin_state_lut` -/
def spinStateLut : List (List Byte) := [ascii "STOPPED", ascii "RUNNING", ascii "SPINNING_DOWN"]

def stateText (text : F → List Byte) (data : SmallSizeMsgData F) (stateName : List Byte) :
    List Byte :=
  comma :: (decimal data.channelNum.toNat ++ comma :: (stateName ++
    comma :: (decimal data.planTimeElapsedMsecs.toNat ++ comma :: text data.outputValPct)))

def retText (data : SmallSizeMsgData F) : List Byte := comma :: decimalInt data.retVal

structure StdResponsePayload (F : Type) where
  channel : UInt32
  value : F

def responseText (text : F → List Byte) (payload : StdResponsePayload F) : List Byte :=
  comma :: (decimal payload.channel.toNat ++ comma :: text payload.value)

/-! The functions. -/

/-- The loop over the legs, on the indices still to come. -/
def serializeLegs (text : F → List Byte) (data : SpinPlanData legs F) :
    List ℕ → Vector Byte n → ℕ → Option (Vector Byte n × ℤ)
  | [], outputBuf, len => some (outputBuf, len)
  | i :: later, outputBuf, len => do
    let leg ← read data.planLegs i
    let (outputBuf, currLen) ← snprintf outputBuf len (← sub n len) (legText text leg)
    if currLen ≤ 0 then some (outputBuf, -1)
    else
      let len := len + currLen.toNat
      if n ≤ len then some (outputBuf, -1) else serializeLegs text data later outputBuf len

def serializePlanReply (text : F → List Byte) (data : SpinPlanData legs F)
    (outputBuf : Vector Byte n) : Option (Vector Byte n × ℤ) := do
  let (outputBuf, currLen) ← snprintf outputBuf 0 n (comma :: decimal data.channelNum.toNat)
  if currLen ≤ 0 then some (outputBuf, -1)
  else
    let len := currLen.toNat
    if n ≤ len then some (outputBuf, -1)
    else serializeLegs text data (List.range data.planLegCount.toNat) outputBuf len

/-- A payload that takes one call of `snprintf`. -/
def serializeText (line : List Byte) (outputBuf : Vector Byte n) : Option (Vector Byte n × ℤ) := do
  let (outputBuf, len) ← snprintf outputBuf 0 n line
  if len ≤ 0 ∨ n ≤ len.toNat then some (outputBuf, -1) else some (outputBuf, len)

def serializeStateReply (text : F → List Byte) (data : SmallSizeMsgData F)
    (outputBuf : Vector Byte n) : Option (Vector Byte n × ℤ) := do
  let stateName ← spinStateLut[data.state.toNat]?
  serializeText (stateText text data stateName) outputBuf

def serializeRetVal (data : SmallSizeMsgData F) (outputBuf : Vector Byte n) :
    Option (Vector Byte n × ℤ) :=
  serializeText (retText data) outputBuf

/-- `pieces` is how the formatting machinery cuts the text up; `data` is `none` for NULL. -/
def stdResponseSerialize (pieces : StdResponsePayload F → List (List Byte))
    (data : Option (StdResponsePayload F)) (outputStr : Vector Byte n) :
    Option (Vector Byte n × ℤ) :=
  match data with
  | none => some (outputStr, -1)
  | some payload => do
    let w ← CStrWriter.new outputStr
    let (ok, w) ← w.writeFmt (pieces payload)
    some (w.buf, if ok then (w.pos : ℤ) else -1)

/-- A serializer as the callback of a handler; `stale` is what its part of the message
buffer holds before the call. -/
def asCallback (serialize : (room : ℕ) → Vector Byte room → Option (Vector Byte room × ℤ))
    (stale : (room : ℕ) → Vector Byte room) (room : ℕ) : List Byte × ℤ :=
  match serialize room (stale room) with
  | some (outputBuf, len) => (outputBuf.toList, len)
  | none => ([], -1)

/-- What the dispatcher asks of a serializer: no access outside the buffer, and the length
of a text that is there with a NUL behind it, or -1. -/
def Honours (text : List Byte) (r : Option (Vector Byte n × ℤ)) : Prop :=
  ∃ outputBuf len, r = some (outputBuf, len) ∧
    (text.length < n → len = text.length ∧ 0 < len ∧ Holds outputBuf (text ++ [0])) ∧
    (n ≤ text.length → len = -1)

theorem asCallback_honours {text : List Byte}
    (serialize : (room : ℕ) → Vector Byte room → Option (Vector Byte room × ℤ))
    (stale : (room : ℕ) → Vector Byte room) {room : ℕ}
    (h : Honours text (serialize room (stale room))) :
    ∃ output len, asCallback serialize stale room = (output, len) ∧ output.length ≤ room ∧
      (text.length < room → len = text.length ∧ text <+: output) ∧
      (room ≤ text.length → len = -1) := by
  obtain ⟨outputBuf, len, hrun, hfits, hlong⟩ := h
  refine ⟨outputBuf.toList, len, by rw [asCallback, hrun], by simp, ?_, hlong⟩
  intro hroom
  obtain ⟨hlen, -, hholds⟩ := hfits hroom
  refine ⟨hlen, ?_⟩
  rw [← hholds.left]
  exact List.take_prefix _ _

/-- One call of `snprintf` behind what is already there: the text fits with its NUL, or
the sum of the lengths reaches the size of the buffer. -/
theorem snprintf_cases {buf : Vector Byte n} {front : List Byte} (h : Holds buf front)
    (hfront : front.length < n) (text : List Byte) :
    ∃ buf', snprintf buf front.length (n - front.length) text = some (buf', (text.length : ℤ)) ∧
      ((front ++ text).length < n → Holds buf' (front ++ text ++ [0])) := by
  obtain ⟨buf', hbuf', hholds⟩ := snprintf_spec h (n - front.length) (by omega) (by omega) text
  refine ⟨buf', hbuf', ?_⟩
  intro hfits
  rw [List.length_append] at hfits
  rwa [List.take_of_length_le (by omega)] at hholds

theorem serializeText_honours (hn : 0 < n) {line : List Byte} (hne : line ≠ [])
    (outputBuf : Vector Byte n) : Honours line (serializeText line outputBuf) := by
  have hpos := List.length_pos_of_ne_nil hne
  obtain ⟨buf', hbuf', hholds⟩ := snprintf_cases (Holds.nil outputBuf) hn line
  rw [List.length_nil, Nat.sub_zero] at hbuf'
  simp only [List.nil_append] at hholds
  by_cases hfits : line.length < n
  · refine ⟨buf', line.length, ?_, ?_, by omega⟩
    · simp only [serializeText, hbuf', Option.bind_eq_bind, Option.bind_some]
      rw [if_neg (by omega)]
    · exact fun _ => ⟨rfl, by omega, hholds hfits⟩
  · refine ⟨buf', -1, ?_, fun h => absurd h hfits, fun _ => rfl⟩
    simp only [serializeText, hbuf', Option.bind_eq_bind, Option.bind_some]
    rw [if_pos (by omega)]

/-- The loop, from any leg on: the legs still to come are added to the text, or reported
as too long. -/
theorem serializeLegs_honours (text : F → List Byte) (data : SpinPlanData legs F)
    (later : List ℕ) (hlater : ∀ i ∈ later, i < legs) {outputBuf : Vector Byte n}
    {front : List Byte} (h : Holds outputBuf (front ++ [0])) (hne : front ≠ []) :
    Honours (front ++ (later.filterMap (read data.planLegs)).flatMap (legText text))
      (serializeLegs text data later outputBuf front.length) := by
  induction later generalizing outputBuf front with
  | nil =>
    have hlen := h.length_le
    have hpos := List.length_pos_of_ne_nil hne
    rw [List.length_append, List.length_singleton] at hlen
    simp only [List.filterMap_nil, List.flatMap_nil, List.append_nil]
    exact ⟨outputBuf, front.length, rfl, fun _ => ⟨rfl, by omega, h⟩, by omega⟩
  | cons i later ih =>
    have hi : i < legs := hlater i (by simp)
    have hlen := h.length_le
    rw [List.length_append, List.length_singleton] at hlen
    have hread := read_of_lt data.planLegs hi
    obtain ⟨buf', hbuf', hholds⟩ := snprintf_cases h.left (by omega) (legText text data.planLegs[i])
    have hleg : 0 < (legText text data.planLegs[i]).length := by simp [legText]
    rw [List.filterMap_cons_some hread, List.flatMap_cons, ← List.append_assoc]
    have hleg' : ∃ leg, legText text data.planLegs[i] = leg := ⟨_, rfl⟩
    obtain ⟨leg, hleg'⟩ := hleg'
    rw [hleg'] at hbuf' hholds hleg ⊢
    have hloop : serializeLegs text data (i :: later) outputBuf front.length =
        if n ≤ (front ++ leg).length then some (buf', -1)
        else serializeLegs text data later buf' (front ++ leg).length := by
      rw [List.length_append]
      simp only [serializeLegs, hread, Option.bind_eq_bind, Option.bind_some,
        sub_of_le (show front.length ≤ n by omega), hleg', hbuf',
        if_neg (show ¬ (leg.length : ℤ) ≤ 0 by omega), Int.toNat_natCast]
    rw [hloop]
    by_cases hfits : (front ++ leg).length < n
    · rw [if_neg (Nat.not_le.mpr hfits)]
      exact ih (fun j hj => hlater j (List.mem_cons_of_mem i hj)) (hholds hfits) (by simp [hne])
    · rw [if_pos (Nat.le_of_not_lt hfits)]
      refine ⟨buf', -1, rfl, ?_, fun _ => rfl⟩
      intro hlong
      rw [List.length_append] at hlong
      omega

theorem filterMap_read_range (v : Vector (PwmLeg F) legs) (k : ℕ) :
    (List.range k).filterMap (read v) = v.toList.take k := by
  induction k with
  | zero => rfl
  | succ k ih =>
    rw [List.range_succ, List.filterMap_append, ih, List.take_add_one, ← read_eq_toList]
    cases hread : read v k <;> simp [hread]

theorem serializePlanReply_honours (hn : 0 < n) (text : F → List Byte)
    (data : SpinPlanData legs F) (hlegs : data.planLegCount.toNat ≤ legs)
    (outputBuf : Vector Byte n) :
    Honours (planText text data) (serializePlanReply text data outputBuf) := by
  rw [planText, ← filterMap_read_range]
  obtain ⟨buf', hbuf', hholds⟩ := snprintf_cases (Holds.nil outputBuf) hn
    (comma :: decimal data.channelNum.toNat)
  rw [List.length_nil, Nat.sub_zero] at hbuf'
  simp only [List.nil_append] at hholds
  have hpos : 0 < (comma :: decimal data.channelNum.toNat).length := Nat.succ_pos _
  have hne : comma :: decimal data.channelNum.toNat ≠ [] := List.cons_ne_nil _ _
  unfold serializePlanReply
  generalize comma :: decimal data.channelNum.toNat = front at *
  simp only [hbuf', Option.bind_eq_bind, Option.bind_some,
    if_neg (show ¬ (front.length : ℤ) ≤ 0 by omega), Int.toNat_natCast]
  by_cases hfits : front.length < n
  · rw [if_neg (Nat.not_le.mpr hfits)]
    exact serializeLegs_honours text data _
      (fun i hi => Nat.lt_of_lt_of_le (List.mem_range.mp hi) hlegs) (hholds hfits) hne
  · rw [if_pos (Nat.le_of_not_lt hfits)]
    refine ⟨buf', -1, rfl, ?_, fun _ => rfl⟩
    intro hlong
    rw [List.length_append] at hlong
    omega

theorem serializeStateReply_honours (hn : 0 < n) (text : F → List Byte)
    (data : SmallSizeMsgData F) {stateName : List Byte}
    (hstate : spinStateLut[data.state.toNat]? = some stateName) (outputBuf : Vector Byte n) :
    Honours (stateText text data stateName) (serializeStateReply text data outputBuf) := by
  simp only [serializeStateReply, hstate, Option.bind_eq_bind, Option.bind_some]
  exact serializeText_honours hn (by simp [stateText]) outputBuf

theorem stdResponseSerialize_honours (hn : 0 < n) (text : F → List Byte)
    (pieces : StdResponsePayload F → List (List Byte)) (payload : StdResponsePayload F)
    (hpieces : (pieces payload).flatten = responseText text payload) (outputStr : Vector Byte n) :
    Honours (responseText text payload)
      (stdResponseSerialize pieces (some payload) outputStr) := by
  obtain ⟨w, hnew, hw⟩ := CStrWriter.new_wrote hn outputStr
  obtain ⟨w', hfmt, hdone⟩ := CStrWriter.writeFmt_cases hw (pieces payload)
  rw [List.nil_append, hpieces] at hfmt hdone
  have hpos : 0 < (responseText text payload).length := by simp [responseText]
  simp only [stdResponseSerialize, hnew, hfmt, Option.bind_eq_bind, Option.bind_some]
  by_cases hfits : (responseText text payload).length < n
  · have hwrote := hdone hfits
    refine ⟨w'.buf, w'.pos, by simp [hfits], ?_, by omega⟩
    intro _
    have hlen := hwrote.pos_eq
    exact ⟨by rw [hlen], by omega, hwrote.holds⟩
  · exact ⟨w'.buf, -1, by simp [hfits], fun h => absurd h hfits, fun _ => rfl⟩

/-- All serializers, on any contents and any buffer, and the writer under any calls: what
is written is what the buffer holds, up to the position and a NUL. -/
theorem serializers_honour_contract (hn : 1 ≤ n) (text : F → List Byte)
    (outputBuf : Vector Byte n) :
    (∀ (legs : ℕ) (data : SpinPlanData legs F), data.planLegCount.toNat ≤ legs →
      Honours (planText text data) (serializePlanReply text data outputBuf)) ∧
    (∀ data : SmallSizeMsgData F, data.state.toNat < spinStateLut.length →
      ∃ stateName, spinStateLut[data.state.toNat]? = some stateName ∧
        Honours (stateText text data stateName) (serializeStateReply text data outputBuf)) ∧
    (∀ data : SmallSizeMsgData F, Honours (retText data) (serializeRetVal data outputBuf)) ∧
    (∀ (pieces : StdResponsePayload F → List (List Byte)) (payload : StdResponsePayload F),
      (pieces payload).flatten = responseText text payload →
      Honours (responseText text payload)
        (stdResponseSerialize pieces (some payload) outputBuf)) ∧
    ∀ calls : List (List Byte), ∃ w₀ written w, CStrWriter.new outputBuf = some w₀ ∧
      w₀.writeStrs calls = some (written, w) ∧ w.pos < n ∧ read w.buf w.pos = some 0 ∧
      w.buf.toList.take w.pos = written.flatten ∧
      ∀ s w', w.writeStr s = some (false, w') → w' = w := by
  refine ⟨?_, ?_, ?_, ?_, ?_⟩
  · intro legs data hlegs
    exact serializePlanReply_honours hn text data hlegs outputBuf
  · intro data hstate
    have hget := List.getElem?_eq_getElem hstate
    exact ⟨_, hget, serializeStateReply_honours hn text data hget outputBuf⟩
  · intro data
    exact serializeText_honours hn (by simp [retText]) outputBuf
  · intro pieces payload hpieces
    exact stdResponseSerialize_honours hn text pieces payload hpieces outputBuf
  · intro calls
    obtain ⟨w₀, hnew, hw₀⟩ := CStrWriter.new_wrote hn outputBuf
    obtain ⟨written, w, hcalls, hw⟩ := CStrWriter.writeStrs_wrote hw₀ calls
    refine ⟨w₀, written, w, hnew, hcalls, hw.pos_lt, hw.nul, hw.text_eq, ?_⟩
    intro s w' hfail
    rcases CStrWriter.writeStr_cases hw s with ⟨-, hsame⟩ | ⟨-, w'', hok, -⟩
    · rw [hsame] at hfail
      cases hfail
      rfl
    · rw [hok] at hfail
      cases hfail

section Sample

/-- Whole numbers with six zeros behind the point. -/
def wholeText (x : ℕ) : List Byte := decimal x ++ ascii ".000000"

def samplePlan : SpinPlanData 20 ℕ :=
  ⟨0, 2, (Vector.replicate 20 ⟨0, 0⟩).set 1 ⟨100, 50⟩⟩

example : planText wholeText samplePlan = ascii ",0,0,0.000000,100,50.000000" := by decide

theorem serializers_honour_samples :
    Honours (planText wholeText samplePlan)
        (serializePlanReply wholeText samplePlan (Vector.replicate 27 0)) ∧
      Honours (responseText wholeText ⟨3, 7⟩)
        (stdResponseSerialize (fun payload => [responseText wholeText payload]) (some ⟨3, 7⟩)
          (Vector.replicate 27 0)) :=
  ⟨(serializers_honour_contract (by decide) wholeText (Vector.replicate 27 0)).1 20 samplePlan
      (by decide),
    (serializers_honour_contract (by decide) wholeText (Vector.replicate 27 0)).2.2.2.1
      (fun payload => [responseText wholeText payload]) ⟨3, 7⟩ (by simp)⟩

end Sample

end Ratfist.Serializers
