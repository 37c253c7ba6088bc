import Ratfist.NumberFields

/-!
The three parsing functions for payloads of one or two fields: `parse_get_plan`,
`parse_get_state` and `parse_set_state` against what the payload says. A refused payload
may have changed the fields that the function writes, and no other.
-/
namespace Ratfist.RequestParsing

open CString Constants Routing SpinnerMessages NumberFields

variable {F : Type}

def readState (token : List Byte) : Option UInt32 :=
  if strcmpEq token (ascii "ON") then some stateRunning
  else if strcmpEq token (ascii "OFF") then some stateStopped
  else none

def readChannel : List (List Byte) → Option ℕ
  | [channel] => readNumber 255 channel
  | _ => none

def readSetState : List (List Byte) → Option (ℕ × UInt32)
  | [channel, state] => do
    let chNum ← readNumber 255 channel
    let state ← readState state
    some (chNum, state)
  | _ => none

/-- Nothing but the channel and the state has changed. -/
def OnlyRequest (stale data : SmallSizeMsgData F) : Prop :=
  data = { stale with channelNum := data.channelNum, state := data.state }

/-- A payload is accepted if it says something, and then that is stored. -/
structure Parses {α : Type} (said : Option α) (store : α → SmallSizeMsgData F)
    (stale : SmallSizeMsgData F) (result : Bool × SmallSizeMsgData F) : Prop where
  accepts : result.1 = said.isSome
  stores : ∀ request, said = some request → result.2 = store request
  touches : OnlyRequest stale result.2

theorem Parses.eq_of_said {α : Type} {said : Option α} {store : α → SmallSizeMsgData F}
    {stale : SmallSizeMsgData F} {result : Bool × SmallSizeMsgData F}
    (h : Parses said store stale result) {request : α} (hsaid : said = some request) :
    result = (true, store request) := by
  have haccepts := h.accepts
  rw [hsaid] at haccepts
  exact Prod.ext haccepts (h.stores request hsaid)

theorem parses_refused {α : Type} {store : α → SmallSizeMsgData F} {stale : SmallSizeMsgData F}
    {result : Bool × SmallSizeMsgData F} (hno : result.1 = false)
    (htouches : OnlyRequest stale result.2) : Parses none store stale result :=
  ⟨hno, by simp, htouches⟩

theorem parses_stored {α : Type} {store : α → SmallSizeMsgData F} {stale : SmallSizeMsgData F}
    (request : α) (htouches : OnlyRequest stale (store request)) :
    Parses (some request) store stale (true, store request) := by
  refine ⟨rfl, ?_, htouches⟩
  intro request' hsame
  cases hsame
  rfl

theorem isNone_strtokR (nullAtEnd : Bool) (savePtr : Option (List Byte)) :
    (strtokR nullAtEnd comma savePtr).1.isNone = (savedTokens comma savePtr).isEmpty := by
  rw [(strtokR_spec nullAtEnd comma savePtr).1]
  cases savedTokens comma savePtr <;> rfl

/-- The channel is the first token, if that is a number up to 255. -/
theorem parseChannelNum_cases (libc : Libc F) (payload : Option (List Byte)) :
    (parseChannelNum libc payload = none ∧
      ((savedTokens comma payload).head?.bind (readNumber 255)) = none) ∨
    ∃ channel later chNum save, savedTokens comma payload = channel :: later ∧
      readNumber 255 channel = some chNum ∧
      parseChannelNum libc payload = some (chNum.toUInt8, save) ∧
      savedTokens comma save = later := by
  rcases hs : strtokR libc.nullAtEnd comma payload with ⟨_ | channel, save⟩
  · refine Or.inl ⟨by simp only [parseChannelNum, hs], ?_⟩
    rw [(strtokR_none hs).1]
    rfl
  have hread := parseChannelNum_eq hs
  cases hch : parseChannelNum libc payload with
  | none =>
    rw [hch] at hread
    refine Or.inl ⟨rfl, ?_⟩
    rw [strtokR_some hs]
    exact hread.symm
  | some found =>
    obtain ⟨chNum, save'⟩ := found
    rw [hch] at hread
    have hsame : save' = save := by
      simp only [parseChannelNum, hs] at hch
      split_ifs at hch
      cases hch
      rfl
    subst hsame
    have hback : chNum.toNat.toUInt8 = chNum := UInt8.ofNat_toNat
    exact Or.inr ⟨channel, savedTokens comma save', chNum.toNat, save', strtokR_some hs,
      hread.symm, by rw [hback], rfl⟩

theorem parseSpinChannel_parses (libc : Libc F) (stale : SmallSizeMsgData F)
    (payload : Option (List Byte)) :
    Parses (readChannel (savedTokens comma payload))
      (fun chNum => { stale with channelNum := chNum.toUInt8 }) stale
      (parseSpinChannel libc stale payload) := by
  rcases parseChannelNum_cases libc payload with ⟨hch, hnone⟩ |
    ⟨channel, later, chNum, save, htoks, hnum, hch, hrest⟩
  · have hread : readChannel (savedTokens comma payload) = none := by
      rcases htoks : savedTokens comma payload with _ | ⟨channel, _ | ⟨state, later⟩⟩
      · rfl
      · rw [htoks] at hnone
        exact hnone
      · rfl
    rw [hread, parseSpinChannel, hch]
    exact parses_refused rfl rfl
  · have hparse : parseSpinChannel libc stale payload =
        (later.isEmpty, { stale with channelNum := chNum.toUInt8 }) := by
      simp only [parseSpinChannel, hch, isNone_strtokR, hrest]
    rw [htoks, hparse]
    cases later with
    | nil =>
      rw [readChannel, hnum]
      exact parses_stored chNum rfl
    | cons state later => exact parses_refused rfl rfl

/-- `parse_set_state` behind its channel. -/
theorem parseSetState_eq {libc : Libc F} {payload save : Option (List Byte)} {chNum : UInt8}
    (hch : parseChannelNum libc payload = some (chNum, save)) (stale : SmallSizeMsgData F) :
    parseSetState libc stale payload =
      match savedTokens comma save with
      | [] => (false, { stale with channelNum := chNum })
      | token :: later =>
        match readState token with
        | none => (false, { stale with channelNum := chNum })
        | some state => (later.isEmpty, { stale with channelNum := chNum, state := state }) := by
  rcases hs : strtokR libc.nullAtEnd comma save with ⟨_ | token, save'⟩
  · rw [(strtokR_none hs).1]
    simp only [parseSetState, hch, hs]
  · rw [strtokR_some hs]
    simp only [parseSetState, hch, hs, isNone_strtokR]
    rfl

theorem parseSetState_parses (libc : Libc F) (stale : SmallSizeMsgData F)
    (payload : Option (List Byte)) :
    Parses (readSetState (savedTokens comma payload))
      (fun request => { stale with channelNum := request.1.toUInt8, state := request.2 }) stale
      (parseSetState libc stale payload) := by
  rcases parseChannelNum_cases libc payload with ⟨hch, hnone⟩ |
    ⟨channel, later, chNum, save, htoks, hnum, hch, hrest⟩
  · have hread : readSetState (savedTokens comma payload) = none := by
      rcases htoks : savedTokens comma payload with
        _ | ⟨channel, _ | ⟨state, _ | ⟨more, later⟩⟩⟩
      · rfl
      · rfl
      · rw [htoks] at hnone
        have hnum : readNumber 255 channel = none := hnone
        rw [readSetState, hnum]
        rfl
      · rfl
    rw [hread, parseSetState, hch]
    exact parses_refused rfl rfl
  · have hparse := parseSetState_eq hch stale
    rw [hrest] at hparse
    rw [hparse, htoks]
    rcases later with _ | ⟨token, later⟩
    · exact parses_refused rfl rfl
    cases hstate : readState token with
    | none =>
      have hread : readSetState (channel :: token :: later) = none := by
        cases later with
        | nil =>
          rw [readSetState, hnum, hstate]
          rfl
        | cons more later => rfl
      rw [hread]
      simp only [hstate]
      exact parses_refused rfl rfl
    | some state =>
      simp only [hstate]
      cases later with
      | nil =>
        rw [readSetState, hnum, hstate]
        exact parses_stored (chNum, state) rfl
      | cons more later => exact parses_refused rfl rfl

/-- Every payload, in a block with any content. -/
theorem requests_parse (libc : Libc F) (stale : SmallSizeMsgData F)
    (payload : Option (List Byte)) :
    Parses (readChannel (savedTokens comma payload))
        (fun chNum => { stale with channelNum := chNum.toUInt8 }) stale
        (parseGetPlan libc stale payload) ∧
      Parses (readChannel (savedTokens comma payload))
        (fun chNum => { stale with channelNum := chNum.toUInt8 }) stale
        (parseGetState libc stale payload) ∧
      Parses (readSetState (savedTokens comma payload))
        (fun request => { stale with channelNum := request.1.toUInt8, state := request.2 }) stale
        (parseSetState libc stale payload) :=
  ⟨parseSpinChannel_parses libc stale payload, parseSpinChannel_parses libc stale payload,
    parseSetState_parses libc stale payload⟩

example : parseSetState wholeNumbers ⟨9, 9, 9, 9, 9⟩ (some (ascii "7,ON,")) =
    (true, ⟨7, 1, 9, 9, 9⟩) := by decide

example : parseSetState wholeNumbers ⟨9, 9, 9, 9, 9⟩ (some (ascii "7,OFF,1")) =
    (false, ⟨7, 0, 9, 9, 9⟩) := by decide

end Ratfist.RequestParsing
