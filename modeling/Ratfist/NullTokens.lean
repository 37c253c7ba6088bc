import Ratfist.RoutingOutcomes

/-!
Which payloads make `process_incoming_message` hand NULL to a function that expects a
string. The second and third tokens are tested, the first is not, and what is saved
behind the third goes to the parsing function as it is.
-/
namespace Ratfist.NullTokens

open CString Constants Assembler FrameRoundTrip Subsystem Routing RoutingOutcomes

variable {σ μ δ : Type}

/-- Nothing follows the third token, and the C library saves NULL there. -/
def NullRest (nullAtEnd : Bool) (buf : List Byte) : Prop :=
  nullAtEnd = true ∧ (tokens comma buf).length = 3 ∧ (cstr buf).getLast? ≠ some comma

theorem restOf_eq_none_iff (nullAtEnd : Bool) (buf : List Byte)
    (h : 3 ≤ (tokens comma buf).length) :
    restOf nullAtEnd buf = none ↔ NullRest nullAtEnd buf := by
  obtain ⟨rest, hs1, hl1⟩ := strtokR_saved_of_two nullAtEnd comma buf (by omega)
  have ht1 := (strtokR_spec nullAtEnd comma (some buf)).2
  rw [hs1] at ht1
  simp only [savedTokens] at ht1
  have hlen1 : (tokens comma rest).length = (tokens comma buf).length - 1 := by
    rw [ht1, List.length_tail]
  obtain ⟨rest', hs2, hl2⟩ := strtokR_saved_of_two nullAtEnd comma rest (by omega)
  have ht2 := (strtokR_spec nullAtEnd comma (some rest)).2
  rw [hs2] at ht2
  simp only [savedTokens] at ht2
  have hlen2 : (tokens comma rest').length = (tokens comma buf).length - 2 := by
    rw [ht2, List.length_tail]
    omega
  simp only [restOf, hs1, hs2, NullRest]
  rcases Nat.lt_or_ge 1 (tokens comma rest').length with hmore | hone
  · obtain ⟨rest'', hs3, -⟩ := strtokR_saved_of_two nullAtEnd comma rest' hmore
    rw [hs3]
    simp
    omega
  · rw [strtokR_saved_of_one nullAtEnd comma rest' (by omega), hl2, hl1]
    have h3 : (tokens comma buf).length = 3 := by omega
    simp [h3]

/-- A parsing function is called: every test before the payload's is passed. -/
def ParserReached (subsystems : List (SubsystemMessageConf σ μ δ)) (buf : List Byte)
    (w : World σ μ δ) : Prop :=
  (((tokens comma buf)[0]?).bind parseTransactionId).isSome ∧
    ∃ conf msgIdx, subsystemOf subsystems (tokens comma buf) = some conf ∧
      msgIdxOf conf (tokens comma buf) = some msgIdx ∧ (parserOf conf msgIdx).isSome ∧
      (allocOf conf msgIdx w).1.isSome

theorem ParserReached.found (nullAtEnd : Bool) {subsystems : List (SubsystemMessageConf σ μ δ)}
    {buf : List Byte} {w : World σ μ δ} (h : ParserReached subsystems buf w) (code : ℤ) :
    lookup nullAtEnd subsystems buf ≠ .rejected code := by
  obtain ⟨htid, conf, msgIdx, hconf, hmsg, hparser, -⟩ := h
  rw [lookup_eq]
  match htoks : tokens comma buf with
  | [] => simp
  | [_] | [_, _] => simp [msgIdxOf, htoks] at hmsg
  | idStr :: subsystemName :: msgName :: _ =>
    obtain ⟨tid, htid⟩ := Option.isSome_iff_exists.mp htid
    obtain ⟨parsingFunc, hparser⟩ := Option.isSome_iff_exists.mp hparser
    simp only [htoks, subsystemOf, msgIdxOf, List.getElem?_cons_zero, List.getElem?_cons_succ,
      Option.bind_some, parserOf] at htid hconf hmsg hparser
    simp [htid, findHandler, hconf, hmsg, hparser]

section

variable [DecidableEq μ]

/-- No function gets NULL for a string, and a payload without tokens is reported. -/
structure NoNullString (nullAtEnd : Bool) (subsystems : List (SubsystemMessageConf σ μ δ))
    (buf : List Byte) (w : World σ μ δ) : Prop where
  strtoul : ∀ calls,
    processIncomingMessage nullAtEnd subsystems buf w ≠ .error (.nullString, calls)
  parsing : none ∉ Call.saves (processIncomingMessage nullAtEnd subsystems buf w).calls
  noToken : (strtokR nullAtEnd comma (some buf)).1 = none →
    processIncomingMessage nullAtEnd subsystems buf w =
      .ok (w.scheduleErrMessage messageParsingError, [.scheduled messageParsingError])

omit [DecidableEq μ] in
theorem giveBack_calls (conf : SubsystemMessageConf σ μ δ) (msg : μ) (w : World σ μ δ)
    (calls : List (Call μ)) :
    Call.saves (giveBack conf msg w calls).calls = Call.saves calls ∧
      ∀ calls', giveBack conf msg w calls ≠ .error (.nullString, calls') := by
  unfold giveBack
  cases conf.freeMessage with
  | none => exact ⟨rfl, by simp⟩
  | some free => exact ⟨by simp [Result.calls, Call.saves], by simp⟩

/-- The parsing function is called once if there is a block, with the saved pointer. -/
theorem handOver_saves (conf : SubsystemMessageConf σ μ δ) (msgIdx : ℕ)
    (parsingFunc : Message δ → Option (List Byte) → σ → Bool × σ) (tid : ℕ)
    (save : Option (List Byte)) (w : World σ μ δ) :
    Call.saves (handOver conf msgIdx parsingFunc tid save w).calls =
        (if (allocOf conf msgIdx w).1.isSome then [save] else []) ∧
      ∀ calls, handOver conf msgIdx parsingFunc tid save w ≠ .error (.nullString, calls) := by
  cases halloc : conf.allocMessage with
  | none => exact ⟨by simp [handOver, allocOf, halloc, Result.calls, Call.saves],
      by simp [handOver, halloc]⟩
  | some alloc =>
    obtain ⟨block, env, hres⟩ : ∃ b e, alloc msgIdx w.env = (b, e) := ⟨_, _, rfl⟩
    rcases block with _ | ⟨msg, content⟩
    · simp only [handOver, allocOf, halloc, hres]
      exact ⟨rfl, by simp⟩
    · obtain ⟨parsed, env', hparse⟩ : ∃ b e, parsingFunc
          ⟨msgIdx, tid, content.data⟩ save env = (b, e) := ⟨_, _, rfl⟩
      simp only [handOver, allocOf, halloc, hres, hparse]
      cases parsed with
      | false => exact giveBack_calls _ _ _ _
      | true =>
        cases conf.incomingMsgQueue with
        | none => exact ⟨rfl, by simp⟩
        | some q =>
          cases hfull : (w.mailboxes q).full with
          | true =>
            simp only [Mailbox.write, hfull, if_true, Bool.not_false]
            exact giveBack_calls _ _ _ _
          | false =>
            simp only [Mailbox.write, hfull]
            exact ⟨rfl, by simp⟩

/-- NULL is passed to nothing exactly when there is a first token and no parsing
function is reached with NULL behind the third. -/
theorem no_null_string_iff (nullAtEnd : Bool)
    (subsystems : List (SubsystemMessageConf σ μ δ)) (buf : List Byte) (w : World σ μ δ) :
    NoNullString nullAtEnd subsystems buf w ↔
      (strtokR nullAtEnd comma (some buf)).1 ≠ none ∧
        ¬ (NullRest nullAtEnd buf ∧ ParserReached subsystems buf w) := by
  by_cases hnone : (strtokR nullAtEnd comma (some buf)).1 = none
  · have hfault : processIncomingMessage nullAtEnd subsystems buf w =
        .error (.nullString, []) := by
      rw [processIncomingMessage, lookup_eq, (strtokR_none_iff _ _ _).mp hnone]
    simp only [hnone, ne_eq, not_true_eq_false, false_and, iff_false]
    exact fun h => h.strtoul [] hfault
  have htoks : tokens comma buf ≠ [] := fun h => hnone ((strtokR_none_iff _ _ _).mpr h)
  rcases lookup_found_or_rejected nullAtEnd subsystems buf w htoks with
    ⟨conf, msgIdx, parsingFunc, tid, hf⟩ | ⟨code, hlook, hcode⟩
  · have hrun : processIncomingMessage nullAtEnd subsystems buf w =
        handOver conf msgIdx parsingFunc tid (restOf nullAtEnd buf) w := by
      rw [processIncomingMessage, hf.looked]
    obtain ⟨hsaves, hfault⟩ :=
      handOver_saves conf msgIdx parsingFunc tid (restOf nullAtEnd buf) w
    have hreached : ParserReached subsystems buf w ↔ (allocOf conf msgIdx w).1.isSome := by
      simp [ParserReached, hf.hasTid, hf.hasSubsystem, hf.hasMsgIdx, hf.hasParser]
    have hthree : 3 ≤ (tokens comma buf).length := by
      have hthird := hf.named.2
      simp only [isSome_getElem?] at hthird
      omega
    rw [hreached, ← restOf_eq_none_iff nullAtEnd buf hthree]
    constructor
    · rintro ⟨-, hparse, -⟩
      refine ⟨hnone, ?_⟩
      rintro ⟨hrest, halloc⟩
      rw [hrun, hsaves, hrest] at hparse
      simp [halloc] at hparse
    · rintro ⟨-, hno⟩
      refine ⟨by rw [hrun]; exact hfault, ?_, fun h => absurd h hnone⟩
      rw [hrun, hsaves]
      split_ifs with halloc
      · simpa using fun h : none = restOf nullAtEnd buf => hno ⟨h.symm, halloc⟩
      · simp
  · have hrun : processIncomingMessage nullAtEnd subsystems buf w =
        .ok (w.scheduleErrMessage code, [.scheduled code]) := by
      rw [processIncomingMessage, hlook]
    refine iff_of_true ⟨by simp [hrun], by simp [hrun, Result.calls, Call.saves],
      fun h => absurd h hnone⟩
      ⟨hnone, fun h => ?_⟩
    exact ParserReached.found nullAtEnd h.2 code hlook

/-- A frame of five commas passes the checksum test, and `strtoul` gets NULL. -/
theorem commas_reach_strtoul :
    ((feed (fun buf (_ : Unit) => (buf, ()))
        (dispatcherInit (Vector.replicate Board.stm32f072discovery.bspMaxMessageLength 0) ())
        (frame (ascii ",,,,,"))).map Prod.snd =
      some [.delivered (ascii ",,,,," ++ [0])]) ∧
    ¬ NoNullString true fakeSubsystems (ascii ",,,,," ++ [0]) fakeWorld ∧
    processIncomingMessage true fakeSubsystems (ascii ",,,,," ++ [0]) fakeWorld =
      .error (.nullString, []) := by
  have hrun : processIncomingMessage true fakeSubsystems (ascii ",,,,," ++ [0]) fakeWorld =
      .error (.nullString, []) := rfl
  exact ⟨by decide +kernel, fun h => h.strtoul [] hrun, hrun⟩

end

end Ratfist.NullTokens
