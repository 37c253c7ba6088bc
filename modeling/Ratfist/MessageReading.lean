import Ratfist.RequestRoundTrip

/-!
How the receive worker reads any text that is on the line: as a request, as a payload that is
refused, or as a message that is refused before it has a block.
-/
namespace Ratfist.MessageReading

open CString Constants Assembler Subsystem Routing RoutingOutcomes SpinnerMessages SpinnerPools
  NumberFields SetPlanParsing RequestParsing RequestRoundTrip

variable {F : Type} {n : ℕ}

abbrev TaggedRequest (F : Type) := ℕ × Request F

/-- What a line carries to the program: requests, payloads for blocks of the pool that are not
requests, and messages that need no block to be refused. -/
inductive Arrival (F : Type)
  | request (req : TaggedRequest F)
  | malformed (pool : DataPool)
  | refused (code : ℤ)

/-- How a client's message is read. A plan of the maximal length has no reading: how many legs it
has got depends on the last user of its block. -/
def readMessage (libc : Libc F) (n tid : ℕ) (msgName : List Byte) (fields : List (List Byte)) :
    Option (Arrival F) :=
  if strcmpEq msgName (ascii "SET_PLAN") then
    (readPlan libc n fields).elim (some (.malformed .plans)) fun plan =>
      if plan.2.length < n then some (.request (tid, .setPlan plan.1.toUInt8 plan.2)) else none
  else if strcmpEq msgName (ascii "GET_PLAN") then
    some ((readChannel fields).elim (.malformed .smalls) fun ch =>
      .request (tid, .getPlan ch.toUInt8))
  else if strcmpEq msgName (ascii "SET_STATE") then
    some ((readSetState fields).elim (.malformed .smalls) fun set =>
      .request (tid, .setState set.1.toUInt8 (set.2 = stateRunning)))
  else if strcmpEq msgName (ascii "GET_STATE") then
    some ((readChannel fields).elim (.malformed .smalls) fun ch =>
      .request (tid, .getState ch.toUInt8))
  else if [ascii "PLAN_REPLY", ascii "STATE_REPLY", ascii "RET_VAL"].any (strcmpEq msgName) then
    some (.refused missingMessageHandlerError)
  else some (.refused unknownMessageTypeError)

/-- What an event of the scanner brings. A message without fields has no reading. -/
def readArrival (libc : Libc F) (n : ℕ) : RxEvent → Option (Arrival F)
  | .scheduled code => some (.refused code)
  | .delivered msg =>
    match tokens comma msg with
    | [] => none
    | idStr :: names =>
      match parseTransactionId idStr with
      | none => some (.refused messageParsingError)
      | some tid =>
        match names with
        | subsystemName :: msgName :: fields =>
          if strcmpEq subsystemName (ascii "SPINNER") then readMessage libc n tid msgName fields
          else some (.refused unknownSubsystemError)
        | _ => some (.refused messageParsingError)

variable {libc : Libc F}

theorem readNumber_le {max v : ℕ} {token : List Byte} (h : readNumber max token = some v) :
    v ≤ max := by
  obtain ⟨spaces, sign, digits, -, -, -, hle⟩ := (readNumber_eq_some_iff max token v).mp h
  exact hle

theorem readChannel_back {fields : List (List Byte)} {ch : ℕ} (h : readChannel fields = some ch) :
    ch.toUInt8.toNat = ch := by
  rcases fields with _ | ⟨token, _ | ⟨more, later⟩⟩
  · cases h
  · exact UInt8.toNat_ofNat_of_lt' (Nat.lt_succ_of_le (readNumber_le h))
  · cases h

theorem readSetState_back {fields : List (List Byte)} {set : ℕ × UInt32}
    (h : readSetState fields = some set) :
    set = (set.1.toUInt8.toNat,
      if decide (set.2 = stateRunning) then stateRunning else stateStopped) := by
  rcases fields with _ | ⟨channel, _ | ⟨name, _ | ⟨more, later⟩⟩⟩
  · cases h
  · cases h
  · simp only [readSetState, Option.bind_eq_bind, Option.bind_eq_some_iff] at h
    obtain ⟨ch, hch, state, hstate, h⟩ := h
    cases h
    have hback : ch.toUInt8.toNat = ch :=
      UInt8.toNat_ofNat_of_lt' (Nat.lt_succ_of_le (readNumber_le hch))
    rw [hback]
    unfold readState at hstate
    split_ifs at hstate
    · cases hstate
      rfl
    · cases hstate
      rfl
  · cases h

theorem readPlan_back {fields : List (List Byte)} {plan : ℕ × List (PwmLeg F)}
    (h : readPlan libc n fields = some plan) : plan.1.toUInt8.toNat = plan.1 := by
  cases fields with
  | nil => cases h
  | cons channel later =>
    exact UInt8.toNat_ofNat_of_lt'
      (Nat.lt_succ_of_le (readNumber_le (readPlan_eq_some_iff.mp h).1))

section Lookup

variable {ser : SpinnerPools.Serializers n F} {subsystemName msgName : List Byte} {tid : ℕ}
  {save : Option (List Byte)}

theorem strcmpEq_congr {a b : List Byte} (h : strcmpEq a b = true) (c : List Byte) :
    strcmpEq a c = strcmpEq b c := by
  rw [strcmpEq, strcmpEq, beq_iff_eq.mp h]

/-- The handlers are searched for the name. -/
theorem findHandler_eq (hsubsystem : strcmpEq subsystemName (ascii "SPINNER") = true) :
    findHandler [spinnerConf libc ser] tid subsystemName msgName save =
      ((msgHandlers libc ser).findIdx? fun h => strcmpEq msgName h.messageName).elim
        (.rejected unknownMessageTypeError) fun i =>
          (((msgHandlers libc ser)[i]?).bind MessageHandler.parsingFunc).elim
            (.rejected missingMessageHandlerError) fun parse =>
              .found (spinnerConf libc ser) i parse tid save := by
  have hfind : [spinnerConf libc ser].find?
      (fun conf => strcmpEq subsystemName conf.subsystemName) = some (spinnerConf libc ser) :=
    List.find?_cons_of_pos hsubsystem
  have hhandlers : (spinnerConf libc ser).messageHandlers = msgHandlers libc ser := rfl
  simp only [findHandler, hfind, hhandlers]
  cases (msgHandlers libc ser).findIdx? fun h => strcmpEq msgName h.messageName with
  | none => rfl
  | some i =>
    simp only [Option.elim_some]
    generalize ((msgHandlers libc ser)[i]?).bind MessageHandler.parsingFunc = parse
    cases parse <;> rfl

theorem findHandler_request (hsubsystem : strcmpEq subsystemName (ascii "SPINNER") = true)
    {req : Request F} (hname : strcmpEq msgName req.name = true) :
    findHandler [spinnerConf libc ser] tid subsystemName msgName save =
      .found (spinnerConf libc ser) req.type (req.parser libc) tid save := by
  have hidx := @findIdx_name _ _ libc ser req
  simp only [← strcmpEq_congr hname] at hidx
  rw [findHandler_eq hsubsystem, hidx, Option.elim_some, parserOf_type, Option.elim_some]

/-- The types that are only sent have no parsing function. -/
theorem findHandler_reply (hsubsystem : strcmpEq subsystemName (ascii "SPINNER") = true)
    (hname : [ascii "PLAN_REPLY", ascii "STATE_REPLY", ascii "RET_VAL"].any (strcmpEq msgName) =
      true) :
    findHandler [spinnerConf libc ser] tid subsystemName msgName save =
      .rejected missingMessageHandlerError := by
  obtain ⟨name, hmem, hname⟩ := List.any_eq_true.mp hname
  rw [findHandler_eq hsubsystem]
  simp only [strcmpEq_congr hname]
  simp only [List.mem_cons, List.not_mem_nil, or_false] at hmem
  rcases hmem with rfl | rfl | rfl <;> rfl

theorem message_read {arrival : Arrival F}
    (hsubsystem : strcmpEq subsystemName (ascii "SPINNER") = true)
    (h : readMessage libc n tid msgName (savedTokens comma save) = some arrival) :
    (∃ code, findHandler [spinnerConf libc ser] tid subsystemName msgName save = .rejected code ∧
        arrival = .refused code) ∨
      ∃ req, findHandler [spinnerConf libc ser] tid subsystemName msgName save =
          .found (spinnerConf libc ser) req.type (req.parser libc) tid save ∧
        (req.ReadFrom libc n (savedTokens comma save) ∧ arrival = .request (tid, req) ∨
          req.Misread libc n (savedTokens comma save) ∧ arrival = .malformed req.pool) := by
  unfold readMessage at h
  split_ifs at h with hsetPlan hgetPlan hsetState hgetState hreply
  · cases hread : readPlan libc n (savedTokens comma save) with
    | none =>
      rw [hread] at h
      cases h
      exact Or.inr ⟨.setPlan 0 [], findHandler_request hsubsystem hsetPlan, Or.inr ⟨hread, rfl⟩⟩
    | some plan =>
      rw [hread, Option.elim_some] at h
      split_ifs at h with hlen
      cases h
      refine Or.inr ⟨.setPlan plan.1.toUInt8 plan.2, findHandler_request hsubsystem hsetPlan,
        Or.inl ⟨⟨?_, hlen⟩, rfl⟩⟩
      rw [readPlan_back hread]
      exact hread
  · cases hread : readChannel (savedTokens comma save) with
    | none =>
      rw [hread] at h
      cases h
      exact Or.inr ⟨.getPlan 0, findHandler_request hsubsystem hgetPlan, Or.inr ⟨hread, rfl⟩⟩
    | some ch =>
      rw [hread] at h
      cases h
      refine Or.inr ⟨.getPlan ch.toUInt8, findHandler_request hsubsystem hgetPlan,
        Or.inl ⟨?_, rfl⟩⟩
      rw [Request.ReadFrom, readChannel_back hread]
      exact hread
  · cases hread : readSetState (savedTokens comma save) with
    | none =>
      rw [hread] at h
      cases h
      exact Or.inr ⟨.setState 0 false, findHandler_request hsubsystem hsetState,
        Or.inr ⟨hread, rfl⟩⟩
    | some set =>
      rw [hread] at h
      cases h
      refine Or.inr ⟨.setState set.1.toUInt8 (set.2 = stateRunning),
        findHandler_request hsubsystem hsetState, Or.inl ⟨?_, rfl⟩⟩
      rw [Request.ReadFrom, hread]
      exact congrArg some (readSetState_back hread)
  · cases hread : readChannel (savedTokens comma save) with
    | none =>
      rw [hread] at h
      cases h
      exact Or.inr ⟨.getState 0, findHandler_request hsubsystem hgetState, Or.inr ⟨hread, rfl⟩⟩
    | some ch =>
      rw [hread] at h
      cases h
      refine Or.inr ⟨.getState ch.toUInt8, findHandler_request hsubsystem hgetState,
        Or.inl ⟨?_, rfl⟩⟩
      rw [Request.ReadFrom, readChannel_back hread]
      exact hread
  · cases h
    exact Or.inl ⟨_, findHandler_reply hsubsystem hreply, rfl⟩
  · cases h
    have hnone : (msgHandlers libc ser).findIdx? (fun h => strcmpEq msgName h.messageName) =
        none := by
      simp only [List.any_cons, List.any_nil, Bool.or_false, Bool.or_eq_true, not_or] at hreply
      simp [msgHandlers, List.findIdx?_cons, hsetPlan, hgetPlan, hsetState, hgetState, hreply]
    exact Or.inl ⟨_, by rw [findHandler_eq hsubsystem, hnone, Option.elim_none], rfl⟩

end Lookup

/-- `process_incoming_message` looks up what the message is read as. -/
theorem lookup_read {msg : List Byte} {arrival : Arrival F}
    (h : readArrival libc n (.delivered msg) = some arrival)
    (ser : SpinnerPools.Serializers n F) :
    (∃ code, lookup libc.nullAtEnd [spinnerConf libc ser] msg = .rejected code ∧
        arrival = .refused code) ∨
      ∃ req tid save, lookup libc.nullAtEnd [spinnerConf libc ser] msg =
          .found (spinnerConf libc ser) req.type (req.parser libc) tid save ∧ tid ≤ ulongMax ∧
        (req.ReadFrom libc n (savedTokens comma save) ∧ arrival = .request (tid, req) ∨
          req.Misread libc n (savedTokens comma save) ∧ arrival = .malformed req.pool) := by
  have hrest := savedTokens_restOf libc.nullAtEnd msg
  rw [lookup_eq]
  unfold readArrival at h
  rcases htokens : tokens comma msg with _ | ⟨idStr, names⟩
  · simp only [htokens] at h
    cases h
  rw [htokens] at hrest
  simp only [htokens] at h
  cases htid : parseTransactionId idStr with
  | none =>
    simp only [htid] at h ⊢
    cases h
    exact Or.inl ⟨_, rfl, rfl⟩
  | some tid =>
    have hsmall : tid ≤ ulongMax := by
      rw [parseTransactionId_eq] at htid
      exact readNumber_le htid
    simp only [htid] at h ⊢
    rcases names with _ | ⟨subsystemName, _ | ⟨msgName, fields⟩⟩
    · cases h
      exact Or.inl ⟨_, rfl, rfl⟩
    · cases h
      exact Or.inl ⟨_, rfl, rfl⟩
    simp only at h ⊢
    split_ifs at h with hsubsystem
    · rw [← show savedTokens comma (restOf libc.nullAtEnd msg) = fields from hrest] at h
      rcases message_read hsubsystem h with hrejected | ⟨req, hfound, hread⟩
      · exact Or.inl hrejected
      · exact Or.inr ⟨req, tid, _, hfound, hsmall, hread⟩
    · cases h
      refine Or.inl ⟨unknownSubsystemError, ?_, rfl⟩
      have hfind : [spinnerConf libc ser].find?
          (fun conf => strcmpEq subsystemName conf.subsystemName) = none :=
        List.find?_cons_of_neg hsubsystem
      simp only [findHandler, hfind]

/-- What a client writes is read as it is meant. -/
theorem readArrival_payload {F : Type} {libc : Libc F} {text : F → List Byte} {n tid : ℕ}
    {req : Request F} (h : req.Writable libc text n) (htid : tid ≤ ulongMax) :
    readArrival libc n (.delivered (req.payload text tid ++ [0])) =
      some (.request (tid, req)) := by
  have hnumber : parseTransactionId (decimal tid) = some tid := by
    rw [parseTransactionId_eq]
    exact readNumber_decimal htid (Nat.le_refl _)
  have hread := readFrom_fields h
  have hself : strcmpEq (ascii "SPINNER") (ascii "SPINNER") = true := rfl
  simp only [readArrival, tokens_payload h, Request.words, hnumber, hself, if_true]
  have hback (ch : UInt8) : ch.toNat.toUInt8 = ch := UInt8.ofNat_toNat
  cases req with
  | setPlan ch legs =>
    obtain ⟨hread, hlen⟩ := hread
    rw [Request.name, readMessage, if_pos (by decide), hread, Option.elim_some, if_pos hlen,
      hback]
  | getPlan ch =>
    rw [Request.name, readMessage, if_neg (by decide), if_pos (by decide),
      show readChannel _ = some ch.toNat from hread, Option.elim_some, hback]
  | setState ch running =>
    rw [Request.name, readMessage, if_neg (by decide), if_neg (by decide), if_pos (by decide),
      show readSetState _ = some _ from hread, Option.elim_some, hback]
    cases running <;> rfl
  | getState ch =>
    rw [Request.name, readMessage, if_neg (by decide), if_neg (by decide), if_neg (by decide),
      if_pos (by decide), show readChannel _ = some ch.toNat from hread, Option.elim_some, hback]

end Ratfist.MessageReading
