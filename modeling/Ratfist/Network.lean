import Ratfist.ClientView
import Ratfist.MessageReading
import Ratfist.TransmitRoom

/-!
The spinner behind its queues, without its memory: requests wait for the channel, replies wait
for the line, errors go before them, and blocks and slots are only counted. While a client keeps
few enough requests unanswered, each is answered once and in order.
-/
namespace Ratfist.Network

open CString Constants FrameRoundTrip SpinnerPools SetPlanParsing RequestRoundTrip MessageReading
  Transmit SentLine TransmitRoom ClientView Runs

variable {F : Type}

/-- The blocks of the pools, the slots of the queues and the length of the message buffer. -/
structure Limits where
  msgs : ℕ
  data : DataPool → ℕ
  incoming : ℕ
  errors : ℕ
  frame : ℕ

structure Net (F : Type) where
  waiting : List (TaggedRequest F)
  output : Output F
  replies : List (DataPool × List Byte)
  errors : List ℤ
  heard : List (List Byte)

def replyPool : Request F → DataPool
  | .getPlan _ => .plans
  | _ => .smalls

namespace Net

def hasBlocks (L : Limits) (pool : DataPool) (s : Net F) : Bool :=
  s.waiting.length + s.replies.length < L.msgs ∧
    s.waiting.countP (fun r => r.2.pool = pool) + s.replies.countP (fun r => r.1 = pool) <
      L.data pool

def report (L : Limits) (code : ℤ) (s : Net F) : Net F :=
  if s.errors.length < L.errors then { s with errors := s.errors ++ [code] } else s

@[simp] theorem report_waiting (L : Limits) (code : ℤ) (s : Net F) :
    (s.report L code).waiting = s.waiting := by
  unfold report
  split_ifs <;> rfl

@[simp] theorem report_output (L : Limits) (code : ℤ) (s : Net F) :
    (s.report L code).output = s.output := by
  unfold report
  split_ifs <;> rfl

@[simp] theorem report_replies (L : Limits) (code : ℤ) (s : Net F) :
    (s.report L code).replies = s.replies := by
  unfold report
  split_ifs <;> rfl

@[simp] theorem report_heard (L : Limits) (code : ℤ) (s : Net F) :
    (s.report L code).heard = s.heard := by
  unfold report
  split_ifs <;> rfl

theorem report_errors_le (L : Limits) (code : ℤ) (s : Net F) :
    (s.report L code).errors.length ≤ s.errors.length + 1 := by
  unfold report
  split_ifs
  · exact Nat.le_of_eq List.length_append
  · exact Nat.le_succ _

def arrive (L : Limits) (s : Net F) : Arrival F → Net F
  | .refused code => s.report L code
  | .malformed pool =>
    s.report L (if s.hasBlocks L pool then messageParsingError else memAllocError)
  | .request req =>
    if s.hasBlocks L req.2.pool then
      if s.waiting.length < L.incoming then { s with waiting := s.waiting ++ [req] }
      else s.report L messageRoutingError
    else s.report L memAllocError

theorem arrive_output (L : Limits) (a : Arrival F) (s : Net F) :
    (s.arrive L a).output = s.output := by
  unfold arrive
  split
  · exact report_output _ _ _
  · exact report_output _ _ _
  · split_ifs <;> simp

theorem arrive_heard (L : Limits) (a : Arrival F) (s : Net F) :
    (s.arrive L a).heard = s.heard := by
  unfold arrive
  split
  · exact report_heard _ _ _
  · exact report_heard _ _ _
  · split_ifs <;> simp

theorem arrivals_kept (L : Limits) (arrivals : List (Arrival F)) (s : Net F) :
    (arrivals.foldl (arrive L) s).output = s.output ∧
      (arrivals.foldl (arrive L) s).heard = s.heard := by
  induction arrivals generalizing s with
  | nil => exact ⟨rfl, rfl⟩
  | cons a arrivals ih =>
    obtain ⟨houtput, hheard⟩ := ih (s.arrive L a)
    exact ⟨houtput.trans (arrive_output L a s), hheard.trans (arrive_heard L a s)⟩

/-- The reply to `req` needs blocks of its own; without them it is lost. -/
def reply (L : Limits) (req : TaggedRequest F) (said : Option (List Byte)) (s : Net F) :
    List (DataPool × List Byte) :=
  if s.hasBlocks L (replyPool req.2) then
    s.replies ++ said.toList.map fun text => (replyPool req.2, text)
  else s.replies

/-- One request; `none` where the channel has no answer. -/
def serve [Zero F] (L : Limits) (text : F → List Byte) (s : Net F) : Option (Net F) :=
  match s.waiting with
  | [] => some s
  | req :: waiting => (s.output.answer text req).map fun answered =>
    { s with
      waiting := waiting
      output := answered.1
      replies := s.reply L req answered.2 }

theorem serve_heard [Zero F] {L : Limits} {text : F → List Byte} {s t : Net F}
    (h : s.serve L text = some t) : t.heard = s.heard := by
  unfold serve at h
  split at h
  · cases h
    rfl
  · obtain ⟨answered, -, rfl⟩ := Option.map_eq_some_iff.mp h
    rfl

def transmit (L : Limits) (room : ℕ) (s : Net F) : Net F :=
  match s.errors with
  | code :: errors =>
    { s with
      errors := errors
      heard := s.heard ++ (reported L.frame code).toList }
  | [] =>
    match s.replies with
    | [] => s
    | (_, reply) :: replies =>
      (failed L.frame room reply).elim { s with replies := replies, heard := s.heard ++ [reply] }
        fun code => { s with replies := replies }.report L code

theorem transmit_output (L : Limits) (room : ℕ) (s : Net F) :
    (s.transmit L room).output = s.output := by
  unfold transmit
  split
  · rfl
  · split
    · rfl
    · cases failed L.frame room _ with
      | none => rfl
      | some code => exact report_output _ _ _

end Net

/-- A message on the line, or a call of one of the other two workers. -/
inductive Act (F : Type)
  | arrive (a : Arrival F)
  | serve
  | transmit (room : ℕ)

def Net.step [Zero F] (L : Limits) (text : F → List Byte) : Act F → Net F → Option (Net F)
  | .arrive a, s => some (s.arrive L a)
  | .serve, s => s.serve L text
  | .transmit room, s => some (s.transmit L room)

theorem Net.runs_arrivals [Zero F] (L : Limits) (text : F → List Byte) (arrivals : List (Arrival F))
    (acts : List (Act F)) (s : Net F) :
    runs (Net.step L text) (arrivals.map .arrive ++ acts) s =
      runs (Net.step L text) acts (arrivals.foldl (Net.arrive L) s) := by
  induction arrivals generalizing s with
  | nil => rfl
  | cons a arrivals ih => exact ih (s.arrive L a)

def requestsOf (acts : List (Act F)) : List (TaggedRequest F) :=
  acts.filterMap fun | .arrive (.request req) => some req | _ => none

/-- The replies to requests to the channel, one after the other. -/
def answers [Zero F] (text : F → List Byte) :
    List (TaggedRequest F) → Output F → Option (Output F × List (List Byte))
  | [], o => some (o, [])
  | req :: reqs, o => do
    let (o, said) ← o.answer text req
    let (o, later) ← answers text reqs o
    some (o, said.toList ++ later)

theorem answers_snoc [Zero F] {text : F → List Byte} {reqs : List (TaggedRequest F)}
    {o o' o'' : Output F}
    {replies : List (List Byte)} {req : TaggedRequest F} {said : Option (List Byte)}
    (h : answers text reqs o = some (o', replies))
    (hsaid : o'.answer text req = some (o'', said)) :
    answers text (reqs ++ [req]) o = some (o'', replies ++ said.toList) := by
  induction reqs generalizing o replies with
  | nil =>
    cases h
    simp [answers, hsaid]
  | cons first reqs ih =>
    simp only [answers, Option.bind_eq_bind, Option.bind_eq_some_iff] at h
    obtain ⟨⟨o₁, said₁⟩, hfirst, ⟨o₂, later⟩, hlater, h⟩ := h
    cases h
    simp [answers, hfirst, ih hlater]

/-- After a request without an answer there are no more answers. -/
theorem answers_stuck [Zero F] {text : F → List Byte} {reqs : List (TaggedRequest F)}
    {o o' : Output F} {replies : List (List Byte)} {req : TaggedRequest F}
    (h : answers text reqs o = some (o', replies))
    (hnone : o'.answer text req = none) (later : List (TaggedRequest F)) :
    answers text (reqs ++ req :: later) o = none := by
  induction reqs generalizing o replies with
  | nil =>
    cases h
    simp [answers, hnone]
  | cons first reqs ih =>
    simp only [answers, Option.bind_eq_bind, Option.bind_eq_some_iff] at h
    obtain ⟨⟨o₁, said₁⟩, hfirst, ⟨o₂, later'⟩, hlater, h⟩ := h
    cases h
    simp [answers, hfirst, ih hlater]

/-- A request to the channel has exactly one reply. -/
theorem answer_one [Zero F] {text : F → List Byte} {o o' : Output F} {req : TaggedRequest F}
    {said : Option (List Byte)} (hchannel : req.2.channelNum = 0)
    (h : o.answer text req = some (o', said)) : ∃ reply, said = some reply := by
  rw [Output.answer, if_pos hchannel, Option.map_eq_some_iff] at h
  obtain ⟨served, -, h⟩ := h
  cases h
  exact ⟨_, rfl⟩

/-- What a client hears of a reply, whatever room there was for it. -/
def Comes (n : ℕ) (reply heard : List Byte) : Prop := ∃ room, heard = heardReply n room reply

/-- Enough of everything for `k` requests without a reply, and a block more of each kind for the
reply that is being made. -/
structure Serves (L : Limits) (k : ℕ) : Prop where
  msgs : k < L.msgs
  data : ∀ pool, k < L.data pool
  incoming : k ≤ L.incoming
  errors : 0 < L.errors
  frame : 250 ≤ L.frame

/-- Where the replies to the requests that have arrived are: heard, or an error instead, or on
their way, or still to be made. -/
structure Answered [Zero F] (L : Limits) (text : F → List Byte) (k : ℕ) (start : Output F)
    (arrived : List (TaggedRequest F)) (s : Net F) : Prop where
  channel : ∀ req ∈ s.waiting, req.2.channelNum = 0
  told : ∃ served out done, arrived = served ++ s.waiting ∧
    answers text served start = some (s.output, done ++ out) ∧ s.replies.map Prod.snd = out ∧
    List.Forall₂ (Comes L.frame) done
      (s.heard ++ s.errors.map fun code => errorText (ascii "DISPATCHER") code)
  short : ∀ code ∈ s.errors, (frame (errorText (ascii "DISPATCHER") code)).length < L.frame
  count : arrived.length =
    s.heard.length + s.errors.length + s.replies.length + s.waiting.length
  window : s.errors.length + s.replies.length + s.waiting.length ≤ k

section Window

variable [Zero F] {L : Limits} {text : F → List Byte} {k : ℕ} {start : Output F}
  {arrived : List (TaggedRequest F)} {s : Net F}

omit [Zero F] in
theorem hasBlocks_of_few (hmsgs : s.waiting.length + s.replies.length < L.msgs)
    (hdata : ∀ pool, s.waiting.length + s.replies.length < L.data pool) (pool : DataPool) :
    s.hasBlocks L pool = true := by
  have hwaiting := List.countP_le_length (p := fun r => decide (r.2.pool = pool)) (l := s.waiting)
  have hreplies := List.countP_le_length (p := fun r => decide (r.1 = pool)) (l := s.replies)
  have hpool := hdata pool
  rw [Net.hasBlocks, decide_eq_true_iff]
  exact ⟨hmsgs, by omega⟩

theorem Answered.arrive (hk : Serves L k) (h : Answered L text k start arrived s)
    {req : TaggedRequest F} (hchannel : req.2.channelNum = 0)
    (hwindow : arrived.length < s.heard.length + k) :
    Answered L text k start (arrived ++ [req]) (s.arrive L (.request req)) := by
  have hcount := h.count
  have hmsgs := hk.msgs
  have hincoming := hk.incoming
  have hblocks : s.hasBlocks L req.2.pool = true := by
    refine hasBlocks_of_few (by omega) (fun pool => ?_) _
    have hdata := hk.data pool
    omega
  have hslot : s.waiting.length < L.incoming := by omega
  obtain ⟨served, out, done, hserved, hanswers, hout, hcomes⟩ := h.told
  rw [Net.arrive, if_pos hblocks, if_pos hslot]
  refine ⟨?_, ⟨served, out, done, ?_, hanswers, hout, hcomes⟩, h.short, ?_, ?_⟩
  · intro r hr
    rcases List.mem_append.mp hr with hr | hr
    · exact h.channel r hr
    · rw [List.mem_singleton.mp hr]
      exact hchannel
  · rw [hserved, List.append_assoc]
  · simp only [List.length_append, List.length_singleton]
    omega
  · simp only [List.length_append, List.length_singleton]
    omega

theorem Answered.serve (hk : Serves L k) (h : Answered L text k start arrived s) {t : Net F}
    (hserve : s.serve L text = some t) : Answered L text k start arrived t := by
  have hcount := h.count
  have hwindow := h.window
  cases hwaiting : s.waiting with
  | nil =>
    rw [Net.serve, hwaiting] at hserve
    cases hserve
    exact h
  | cons req waiting =>
    rw [hwaiting, List.length_cons] at hcount hwindow
    simp only [Net.serve, hwaiting, Option.map_eq_some_iff] at hserve
    obtain ⟨⟨o, said⟩, hanswer, rfl⟩ := hserve
    obtain ⟨reply, rfl⟩ := answer_one
      (h.channel req (by rw [hwaiting]; exact List.mem_cons_self)) hanswer
    have hblocks : s.hasBlocks L (replyPool req.2) = true := by
      have hlen : s.waiting.length = waiting.length + 1 := by rw [hwaiting, List.length_cons]
      have hmsgs := hk.msgs
      refine hasBlocks_of_few (by omega) (fun pool => ?_) _
      have hdata := hk.data pool
      omega
    obtain ⟨served, out, done, hserved, hanswers, hout, hcomes⟩ := h.told
    have hreplies : s.reply L req (some reply) = s.replies ++ [(replyPool req.2, reply)] := by
      rw [Net.reply, if_pos hblocks]
      rfl
    refine ⟨?_, ⟨served ++ [req], out ++ [reply], done, ?_, ?_, ?_, hcomes⟩, h.short, ?_, ?_⟩
    · intro r hr
      exact h.channel r (by rw [hwaiting]; exact List.mem_cons_of_mem req hr)
    · rw [hserved, hwaiting, List.append_assoc]
      rfl
    · have hsnoc := answers_snoc hanswers hanswer
      rwa [List.append_assoc] at hsnoc
    · rw [hreplies, List.map_append, hout]
      rfl
    · simp only [hreplies, List.length_append, List.length_singleton]
      omega
    · simp only [hreplies, List.length_append, List.length_singleton]
      omega

theorem Answered.transmit (hk : Serves L k) (h : Answered L text k start arrived s) (room : ℕ) :
    Answered L text k start arrived (s.transmit L room) := by
  have hcount := h.count
  have hwindow := h.window
  obtain ⟨served, out, done, hserved, hanswers, hout, hcomes⟩ := h.told
  cases herrors : s.errors with
  | cons code errors =>
    rw [herrors, List.length_cons] at hcount hwindow
    have hshort := h.short code (by rw [herrors]; exact List.mem_cons_self)
    have hheard : (reported L.frame code).toList = [errorText (ascii "DISPATCHER") code] := by
      rw [reported, Option.filter_some_pos (by simpa using hshort)]
      rfl
    rw [herrors, List.map_cons, List.append_cons] at hcomes
    simp only [Net.transmit, herrors, hheard]
    refine ⟨h.channel, ⟨served, out, done, hserved, hanswers, hout, hcomes⟩, ?_, ?_, ?_⟩
    · intro c hc
      exact h.short c (by rw [herrors]; exact List.mem_cons_of_mem code hc)
    · simp only [List.length_append, List.length_singleton]
      omega
    · simp only
      omega
  | nil =>
    cases hreplies : s.replies with
    | nil =>
      simp only [Net.transmit, herrors, hreplies]
      exact h
    | cons first replies =>
      obtain ⟨pool, reply⟩ := first
      rw [herrors, hreplies, List.length_nil, List.length_cons] at hcount hwindow
      rw [hreplies, List.map_cons] at hout
      rw [herrors, List.map_nil, List.append_nil] at hcomes
      rw [← hout, List.append_cons] at hanswers
      have hthis : Comes L.frame reply (heardReply L.frame room reply) := ⟨room, rfl⟩
      have hnext := List.rel_append hcomes (List.Forall₂.cons hthis .nil)
      have htext := heardReply_eq L.frame room reply
      simp only [Net.transmit, herrors, hreplies]
      cases hfailed : failed L.frame room reply with
      | none =>
        rw [hfailed, Option.elim_none] at htext
        rw [htext] at hnext
        refine ⟨h.channel, ⟨served, _, done ++ [reply], hserved, hanswers, rfl, ?_⟩, ?_, ?_, ?_⟩
        · simpa [herrors] using hnext
        · simp
        · simp only [Option.elim_none, List.length_append, List.length_singleton, List.length_nil]
          omega
        · simp only [Option.elim_none, List.length_nil]
          omega
      | some code =>
        have hroom := hk.errors
        rw [hfailed, Option.elim_some] at htext
        rw [htext] at hnext
        simp only [Option.elim_some, Net.report, List.length_nil, hroom, if_true,
          List.nil_append]
        refine ⟨h.channel, ⟨served, _, done ++ [reply], hserved, hanswers, rfl, hnext⟩, ?_, ?_, ?_⟩
        · intro c hc
          rw [List.mem_singleton.mp hc]
          exact (failure_fits hk.frame _ hfailed).2.2
        · simp only [List.length_singleton]
          omega
        · simp only [List.length_singleton]
          omega

/-- A client asks the channel, and keeps fewer than `k` requests without a reply. -/
def Allowed (k : ℕ) (arrived : List (TaggedRequest F)) (s : Net F) : Act F → Prop
  | .arrive (.request req) => req.2.channelNum = 0 ∧ arrived.length < s.heard.length + k
  | .arrive (.malformed _) | .arrive (.refused _) => False
  | .serve | .transmit _ => True

def Patient (L : Limits) (text : F → List Byte) (k : ℕ) :
    List (TaggedRequest F) → List (Act F) → Net F → Prop
  | _, [], _ => True
  | arrived, act :: acts, s => Allowed k arrived s act ∧
    (s.step L text act).elim True (Patient L text k (arrived ++ requestsOf [act]) acts)

instance (arrived : List (TaggedRequest F)) (s : Net F) (act : Act F) :
    Decidable (Allowed k arrived s act) :=
  match act with
  | .arrive (.request _) => inferInstanceAs (Decidable (_ ∧ _))
  | .arrive (.malformed _) => inferInstanceAs (Decidable False)
  | .arrive (.refused _) => inferInstanceAs (Decidable False)
  | .serve => inferInstanceAs (Decidable True)
  | .transmit _ => inferInstanceAs (Decidable True)

instance decidablePatient (arrived : List (TaggedRequest F)) (acts : List (Act F)) (s : Net F) :
    Decidable (Patient L text k arrived acts s) :=
  match acts with
  | [] => inferInstanceAs (Decidable True)
  | act :: acts =>
    have : Decidable ((s.step L text act).elim True
        (Patient L text k (arrived ++ requestsOf [act]) acts)) :=
      match s.step L text act with
      | none => inferInstanceAs (Decidable True)
      | some t => decidablePatient (arrived ++ requestsOf [act]) acts t
    inferInstanceAs (Decidable (_ ∧ _))

/-- Step lemma. -/
theorem Answered.step (hk : Serves L k) (h : Answered L text k start arrived s) {act : Act F}
    (hallowed : Allowed k arrived s act) {t : Net F} (hstep : s.step L text act = some t) :
    Answered L text k start (arrived ++ requestsOf [act]) t := by
  cases act with
  | arrive a =>
    cases a with
    | request req =>
      cases hstep
      exact h.arrive hk hallowed.1 hallowed.2
    | malformed pool => exact hallowed.elim
    | refused code => exact hallowed.elim
  | serve =>
    rw [show requestsOf [Act.serve] = ([] : List (TaggedRequest F)) from rfl, List.append_nil]
    exact h.serve hk hstep
  | transmit room =>
    cases hstep
    rw [show requestsOf [Act.transmit room] = ([] : List (TaggedRequest F)) from rfl,
      List.append_nil]
    exact h.transmit hk room

/-- Where there is no next state, a request has no answer. -/
theorem Answered.stuck (h : Answered L text k start arrived s) {act : Act F}
    (hstep : s.step L text act = none) (later : List (TaggedRequest F)) :
    answers text (arrived ++ (requestsOf [act] ++ later)) start = none := by
  cases act with
  | arrive a => cases hstep
  | transmit room => cases hstep
  | serve =>
    simp only [Net.step, Net.serve] at hstep
    cases hwaiting : s.waiting with
    | nil =>
      rw [hwaiting] at hstep
      cases hstep
    | cons req waiting =>
      rw [hwaiting] at hstep
      obtain ⟨served, out, done, hserved, hanswers, -, -⟩ := h.told
      rw [hserved, hwaiting, List.append_assoc, List.cons_append]
      exact answers_stuck hanswers (Option.map_eq_none_iff.mp hstep) _

/-- Run lemma. -/
theorem Answered.run (hk : Serves L k) {acts : List (Act F)}
    (h : Answered L text k start arrived s) (hpatient : Patient L text k arrived acts s) :
    (runs (Net.step L text) acts s = none ∧
        answers text (arrived ++ requestsOf acts) start = none) ∨
      ∃ t, runs (Net.step L text) acts s = some t ∧
        Answered L text k start (arrived ++ requestsOf acts) t := by
  induction acts generalizing arrived s with
  | nil => exact Or.inr ⟨s, rfl, by rwa [requestsOf, List.filterMap_nil, List.append_nil]⟩
  | cons act acts ih =>
    obtain ⟨hallowed, hlater⟩ := hpatient
    have hsplit : requestsOf (act :: acts) = requestsOf [act] ++ requestsOf acts :=
      List.filterMap_append (l := [act])
    rw [hsplit]
    cases hstep : s.step L text act with
    | none => exact Or.inl ⟨by rw [runs, hstep, Option.bind_none], h.stuck hstep _⟩
    | some t =>
      have hrun : runs (Net.step L text) (act :: acts) s = runs (Net.step L text) acts t := by
        rw [runs, hstep, Option.bind_some]
      rw [hstep, Option.elim_some] at hlater
      have hnext := ih (h.step hk hallowed hstep) hlater
      rwa [List.append_assoc, ← hrun] at hnext

/-! Once the client is silent. -/

omit [Zero F] in
theorem requestsOf_silent {acts : List (Act F)} (h : ∀ act ∈ acts, ∀ a, act ≠ .arrive a) :
    requestsOf acts = [] := by
  refine List.filterMap_eq_nil_iff.mpr fun act hact => ?_
  cases act with
  | arrive a => exact absurd rfl (h _ hact a)
  | serve => rfl
  | transmit room => rfl

theorem patient_silent {acts : List (Act F)} (h : ∀ act ∈ acts, ∀ a, act ≠ .arrive a) :
    Patient L text k arrived acts s := by
  induction acts generalizing arrived s with
  | nil => trivial
  | cons act acts ih =>
    have hlater : ∀ arrived' t, Patient L text k arrived' acts t :=
      fun _ _ => ih fun act' hact' => h act' (List.mem_cons_of_mem act hact')
    refine ⟨?_, ?_⟩
    · cases act with
      | arrive a => exact absurd rfl (h _ List.mem_cons_self a)
      | serve => trivial
      | transmit room => trivial
    · cases s.step L text act with
      | none => trivial
      | some t => exact hlater _ t

/-- The spinner's worker serves a request with each call. -/
theorem serves_drain {calls : ℕ} {t : Net F}
    (h : runs (Net.step L text) (List.replicate calls .serve) s = some t) :
    t.waiting = s.waiting.drop calls := by
  induction calls generalizing s with
  | zero =>
    cases h
    rfl
  | succ calls ih =>
    obtain ⟨m, hm, hrest⟩ := runs_cons h
    rw [ih hrest]
    simp only [Net.step, Net.serve] at hm
    cases hwaiting : s.waiting with
    | nil =>
      rw [hwaiting] at hm
      cases hm
      rw [hwaiting, List.drop_nil, List.drop_nil]
    | cons req waiting =>
      rw [hwaiting] at hm
      obtain ⟨answered, -, rfl⟩ := Option.map_eq_some_iff.mp hm
      rfl

omit [Zero F] in
/-- A reply may come to an error, which takes another call. -/
theorem transmit_lowers (L : Limits) (room : ℕ) (s : Net F) :
    (s.transmit L room).waiting = s.waiting ∧
      2 * (s.transmit L room).replies.length + (s.transmit L room).errors.length ≤
        2 * s.replies.length + s.errors.length - 1 := by
  unfold Net.transmit
  cases herrors : s.errors with
  | cons code errors => exact ⟨rfl, by simp⟩
  | nil =>
    cases hreplies : s.replies with
    | nil => exact ⟨rfl, by simp [herrors, hreplies]⟩
    | cons first replies =>
      simp only
      cases failed L.frame room first.2 with
      | none => exact ⟨rfl, by simp; omega⟩
      | some code =>
        have hone := Net.report_errors_le L code { s with replies := replies }
        simp only [herrors, List.length_nil] at hone
        refine ⟨Net.report_waiting _ _ _, ?_⟩
        simp only [Option.elim_some, Net.report_replies, List.length_cons]
        omega

theorem transmits_drain {rooms : List ℕ} {t : Net F}
    (h : runs (Net.step L text) (rooms.map .transmit) s = some t) :
    t.waiting = s.waiting ∧ 2 * t.replies.length + t.errors.length ≤
      2 * s.replies.length + s.errors.length - rooms.length := by
  induction rooms generalizing s with
  | nil =>
    cases h
    exact ⟨rfl, by simp⟩
  | cons room rooms ih =>
    obtain ⟨m, hm, hrest⟩ := runs_cons h
    cases hm
    obtain ⟨hwaiting, hless⟩ := ih hrest
    obtain ⟨hsame, hone⟩ := transmit_lowers L room s
    refine ⟨hwaiting.trans hsame, ?_⟩
    rw [List.length_cons]
    omega

/-- Once nothing is under way, every request has been answered. -/
theorem Answered.quiet (h : Answered L text k start arrived s) (hwaiting : s.waiting = [])
    (hreplies : s.replies = []) (herrors : s.errors = []) :
    ∃ replies, answers text arrived start = some (s.output, replies) ∧
      List.Forall₂ (Comes L.frame) replies s.heard := by
  obtain ⟨served, out, done, hserved, hanswers, hout, hcomes⟩ := h.told
  rw [hwaiting, List.append_nil] at hserved
  rw [hreplies, List.map_nil] at hout
  rw [← hout, List.append_nil] at hanswers
  rw [herrors, List.map_nil, List.append_nil] at hcomes
  exact ⟨done, by rw [hserved, hanswers], hcomes⟩

/-- Whatever the order of the calls, each request has its reply in the end. -/
theorem all_answered (hk : Serves L k) {acts : List (Act F)}
    (hpatient : Patient L text k [] acts ⟨[], start, [], [], []⟩) {rooms : List ℕ}
    (hrooms : 2 * k ≤ rooms.length) {later : List (Act F)}
    (hlater : later = List.replicate k .serve ++ rooms.map .transmit) :
    (answers text (requestsOf acts) start = none ∧
        runs (Net.step L text) (acts ++ later) ⟨[], start, [], [], []⟩ = none) ∨
      ∃ t replies, runs (Net.step L text) (acts ++ later) ⟨[], start, [], [], []⟩ = some t ∧
        answers text (requestsOf acts) start = some (t.output, replies) ∧
        List.Forall₂ (Comes L.frame) replies t.heard ∧
        t.waiting = [] ∧ t.replies = [] ∧ t.errors = [] := by
  have hstart : Answered L text k start [] ⟨[], start, [], [], []⟩ := by
    refine ⟨by simp, ⟨[], [], [], rfl, rfl, rfl, .nil⟩, by simp, rfl, by simp⟩
  have hserves : ∀ act ∈ List.replicate k (Act.serve : Act F), ∀ a, act ≠ .arrive a := by
    intro act hact
    rw [List.eq_of_mem_replicate hact]
    exact nofun
  have htransmits : ∀ act ∈ rooms.map (Act.transmit : ℕ → Act F), ∀ a, act ≠ .arrive a := by
    intro act hact
    obtain ⟨room, -, rfl⟩ := List.mem_map.mp hact
    exact nofun
  subst hlater
  rw [runs_append]
  rcases hstart.run hk hpatient with ⟨hrun, hnone⟩ | ⟨t₁, hrun, h₁⟩
  · exact Or.inl ⟨hnone, by rw [hrun, Option.bind_none]⟩
  rw [hrun, Option.bind_some, runs_append]
  rcases h₁.run hk (patient_silent hserves) with ⟨hrun, hnone⟩ | ⟨t₂, hrun, h₂⟩
  · rw [requestsOf_silent hserves, List.append_nil] at hnone
    exact Or.inl ⟨hnone, by rw [hrun, Option.bind_none]⟩
  rw [hrun, Option.bind_some]
  have hwaiting := serves_drain hrun
  rcases h₂.run hk (patient_silent htransmits) with ⟨hrun, hnone⟩ | ⟨t₃, hrun, h₃⟩
  · rw [requestsOf_silent hserves, requestsOf_silent htransmits, List.append_nil,
      List.append_nil] at hnone
    exact Or.inl ⟨hnone, hrun⟩
  obtain ⟨hsame, hless⟩ := transmits_drain hrun
  have hwindow := h₁.window
  have hwindow' := h₂.window
  have hempty : t₃.waiting = [] := by
    rw [hsame, hwaiting]
    exact List.drop_eq_nil_of_le (by omega)
  have hreplies : t₃.replies = [] := List.eq_nil_of_length_eq_zero (by omega)
  have herrors : t₃.errors = [] := List.eq_nil_of_length_eq_zero (by omega)
  rw [requestsOf_silent hserves, requestsOf_silent htransmits, List.append_nil,
    List.append_nil] at h₃
  obtain ⟨replies, hanswers, hcomes⟩ := h₃.quiet hempty hreplies herrors
  exact Or.inr ⟨t₃, replies, hrun, hanswers, hcomes, hempty, hreplies, herrors⟩

end Window

end Ratfist.Network
