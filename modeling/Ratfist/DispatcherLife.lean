import Ratfist.Runs
import Mathlib.Data.Vector.Basic

/-!
The life of the dispatcher (`dispatcher_init`, `dispatcher_deinit`,
`dispatcher_register_subsystem` and `worker.c`). One task makes these calls; the two workers
call their actions meanwhile, and an action goes through the registered configurations. Each
access to what they share is a step of its own, and the steps come in any order. A task that
returns is stopped.
-/
namespace Ratfist.DispatcherLife

def maxNumCommSubsystems : ℕ := 5

variable {α : Type}

/-- `struct subsystems`, with pointers to configurations. -/
structure Subsystems (α : Type) where
  subsystemConfigurations : ℕ → Option α
  numSubsystems : ℕ

/-- Where the task of a worker stands: stopped, at the condition of its loop, in its action
with so many loops over the configurations to come, at the condition of such a loop, or
before it reads an entry. -/
inductive Position
  | stopped
  | condition
  | action (loops : ℕ)
  | test (loops i : ℕ)
  | entry (loops i : ℕ)
deriving DecidableEq, Repr

/-- `struct worker`; `loops` is the number of loops in its action. -/
structure Worker where
  loops : ℕ
  stopFlag : Bool
  position : Position
deriving DecidableEq, Repr

/-- Where the task stands that calls the dispatcher: between two calls, the dispatcher being
initialized or not, or in one of them. A registration comes back to where it was called. -/
inductive Control (α : Type)
  | between (initialized : Bool)
  | startRx
  | addRx
  | startTx
  | addTx
  | store (initialized : Bool) (conf : α)
  | count (initialized : Bool) (conf : α)
  | stopTx
  | joinRx
  | joinTx
  | clear

/-- The calls; `registered` is a history variable: the configurations registered since the
start or since the last `dispatcher_deinit`, in their order. -/
structure State (α : Type) where
  control : Control α
  rxWorker : Worker
  txWorker : Worker
  subsystems : Subsystems α
  registered : List α

/-- What the calling task does next: it begins a call, or goes on with one. -/
inductive Move (α : Type)
  | init
  | deinit
  | register (conf : α)
  | continue

/-- A worker goes on, or leaves its action as soon as it may. -/
inductive Turn
  | next
  | leave
deriving DecidableEq, Repr

inductive Label (α : Type)
  | control (move : Move α)
  | rx (turn : Turn)
  | tx (turn : Turn)

/-- `worker_task_func`, and of the action what it does with `subsystems`. -/
def Worker.step (turn : Turn) (numSubsystems : ℕ) (w : Worker) : Option Worker :=
  match w.position, turn with
  | .stopped, _ => none
  | .condition, _ =>
    some { w with position := if w.stopFlag then .stopped else .action w.loops }
  | .action 0, _ | .action (_ + 1), .leave => some { w with position := .condition }
  | .action (loops + 1), .next => some { w with position := .test loops 0 }
  | .test loops i, _ =>
    some { w with position := if i < numSubsystems then .entry loops i else .action loops }
  | .entry loops i, .next => some { w with position := .test loops (i + 1) }
  | .entry _ _, .leave => some { w with position := .condition }

/-- `worker_start` up to `os_task_add`, and what that does. -/
def Worker.start (w : Worker) : Worker := { w with stopFlag := false }

def Worker.add (w : Worker) : Worker := { w with position := .condition }

def Worker.stop (w : Worker) : Worker := { w with stopFlag := true }

def controlStep (move : Move α) (s : State α) : Option (State α) :=
  match s.control, move with
  | .between false, .init => some { s with control := .startRx }
  | .startRx, .continue => some { s with control := .addRx, rxWorker := s.rxWorker.start }
  | .addRx, .continue => some { s with control := .startTx, rxWorker := s.rxWorker.add }
  | .startTx, .continue => some { s with control := .addTx, txWorker := s.txWorker.start }
  | .addTx, .continue => some { s with control := .between true, txWorker := s.txWorker.add }
  | .between initialized, .register conf =>
    if s.subsystems.numSubsystems ≥ maxNumCommSubsystems then some s
    else some { s with control := .store initialized conf }
  | .store initialized conf, .continue =>
    let entries := Function.update s.subsystems.subsystemConfigurations
      s.subsystems.numSubsystems (some conf)
    some { s with
      control := .count initialized conf
      subsystems := { s.subsystems with subsystemConfigurations := entries } }
  | .count initialized conf, .continue =>
    some { s with
      control := .between initialized
      subsystems := { s.subsystems with numSubsystems := s.subsystems.numSubsystems + 1 }
      registered := s.registered ++ [conf] }
  | .between true, .deinit => some { s with control := .stopTx, rxWorker := s.rxWorker.stop }
  | .stopTx, .continue => some { s with control := .joinRx, txWorker := s.txWorker.stop }
  | .joinRx, .continue =>
    if s.rxWorker.position = .stopped then some { s with control := .joinTx } else none
  | .joinTx, .continue =>
    if s.txWorker.position = .stopped then some { s with control := .clear } else none
  | .clear, .continue =>
    some { s with
      control := .between false
      subsystems := { s.subsystems with numSubsystems := 0 }
      registered := [] }
  | _, _ => none

def step : Label α → State α → Option (State α)
  | .control move, s => controlStep move s
  | .rx turn, s =>
    (s.rxWorker.step turn s.subsystems.numSubsystems).map fun w => { s with rxWorker := w }
  | .tx turn, s =>
    (s.txWorker.step turn s.subsystems.numSubsystems).map fun w => { s with txWorker := w }

/-- Before `main`. The receive worker looks up a subsystem, the transmit worker looks for an
error first and then for a message. -/
def initial : State α where
  control := .between false
  rxWorker := ⟨1, false, .stopped⟩
  txWorker := ⟨2, false, .stopped⟩
  subsystems := ⟨fun _ => none, 0⟩
  registered := []

/-- A worker reads an entry only while its index is below the count. -/
def Worker.Placed (w : Worker) (numSubsystems : ℕ) : Prop :=
  ∀ loops i, w.position = .entry loops i → i < numSubsystems

def Worker.Stopped (w : Worker) : Prop := w.position = .stopped

def Known (rxWorker txWorker : Worker) (subsystems : Subsystems α) : Control α → Prop
  | .between initialized => initialized = false → rxWorker.Stopped ∧ txWorker.Stopped
  | .startRx | .addRx | .clear => rxWorker.Stopped ∧ txWorker.Stopped
  | .startTx | .addTx => txWorker.Stopped
  | .store initialized _ =>
    (initialized = false → rxWorker.Stopped ∧ txWorker.Stopped) ∧
      subsystems.numSubsystems < maxNumCommSubsystems
  | .count initialized conf =>
    (initialized = false → rxWorker.Stopped ∧ txWorker.Stopped) ∧
      subsystems.numSubsystems < maxNumCommSubsystems ∧
      subsystems.subsystemConfigurations subsystems.numSubsystems = some conf
  | .stopTx => rxWorker.stopFlag = true
  | .joinRx => rxWorker.stopFlag = true ∧ txWorker.stopFlag = true
  | .joinTx => rxWorker.stopFlag = true ∧ txWorker.stopFlag = true ∧ rxWorker.Stopped

structure Sound (s : State α) : Prop where
  bound : s.subsystems.numSubsystems ≤ maxNumCommSubsystems
  size : s.registered.length = s.subsystems.numSubsystems
  entries : ∀ i conf, s.registered[i]? = some conf →
    s.subsystems.subsystemConfigurations i = some conf
  rxPlaced : s.rxWorker.Placed s.subsystems.numSubsystems
  txPlaced : s.txWorker.Placed s.subsystems.numSubsystems
  known : Known s.rxWorker s.txWorker s.subsystems s.control

section Steps

variable {s t : State α} {w w' : Worker} {turn : Turn} {numSubsystems : ℕ}

structure Worker.Stepped (w w' : Worker) (numSubsystems : ℕ) : Prop where
  running : ¬ w.Stopped
  stopFlag : w'.stopFlag = w.stopFlag
  placed : w'.Placed numSubsystems

theorem Worker.step_stepped (h : w.step turn numSubsystems = some w') :
    w.Stepped w' numSubsystems := by
  unfold Worker.step at h
  cases hposition : w.position with
  | stopped => simp [hposition] at h
  | condition =>
    simp only [hposition, Option.some.injEq] at h
    subst h
    refine ⟨by simp [Worker.Stopped, hposition], rfl, ?_⟩
    intro loops i hentry
    cases hflag : w.stopFlag <;> simp [hflag] at hentry
  | action loops =>
    refine ⟨by simp [Worker.Stopped, hposition], ?_, ?_⟩
    · cases loops <;> cases turn <;> simp only [hposition, Option.some.injEq] at h <;>
        exact h ▸ rfl
    · intro loops' i hentry
      cases loops <;> cases turn <;> simp only [hposition, Option.some.injEq] at h <;>
        simp [← h] at hentry
  | test loops i =>
    simp only [hposition, Option.some.injEq] at h
    subst h
    refine ⟨by simp [Worker.Stopped, hposition], rfl, ?_⟩
    intro loops' i' hentry
    by_cases hlt : i < numSubsystems
    · simp only [if_pos hlt, Position.entry.injEq] at hentry
      exact hentry.2 ▸ hlt
    · simp [hlt] at hentry
  | entry loops i =>
    refine ⟨by simp [Worker.Stopped, hposition], ?_, ?_⟩
    · cases turn <;> simp only [hposition, Option.some.injEq] at h <;> exact h ▸ rfl
    · intro loops' i' hentry
      cases turn <;> simp only [hposition, Option.some.injEq] at h <;> simp [← h] at hentry

structure Worker.Follows (w w' : Worker) : Prop where
  stopped : w.Stopped → w'.Stopped
  stopFlag : w.stopFlag = true → w'.stopFlag = true

theorem Worker.Follows.refl (w : Worker) : w.Follows w := ⟨id, id⟩

theorem Worker.Stepped.follows (h : w.Stepped w' numSubsystems) : w.Follows w' :=
  ⟨fun hstopped => absurd hstopped h.running, h.stopFlag.trans⟩

theorem Known.follows {rx rx' tx tx' : Worker} {subsystems : Subsystems α} {control : Control α}
    (h : Known rx tx subsystems control) (hrx : rx.Follows rx') (htx : tx.Follows tx') :
    Known rx' tx' subsystems control := by
  have hboth (hstopped : rx.Stopped ∧ tx.Stopped) : rx'.Stopped ∧ tx'.Stopped :=
    hstopped.imp hrx.stopped htx.stopped
  cases control with
  | between initialized => exact fun hoff => hboth (h hoff)
  | startRx => exact hboth h
  | addRx => exact hboth h
  | clear => exact hboth h
  | startTx => exact htx.stopped h
  | addTx => exact htx.stopped h
  | store initialized conf => exact ⟨fun hoff => hboth (h.1 hoff), h.2⟩
  | count initialized conf => exact ⟨fun hoff => hboth (h.1 hoff), h.2⟩
  | stopTx => exact hrx.stopFlag h
  | joinRx => exact h.imp hrx.stopFlag htx.stopFlag
  | joinTx => exact ⟨hrx.stopFlag h.1, htx.stopFlag h.2.1, hrx.stopped h.2.2⟩

theorem Worker.placed_of_stopped (h : w.Stopped) : w.Placed numSubsystems := by
  intro loops i hentry
  rw [h] at hentry
  cases hentry

/-- An entry beyond the count is written before it is counted. -/
theorem Sound.store {conf : α} {initialized : Bool} (h : Sound s)
    (hcontrol : s.control = .store initialized conf) :
    Sound { s with
      control := .count initialized conf
      subsystems := { s.subsystems with
        subsystemConfigurations := Function.update s.subsystems.subsystemConfigurations
          s.subsystems.numSubsystems (some conf) } } := by
  have hknown := h.known
  rw [hcontrol] at hknown
  refine ⟨h.bound, h.size, ?_, h.rxPlaced, h.txPlaced, ?_⟩
  · intro i conf' hentry
    have hi : i < s.registered.length := (List.getElem?_eq_some_iff.mp hentry).1
    rw [h.size] at hi
    have hold : Function.update s.subsystems.subsystemConfigurations s.subsystems.numSubsystems
        (some conf) i = s.subsystems.subsystemConfigurations i :=
      Function.update_of_ne (Nat.ne_of_lt hi) _ _
    exact hold.trans (h.entries i conf' hentry)
  · exact ⟨hknown.1, hknown.2, Function.update_self _ _ _⟩

theorem Sound.count {conf : α} {initialized : Bool} (h : Sound s)
    (hcontrol : s.control = .count initialized conf) :
    Sound { s with
      control := .between initialized
      subsystems := { s.subsystems with numSubsystems := s.subsystems.numSubsystems + 1 }
      registered := s.registered ++ [conf] } := by
  have hknown := h.known
  rw [hcontrol] at hknown
  obtain ⟨hstopped, hroom, hstored⟩ := hknown
  refine ⟨hroom, by simp [h.size], ?_, ?_, ?_, hstopped⟩
  · intro i conf' hentry
    rcases Nat.lt_trichotomy i s.registered.length with hlt | heq | hgt
    · rw [List.getElem?_append_left hlt] at hentry
      exact h.entries i conf' hentry
    · rw [heq, List.getElem?_append_right (Nat.le_refl _), Nat.sub_self] at hentry
      cases hentry
      rw [heq, h.size]
      exact hstored
    · rw [List.getElem?_eq_none (by simp; omega)] at hentry
      cases hentry
  · exact fun loops i hentry => Nat.lt_succ_of_lt (h.rxPlaced loops i hentry)
  · exact fun loops i hentry => Nat.lt_succ_of_lt (h.txPlaced loops i hentry)

theorem Sound.control (h : Sound s) {move : Move α} (hs : controlStep move s = some t) :
    Sound t := by
  have hknown := h.known
  unfold controlStep at hs
  split at hs
  next hcontrol =>
    cases hs
    rw [hcontrol] at hknown
    exact ⟨h.bound, h.size, h.entries, h.rxPlaced, h.txPlaced, hknown rfl⟩
  next hcontrol =>
    cases hs
    rw [hcontrol] at hknown
    exact ⟨h.bound, h.size, h.entries, h.rxPlaced, h.txPlaced, hknown⟩
  next hcontrol =>
    cases hs
    rw [hcontrol] at hknown
    exact ⟨h.bound, h.size, h.entries, fun _ _ hentry => by simp [Worker.add] at hentry,
      h.txPlaced, hknown.2⟩
  next hcontrol =>
    cases hs
    rw [hcontrol] at hknown
    exact ⟨h.bound, h.size, h.entries, h.rxPlaced, h.txPlaced, hknown⟩
  next hcontrol =>
    cases hs
    exact ⟨h.bound, h.size, h.entries, h.rxPlaced,
      fun _ _ hentry => by simp [Worker.add] at hentry, fun hoff => by cases hoff⟩
  next initialized conf hcontrol =>
    split_ifs at hs with hfull
    · cases hs
      exact h
    · cases hs
      rw [hcontrol] at hknown
      exact ⟨h.bound, h.size, h.entries, h.rxPlaced, h.txPlaced, hknown, Nat.lt_of_not_ge hfull⟩
  next initialized conf hcontrol =>
    cases hs
    exact h.store hcontrol
  next initialized conf hcontrol =>
    cases hs
    exact h.count hcontrol
  next hcontrol =>
    cases hs
    exact ⟨h.bound, h.size, h.entries, h.rxPlaced, h.txPlaced, rfl⟩
  next hcontrol =>
    cases hs
    rw [hcontrol] at hknown
    exact ⟨h.bound, h.size, h.entries, h.rxPlaced, h.txPlaced, hknown, rfl⟩
  next hcontrol =>
    split_ifs at hs with hrx
    cases hs
    rw [hcontrol] at hknown
    exact ⟨h.bound, h.size, h.entries, h.rxPlaced, h.txPlaced, hknown.1, hknown.2, hrx⟩
  next hcontrol =>
    split_ifs at hs with htx
    cases hs
    rw [hcontrol] at hknown
    exact ⟨h.bound, h.size, h.entries, h.rxPlaced, h.txPlaced, hknown.2.2, htx⟩
  next hcontrol =>
    cases hs
    rw [hcontrol] at hknown
    exact ⟨Nat.zero_le _, rfl, fun i conf hentry => by simp at hentry,
      Worker.placed_of_stopped hknown.1, Worker.placed_of_stopped hknown.2, fun _ => hknown⟩
  next => cases hs

theorem Sound.step (h : Sound s) {label : Label α} (hs : step label s = some t) : Sound t := by
  cases label with
  | control move => exact h.control hs
  | rx turn =>
    obtain ⟨w, hw, rfl⟩ := Option.map_eq_some_iff.mp hs
    have hstepped := Worker.step_stepped hw
    exact ⟨h.bound, h.size, h.entries, hstepped.placed, h.txPlaced,
      h.known.follows hstepped.follows (.refl _)⟩
  | tx turn =>
    obtain ⟨w, hw, rfl⟩ := Option.map_eq_some_iff.mp hs
    have hstepped := Worker.step_stepped hw
    exact ⟨h.bound, h.size, h.entries, h.rxPlaced, hstepped.placed,
      h.known.follows (.refl _) hstepped.follows⟩

theorem initial_sound : Sound (initial : State α) :=
  ⟨Nat.zero_le _, rfl, fun i conf hentry => by simp [initial] at hentry,
    Worker.placed_of_stopped rfl, Worker.placed_of_stopped rfl, fun _ => ⟨rfl, rfl⟩⟩

theorem sound_of_run {labels : List (Label α)} (h : Runs.runs step labels initial = some s) :
    Sound s :=
  Runs.runs_invariant Sound (fun _ _ _ hs hstep => hs.step hstep) initial_sound h

/-- The steps that a worker may still take once its flag is set. -/
def Worker.left (w : Worker) (numSubsystems : ℕ) : ℕ :=
  match w.position with
  | .stopped => 0
  | .condition => 1
  | .action loops => 2 + loops * (2 * numSubsystems + 2)
  | .test loops i => 3 + loops * (2 * numSubsystems + 2) + 2 * (numSubsystems - i)
  | .entry loops i => 2 + loops * (2 * numSubsystems + 2) + 2 * (numSubsystems - i)

theorem Worker.step_left (hflag : w.stopFlag = true) (hplaced : w.Placed numSubsystems)
    (h : w.step turn numSubsystems = some w') :
    w'.left numSubsystems < w.left numSubsystems := by
  unfold Worker.step at h
  unfold Worker.left
  cases hposition : w.position with
  | stopped => simp [hposition] at h
  | condition =>
    simp only [hposition, hflag, if_true, Option.some.injEq] at h
    simp [← h]
  | action loops =>
    cases loops with
    | zero =>
      simp only [hposition, Option.some.injEq] at h
      simp [← h]
    | succ loops =>
      cases turn with
      | next =>
        simp only [hposition, Option.some.injEq] at h
        simp only [← h, Nat.add_mul]
        omega
      | leave =>
        simp only [hposition, Option.some.injEq] at h
        simp only [← h]
        omega
  | test loops i =>
    simp only [hposition, Option.some.injEq] at h
    by_cases hlt : i < numSubsystems
    · rw [if_pos hlt] at h
      simp only [← h]
      omega
    · rw [if_neg hlt] at h
      simp only [← h]
      omega
  | entry loops i =>
    have hlt := hplaced loops i hposition
    cases turn with
    | next =>
      simp only [hposition, Option.some.injEq] at h
      simp only [← h]
      omega
    | leave =>
      simp only [hposition, Option.some.injEq] at h
      simp only [← h]
      omega

theorem Worker.stopped_of_step (h : ∀ turn, w.step turn numSubsystems = none) : w.Stopped := by
  have hnext := h .next
  unfold Worker.step at hnext
  cases hposition : w.position with
  | stopped => exact hposition
  | action loops => cases loops <;> simp [hposition] at hnext
  | _ => simp [hposition] at hnext

def ofWorker : Bool × Turn → Label α
  | (true, turn) => .rx turn
  | (false, turn) => .tx turn

/-- `dispatcher_deinit` waits, with the configurations as they were. -/
structure Joining (subsystems : Subsystems α) (s : State α) : Prop where
  sound : Sound s
  control : s.control = .joinRx
  subsystems : s.subsystems = subsystems

theorem Joining.flags {subsystems : Subsystems α} (h : Joining subsystems s) :
    s.rxWorker.stopFlag = true ∧ s.txWorker.stopFlag = true := by
  have hknown := h.sound.known
  rwa [h.control] at hknown

def left (numSubsystems : ℕ) (s : State α) : ℕ :=
  s.rxWorker.left numSubsystems + s.txWorker.left numSubsystems

/-- Each step of a worker brings the wait closer to its end. -/
theorem Joining.step {subsystems : Subsystems α} (h : Joining subsystems s)
    (label : Bool × Turn) (hs : step (ofWorker label) s = some t) :
    Joining subsystems t ∧
      left subsystems.numSubsystems t < left subsystems.numSubsystems s := by
  obtain ⟨hrx, htx⟩ := h.flags
  have hsound := h.sound.step hs
  rw [← h.subsystems]
  obtain ⟨rx, turn⟩ := label
  cases rx with
  | true =>
    obtain ⟨w, hw, rfl⟩ := Option.map_eq_some_iff.mp hs
    have hleft := Worker.step_left hrx h.sound.rxPlaced hw
    exact ⟨⟨hsound, h.control, rfl⟩, Nat.add_lt_add_right hleft _⟩
  | false =>
    obtain ⟨w, hw, rfl⟩ := Option.map_eq_some_iff.mp hs
    have hleft := Worker.step_left htx h.sound.txPlaced hw
    exact ⟨⟨hsound, h.control, rfl⟩, Nat.add_lt_add_left hleft _⟩

end Steps

def workers (label : Bool × Turn) : State α → Option (State α) := step (ofWorker label)

/-- The workers come to an end by themselves, and then `dispatcher_deinit` returns. -/
structure Joins (s : State α) : Prop where
  ends : ∃ bound, ∀ labels t, Runs.runs workers labels s = some t → labels.length ≤ bound
  returns : ∀ labels t, Runs.runs workers labels s = some t → (∀ label, workers label t = none) →
    Runs.runs controlStep [.continue, .continue, .continue] t =
      some { t with
        control := .between false
        subsystems := { t.subsystems with numSubsystems := 0 }
        registered := [] }

theorem Joining.joins {s : State α} (h : Joining s.subsystems s) : Joins s := by
  refine ⟨⟨left s.subsystems.numSubsystems s, fun labels t hrun => ?_⟩,
    fun labels t hrun hquiet => ?_⟩
  · exact Runs.runs_length_le (Joining s.subsystems) (left s.subsystems.numSubsystems)
      (fun label t u ht hu => ht.step label hu) h hrun
  · have ht : Joining s.subsystems t := Runs.runs_invariant (Joining s.subsystems)
      (fun label t u ht hu => (ht.step label hu).1) h hrun
    have hrx : t.rxWorker.position = .stopped :=
      Worker.stopped_of_step fun turn => Option.map_eq_none_iff.mp (hquiet (true, turn))
    have htx : t.txWorker.position = .stopped :=
      Worker.stopped_of_step fun turn => Option.map_eq_none_iff.mp (hquiet (false, turn))
    simp [Runs.runs, controlStep, ht.control, hrx, htx]

/-- Every order of the steps, with any configurations. -/
theorem dispatcher_life (labels : List (Label α)) (s : State α)
    (h : Runs.runs step labels initial = some s) :
    (∀ w ∈ [s.rxWorker, s.txWorker], ∀ loops i, w.position = .entry loops i →
      i < maxNumCommSubsystems ∧ ∃ conf, s.registered[i]? = some conf ∧
        s.subsystems.subsystemConfigurations i = some conf) ∧
    (∀ initialized, s.control = .between initialized →
      (initialized = false → ∀ label, workers label s = none) ∧
      ∀ conf, (step (.control (.register conf)) s = some s ↔
        s.registered.length = maxNumCommSubsystems)) ∧
    (s.control = .joinRx → Joins s) := by
  have hsound := sound_of_run h
  have hread (w : Worker) (hplaced : w.Placed s.subsystems.numSubsystems) (loops i : ℕ)
      (hentry : w.position = .entry loops i) :
      i < maxNumCommSubsystems ∧ ∃ conf, s.registered[i]? = some conf ∧
        s.subsystems.subsystemConfigurations i = some conf := by
    have hi := hplaced loops i hentry
    rw [← hsound.size] at hi
    refine ⟨?_, s.registered[i], List.getElem?_eq_getElem hi,
      hsound.entries i _ (List.getElem?_eq_getElem hi)⟩
    exact Nat.lt_of_lt_of_le (hsound.size ▸ hi) hsound.bound
  refine ⟨?_, ?_, fun hcontrol => Joining.joins ⟨hsound, hcontrol, rfl⟩⟩
  · intro w hw
    rcases List.mem_pair.mp hw with rfl | rfl
    · exact hread _ hsound.rxPlaced
    · exact hread _ hsound.txPlaced
  · intro initialized hcontrol
    have hknown := hsound.known
    rw [hcontrol] at hknown
    constructor
    · intro hoff label
      obtain ⟨hrx, htx⟩ := hknown hoff
      obtain ⟨rx, turn⟩ := label
      rw [Worker.Stopped] at hrx htx
      cases rx <;> simp [workers, ofWorker, step, Worker.step, hrx, htx]
    · intro conf
      have hbound := hsound.bound
      have hregister : step (.control (.register conf)) s =
          if s.subsystems.numSubsystems ≥ maxNumCommSubsystems then some s
          else some { s with control := .store initialized conf } := by
        simp only [step, controlStep, hcontrol]
      rw [hsound.size, hregister]
      by_cases hfull : s.subsystems.numSubsystems ≥ maxNumCommSubsystems
      · rw [if_pos hfull]
        exact iff_of_true rfl (Nat.le_antisymm hbound hfull)
      · rw [if_neg hfull]
        refine iff_of_false ?_ (fun heq => hfull heq.ge)
        intro hsame
        have hstore := congrArg State.control (Option.some.inj hsame)
        rw [hcontrol] at hstore
        cases hstore

/-- A second subsystem is registered while the receive worker goes through the configurations. -/
theorem registered_during_lookup : ∃ s : State ℕ,
    s.control = .count true 8 ∧ s.rxWorker.position = .entry 0 0 ∧
    ∃ conf, s.registered[0]? = some conf ∧ s.subsystems.subsystemConfigurations 0 = some conf := by
  obtain ⟨s, hs, hcontrol, hentry⟩ : ∃ s : State ℕ,
      Runs.runs step
        [.control (.register 7), .control .continue, .control .continue, .control .init,
          .control .continue, .control .continue, .control .continue, .control .continue,
          .rx .next, .rx .next, .control (.register 8), .control .continue, .rx .next]
        initial = some s ∧ s.control = .count true 8 ∧ s.rxWorker.position = .entry 0 0 :=
    ⟨_, rfl, rfl, rfl⟩
  have hread := (dispatcher_life _ s hs).1 _ List.mem_cons_self 0 0 hentry
  exact ⟨s, hcontrol, hentry, hread.2⟩

end Ratfist.DispatcherLife
