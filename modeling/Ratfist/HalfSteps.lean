import Ratfist.Stepper

/-!
The patterns of the coils. A half-step leads from one of eight patterns to a neighbouring
one; the tables say which coils change, and that is right only for the pattern before. A
change of the direction starts the other table at its first entry, which fits behind one
of the eight.
-/
namespace Ratfist.HalfSteps

open Constants Stepper

def coil (k : ℕ) : BitVec 4 := 1#4 <<< (k % 4)

def halfStep (i : Fin 8) : BitVec 4 := coil (i / 2) ||| coil ((i + 1 : ℕ) / 2)

def neighbour (fwd : Bool) (i : Fin 8) : Fin 8 := if fwd then i + 1 else i - 1

def Moves (fwd : Bool) (coils coils' : BitVec 4) : Prop :=
  ∃ i, coils = halfStep i ∧ coils' = halfStep (neighbour fwd i)

/-- The pattern that an entry of the table leads to. -/
def entryPattern (fwd : Bool) (i : Fin 8) : Fin 8 := if fwd then i else -i

/-- Behind the pattern of its last entry, or with all coils off, a table may start. -/
def Fits (fwd : Bool) (coils : BitVec 4) : Prop :=
  coils = 0 ∨ coils = halfStep (entryPattern fwd 7)

instance (fwd : Bool) (coils : BitVec 4) : Decidable (Fits fwd coils) :=
  inferInstanceAs (Decidable (_ ∨ _))

section Run

variable {F : Type} (ops : FloatOps F) (b : Board) (actions : List (Action F))

/-- After the first half-step there is always a pattern, and each further half-step leads
to its neighbour in the direction commanded last. -/
structure Disciplined : Prop where
  patterns : ∀ pre post s, actions = pre ++ post → run ops b pre = some s → .halfStep ∈ pre →
    ∃ i, s.coils = halfStep i
  moves : ∀ pre post s s', actions = pre ++ .halfStep :: post → run ops b pre = some s →
    step ops b .halfStep s = some s' → .halfStep ∈ pre →
      Moves (commanded ops pre) s.coils s'.coils

/-- Whenever a half-step is the first entry of a table, that fits. -/
def Aligned : Prop :=
  ∀ pre post s, actions = pre ++ .halfStep :: post → run ops b pre = some s →
    s.timebase.enabled → s.dma.next = 0 → Fits (commanded ops pre) s.coils

end Run

/-! The tables. -/

theorem entry_moves (b : Board) (fwd : Bool) (i : Fin 8) (hi : i ≠ 0) :
    bsrr b (halfStep (entryPattern fwd (i - 1))) (stepperPoleStates b fwd)[i] =
      halfStep (entryPattern fwd i) := by
  cases b <;> revert fwd i <;> decide

theorem first_entry (b : Board) (fwd : Bool) {coils : BitVec 4} (h : Fits fwd coils) :
    bsrr b coils (stepperPoleStates b fwd)[(0 : Fin 8)] = halfStep (entryPattern fwd 0) := by
  rcases h with rfl | rfl <;> cases b <;> revert fwd <;> decide

/-- Behind no other pattern does it lead to a neighbour. -/
theorem fits_of_moves (b : Board) (fwd : Bool) (i : Fin 8)
    (h : bsrr b (halfStep i) (stepperPoleStates b fwd)[(0 : Fin 8)] = halfStep (neighbour fwd i)) :
    Fits fwd (halfStep i) := by
  cases b <;> revert fwd i <;> decide

theorem neighbour_entry (fwd : Bool) (i : Fin 8) :
    neighbour fwd (entryPattern fwd (i - 1)) = entryPattern fwd i := by
  revert fwd i
  decide

theorem succ_pred (i : Fin 8) : i + 1 - 1 = i := by
  revert i
  decide

theorem halfStep_ne_zero (i : Fin 8) : halfStep i ≠ 0 := by
  revert i
  decide

/-! Runs. -/

section Run

variable {F : Type} {ops : FloatOps F} {b : Board} {actions : List (Action F)} {s s' : StepperBsp}

theorem Aligned.left {later : List (Action F)} (h : Aligned ops b (actions ++ later)) :
    Aligned ops b actions := by
  intro pre post m hactions
  apply h pre (post ++ later)
  rw [hactions, List.append_assoc, List.cons_append]

/-- Before the first half-step. -/
theorem coils_off (h : run ops b actions = some s) (hno : .halfStep ∉ actions) :
    s.coils = 0 ∧ s.dma.next = 0 := by
  revert hno
  refine Runs.runs_history
    (fun earlier (m : StepperBsp) => .halfStep ∉ earlier → m.coils = 0 ∧ m.dma.next = 0)
    (fun _ => ⟨rfl, rfl⟩) ?_ h
  intro earlier action m t hm ih hstep hno
  rw [List.mem_append, not_or, List.mem_singleton] at hno
  have hoff := ih hno.1
  cases (steered_of_run hm).step hstep with
  | other action timebase _ _ => exact hoff
  | setRate ratePct timebase fwd' hfwd' =>
    refine ⟨hoff.1, ?_⟩
    simp only
    split_ifs
    · exact hoff.2
    · rfl
  | halfStep _ => exact absurd rfl hno.2

/-- The coils while every table has started in the right place. -/
structure Follows (earlier : List (Action F)) (fwd : Bool) (s : StepperBsp) : Prop where
  pattern : .halfStep ∈ earlier → ∃ i, s.coils = halfStep i
  inTable : s.dma.next ≠ 0 → s.coils = halfStep (entryPattern fwd (s.dma.next - 1))

/-- The next entry of the table is the right one. -/
theorem entry_follows {earlier : List (Action F)} {fwd : Bool} (h : Follows earlier fwd s)
    (hfits : s.dma.next = 0 → Fits fwd s.coils) {i : Fin 8} (hi : s.dma.next = i) :
    bsrr b s.coils (stepperPoleStates b fwd)[i] = halfStep (entryPattern fwd i) := by
  subst hi
  by_cases hnext : s.dma.next = 0
  · simp only [hnext]
    exact first_entry b fwd (hfits hnext)
  · rw [h.inTable hnext]
    exact entry_moves b fwd s.dma.next hnext

theorem follows_of_run (h : run ops b actions = some s) (haligned : Aligned ops b actions) :
    Follows actions (commanded ops actions) s := by
  revert haligned
  refine Runs.runs_history
    (fun earlier m => Aligned ops b earlier → Follows earlier (commanded ops earlier) m)
    (fun _ => ⟨by simp, fun hne => absurd rfl hne⟩) ?_ h
  intro earlier action m t hm ih hstep haligned
  have hbefore := ih haligned.left
  cases (steered_of_run hm).step hstep with
  | other action timebase hother hfwd =>
    rw [hfwd]
    refine ⟨fun hmem => hbefore.pattern ?_, hbefore.inTable⟩
    simpa [hother.symm] using hmem
  | setRate ratePct timebase fwd' hfwd' =>
    have hturned : commanded ops (earlier ++ [.setRate 0 ratePct]) = fwd' := by
      rw [commanded_snoc, ← hfwd']
      exact if_pos rfl
    rw [hturned]
    refine ⟨fun hmem => hbefore.pattern (by simpa using hmem), ?_⟩
    simp only
    split_ifs with hsame
    · rw [hsame]
      exact hbefore.inTable
    · exact fun hne => absurd rfl hne
  | halfStep henabled =>
    have hsame : commanded ops (earlier ++ [.halfStep]) = commanded ops earlier :=
      commanded_snoc earlier .halfStep
    have hcoils := entry_follows (b := b) hbefore
      (haligned earlier [] m rfl hm henabled) rfl
    rw [hsame]
    refine ⟨fun _ => ⟨_, hcoils⟩, fun _ => ?_⟩
    simp only [succ_pred]
    exact hcoils

theorem Aligned.moves (h : Aligned ops b actions) {pre post : List (Action F)}
    (hactions : actions = pre ++ .halfStep :: post) (hrun : run ops b pre = some s)
    (hstep : step ops b .halfStep s = some s') (hmem : .halfStep ∈ pre) :
    Moves (commanded ops pre) s.coils s'.coils := by
  have hpre : Aligned ops b pre := (hactions ▸ h).left
  have hfollows := follows_of_run hrun hpre
  cases (steered_of_run hrun).step hstep with
  | other _ _ hne _ => exact absurd rfl hne
  | halfStep henabled =>
    have hfits := h pre post s hactions hrun henabled
    refine ⟨entryPattern (commanded ops pre) (s.dma.next - 1), ?_, ?_⟩
    · by_cases hnext : s.dma.next = 0
      · obtain ⟨i, hi⟩ := hfollows.pattern hmem
        rcases hfits hnext with hoff | hlast
        · exact absurd (hi.symm.trans hoff) (halfStep_ne_zero i)
        · rw [hnext]
          exact hlast
      · exact hfollows.inTable hnext
    · rw [neighbour_entry]
      exact entry_follows hfollows hfits rfl

/-- Every run, with any rates: the coils go from pattern to neighbouring pattern exactly if
each table starts with all coils off or behind the pattern of its own last entry. -/
theorem half_steps_iff_aligned (ops : FloatOps F) (b : Board) (actions : List (Action F)) :
    Disciplined ops b actions ↔ Aligned ops b actions := by
  constructor
  · intro h pre post s hactions hrun henabled hnext
    by_cases hmem : .halfStep ∈ pre
    · obtain ⟨i, hi⟩ := h.patterns pre _ s hactions hrun hmem
      have hsteered := steered_of_run hrun
      have hstep : step ops b .halfStep s = some (s.update b) := by
        rw [step, if_pos henabled]
      obtain ⟨j, hj, hmoved⟩ := h.moves pre post s _ hactions hrun hstep hmem
      rw [hsteered.update] at hmoved
      simp only [hnext, hj] at hmoved
      rw [hj]
      exact fits_of_moves b _ j hmoved
    · exact Or.inl (coils_off hrun hmem).1
  · intro h
    refine ⟨fun pre post s hactions hrun hmem => ?_, fun pre post s s' hactions hrun hstep hmem =>
      h.moves hactions hrun hstep hmem⟩
    exact (follows_of_run hrun (hactions ▸ h).left).pattern hmem

end Run

/-- Five half-steps forward, then one at half the full rate in the other direction. -/
def turnedBack : List (Action ℚ) :=
  [.start 0, .halfStep, .halfStep, .halfStep, .halfStep, .halfStep, .setRate 0 (-50), .halfStep]

/-- Two opposite coils. -/
theorem turned_back_between_patterns :
    (run exact .stm32f411discovery turnedBack).map StepperBsp.coils = some 0b0101 ∧
      ¬ Disciplined exact .stm32f411discovery turnedBack := by
  have hrun : (run exact .stm32f411discovery turnedBack).map StepperBsp.coils = some 0b0101 := by
    decide +kernel
  refine ⟨hrun, fun h => ?_⟩
  obtain ⟨s, hs, hcoils⟩ := Option.map_eq_some_iff.mp hrun
  obtain ⟨i, hi⟩ := h.patterns turnedBack [] s (by simp) hs (by decide)
  rw [hcoils] at hi
  revert i
  decide

end Ratfist.HalfSteps
