import Mathlib.Algebra.BigOperators.Group.Finset.Piecewise
import Mathlib.Algebra.Order.BigOperators.Group.Finset

/-!
A worker that looks through queues in a fixed order and takes one element from the
first that has one. Queues may be missing and may occur several times; `waiting` counts
each queue once.
-/
namespace Ratfist.QueueScan

variable {κ ι α β : Type*} {queueOf : κ → Option ι} {read : β → Option (α × β)}
  {boxes : ι → β} {ks : List κ}

/-- The first element found, with its queue and what that becomes. -/
def firstReady (queueOf : κ → Option ι) (read : β → Option (α × β)) (boxes : ι → β)
    (ks : List κ) : Option (κ × ι × α × β) :=
  ks.findSome? fun k =>
    (queueOf k).bind fun q => (read (boxes q)).map fun (x, box) => (k, q, x, box)

/-- The queues that belong to some element of the list. -/
def Listed (queueOf : κ → Option ι) (ks : List κ) (q : ι) : Prop :=
  ∃ k ∈ ks, queueOf k = some q

theorem firstReady_eq_none : firstReady queueOf read boxes ks = none ↔
    ∀ q, Listed queueOf ks q → read (boxes q) = none := by
  simp only [firstReady, List.findSome?_eq_none_iff]
  constructor
  · rintro h q ⟨k, hk, hq⟩
    have hnone := h k hk
    rwa [hq, Option.bind_some, Option.map_eq_none_iff] at hnone
  · intro h k hk
    cases hq : queueOf k with
    | none => rfl
    | some q => rw [Option.bind_some, h q ⟨k, hk, hq⟩, Option.map_none]

theorem firstReady_eq_some {k : κ} {q : ι} {x : α} {box : β}
    (h : firstReady queueOf read boxes ks = some (k, q, x, box)) :
    k ∈ ks ∧ queueOf k = some q ∧ read (boxes q) = some (x, box) := by
  obtain ⟨k', hk', hsome⟩ := List.exists_of_findSome?_eq_some h
  obtain ⟨q', hq', hrest⟩ := Option.bind_eq_some_iff.mp hsome
  obtain ⟨r, hr, hpair⟩ := Option.map_eq_some_iff.mp hrest
  cases hpair
  exact ⟨hk', hq', hr⟩

/-- The queue found is the one of the first element that has it. -/
theorem firstReady_find [DecidableEq ι] {k : κ} {q : ι} {x : α} {box : β}
    (h : firstReady queueOf read boxes ks = some (k, q, x, box)) :
    ks.find? (fun k => queueOf k = some q) = some k := by
  obtain ⟨-, hq, hread⟩ := firstReady_eq_some h
  obtain ⟨before, k', after, hks, hk', hbefore⟩ := List.findSome?_eq_some_iff.mp h
  have hsame : k' = k := by
    obtain ⟨q', -, hrest⟩ := Option.bind_eq_some_iff.mp hk'
    obtain ⟨r, -, hpair⟩ := Option.map_eq_some_iff.mp hrest
    exact congrArg Prod.fst hpair
  subst hsame
  rw [List.find?_eq_some_iff_append]
  refine ⟨by simpa using hq, before, after, hks, ?_⟩
  intro l hl
  have hnone := hbefore l hl
  simp only [Bool.not_eq_true', decide_eq_false_iff_not]
  intro hlq
  rw [hlq, Option.bind_some, hread] at hnone
  cases hnone

section Waiting

variable [DecidableEq ι] {count : β → ℕ}

def waiting (queueOf : κ → Option ι) (count : β → ℕ) (boxes : ι → β) (ks : List κ) : ℕ :=
  ∑ q ∈ (ks.filterMap queueOf).toFinset, count (boxes q)

theorem mem_listed {q : ι} : q ∈ (ks.filterMap queueOf).toFinset ↔ Listed queueOf ks q := by
  rw [List.mem_toFinset, List.mem_filterMap]
  rfl

theorem waiting_eq_zero :
    waiting queueOf count boxes ks = 0 ↔ ∀ q, Listed queueOf ks q → count (boxes q) = 0 := by
  rw [waiting, Finset.sum_eq_zero_iff]
  exact forall_congr' fun q => by rw [mem_listed]

/-- One element less in a listed queue is one less in all. -/
theorem waiting_take {q : ι} {box : β} (hq : Listed queueOf ks q)
    (hcount : count (boxes q) = count box + 1) :
    waiting queueOf count boxes ks =
      waiting queueOf count (Function.update boxes q box) ks + 1 := by
  have hmem := mem_listed.mpr hq
  have hrest : ∑ q' ∈ (ks.filterMap queueOf).toFinset.erase q,
      count (Function.update boxes q box q') =
      ∑ q' ∈ (ks.filterMap queueOf).toFinset.erase q, count (boxes q') := by
    apply Finset.sum_congr rfl
    intro q' hq'
    rw [Function.update_of_ne (Finset.ne_of_mem_erase hq')]
  unfold waiting
  rw [← Finset.add_sum_erase _ (fun q' => count (boxes q')) hmem,
    ← Finset.add_sum_erase _ (fun q' => count (Function.update boxes q box q')) hmem, hrest,
    Function.update_self]
  omega

end Waiting

end Ratfist.QueueScan
