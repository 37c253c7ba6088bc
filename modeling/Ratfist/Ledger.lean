import Mathlib.Tactic.Common
import Mathlib.Algebra.BigOperators.Group.Finset.Basic
import Mathlib.Algebra.Order.BigOperators.Group.Finset
import Mathlib.Data.Multiset.Range

/-!
Conservation of items that lie in places. A ledger lists for every place what lies
there; a move takes one item from one place to another. If no item occurs twice in
the total, every item is in exactly one place, once.
-/
namespace Ratfist.Ledger

variable {κ β : Type*} [Fintype κ] [DecidableEq κ]

def total (l : κ → Multiset β) : Multiset β := ∑ p, l p

structure Put (x : β) (q : κ) (l l' : κ → Multiset β) : Prop where
  put : l' q = x ::ₘ l q
  others : ∀ r, r ≠ q → l' r = l r

theorem Put.total {x : β} {q : κ} {l l' : κ → Multiset β} (h : Put x q l l') :
    Ledger.total l' = x ::ₘ Ledger.total l := by
  have hrest : ∑ r ∈ Finset.univ.erase q, l' r = ∑ r ∈ Finset.univ.erase q, l r :=
    Finset.sum_congr rfl fun r hr => h.others r (Finset.ne_of_mem_erase hr)
  unfold Ledger.total
  rw [← Finset.add_sum_erase _ l' (Finset.mem_univ q),
    ← Finset.add_sum_erase _ l (Finset.mem_univ q), hrest, h.put, Multiset.cons_add]

structure Move (x : β) (p q : κ) (l l' : κ → Multiset β) : Prop where
  ne : p ≠ q
  taken : l p = x ::ₘ l' p
  put : l' q = x ::ₘ l q
  others : ∀ r, r ≠ p → r ≠ q → l' r = l r

omit [Fintype κ] in
/-- What is left while the item is on its way. -/
theorem Move.split {x : β} {p q : κ} {l l' : κ → Multiset β} (h : Move x p q l l') :
    ∃ mid, Put x p mid l ∧ Put x q mid l' := by
  refine ⟨Function.update l p (l' p), ⟨?_, ?_⟩, ⟨?_, ?_⟩⟩
  · rw [Function.update_self, h.taken]
  · intro r hr
    rw [Function.update_of_ne hr]
  · rw [Function.update_of_ne h.ne.symm, h.put]
  · intro r hr
    by_cases hp : r = p
    · subst hp
      rw [Function.update_self]
    · rw [Function.update_of_ne hp, h.others r hp hr]

theorem Move.total {x : β} {p q : κ} {l l' : κ → Multiset β} (h : Move x p q l l') :
    Ledger.total l' = Ledger.total l := by
  obtain ⟨mid, hp, hq⟩ := h.split
  rw [hp.total, hq.total]

def Separate (l : κ → Multiset β) : Prop := (total l).Nodup

omit [DecidableEq κ] in
theorem mem_total {l : κ → Multiset β} {x : β} : x ∈ total l ↔ ∃ p, x ∈ l p := by
  simp [total, Multiset.mem_sum]

theorem add_le_total (l : κ → Multiset β) {p q : κ} (hpq : p ≠ q) : l p + l q ≤ total l := by
  unfold total
  rw [← Finset.add_sum_erase _ l (Finset.mem_univ p),
    ← Finset.add_sum_erase _ l (Finset.mem_erase.mpr ⟨hpq.symm, Finset.mem_univ q⟩), ← add_assoc]
  exact Multiset.le_add_right _ _

theorem Separate.nodup_add {l : κ → Multiset β} (h : Separate l) {p q : κ} (hpq : p ≠ q) :
    (l p + l q).Nodup :=
  Multiset.nodup_of_le (add_le_total l hpq) h

/-- An item lies in one place only. -/
theorem Separate.unique {l : κ → Multiset β} (h : Separate l) {x : β} {p q : κ}
    (hp : x ∈ l p) (hq : x ∈ l q) : p = q := by
  by_contra hpq
  exact Multiset.disjoint_left.mp (Multiset.nodup_add.mp (h.nodup_add hpq)).2.2 hp hq

omit [DecidableEq κ] in
theorem Separate.nodup {l : κ → Multiset β} (h : Separate l) (p : κ) : (l p).Nodup :=
  Multiset.nodup_of_le (Finset.single_le_sum (fun _ _ => Multiset.zero_le _) (Finset.mem_univ p)) h

/-- Every item of the total is in exactly one place. -/
theorem Separate.existsUnique {l : κ → Multiset β} (h : Separate l) {x : β}
    (hx : x ∈ total l) : ∃! p, x ∈ l p := by
  obtain ⟨p, hp⟩ := mem_total.mp hx
  exact ⟨p, hp, fun q hq => h.unique hq hp⟩

/-- Also when several places are seen as one. -/
theorem Separate.existsUnique_seen {ρ : Type*} {l : κ → Multiset β} (h : Separate l)
    (seen : κ → ρ) {x : β} (hx : x ∈ total l) : ∃! r, ∃ p, seen p = r ∧ x ∈ l p := by
  obtain ⟨p, hp, huniq⟩ := h.existsUnique hx
  refine ⟨seen p, ⟨p, rfl, hp⟩, ?_⟩
  rintro r ⟨q, rfl, hq⟩
  rw [huniq q hq]

end Ratfist.Ledger
