import Mathlib.Tactic.Common
import Mathlib.Data.List.Basic

/-!
Fixed-size arrays with checked access. `none` is an access outside the array
or an unsigned subtraction below zero, so that "stays inside" is "is not none".
Arrays filled from the front are described by the list of the bytes stored so far.
-/
namespace Ratfist.CheckedArray

variable {α : Type*} {n : ℕ}

def read (v : Vector α n) (i : ℕ) : Option α := v[i]?

def write (v : Vector α n) (i : ℕ) (x : α) : Option (Vector α n) :=
  if h : i < n then some (v.set i x h) else none

/-- The elements one after the other from index `i` on. -/
def writeList (v : Vector α n) (i : ℕ) : List α → Option (Vector α n)
  | [] => some v
  | x :: xs => do
    let v ← write v i x
    writeList v (i + 1) xs

/-- Unsigned subtraction; `none` when it would wrap. -/
def sub (a b : ℕ) : Option ℕ := if b ≤ a then some (a - b) else none

theorem sub_of_le {a b : ℕ} (h : b ≤ a) : sub a b = some (a - b) := if_pos h

theorem write_of_lt (v : Vector α n) {i : ℕ} (x : α) (h : i < n) :
    write v i x = some (v.set i x h) := dif_pos h

theorem read_of_lt (v : Vector α n) {i : ℕ} (h : i < n) : read v i = some v[i] := by
  simp [read, h]

theorem read_eq_toList (v : Vector α n) (i : ℕ) : read v i = v.toList[i]? := by
  simp [read]

/-- The bytes `l` are stored at the front of the array. -/
def Holds (v : Vector α n) (l : List α) : Prop := v.toList.take l.length = l

theorem Holds.nil (v : Vector α n) : Holds v [] := rfl

theorem Holds.read {v : Vector α n} {l : List α} (h : Holds v l) {i : ℕ} (hi : i < l.length) :
    read v i = some l[i] := by
  have hget := congrArg (fun m => m[i]?) h
  simp only [List.getElem?_take, hi, if_true, List.getElem?_eq_getElem] at hget
  rw [read_eq_toList, hget]

theorem Holds.length_le {v : Vector α n} {l : List α} (h : Holds v l) : l.length ≤ n := by
  have hlen := congrArg List.length h
  simp only [List.length_take, Vector.length_toList] at hlen
  omega

/-- Storing the next element extends the front. -/
theorem Holds.push {v : Vector α n} {l : List α} (h : Holds v l) (x : α) (hl : l.length < n) :
    Holds (v.set l.length x hl) (l ++ [x]) := by
  unfold Holds at *
  rw [List.length_append, List.length_singleton, Vector.toList_set,
    List.take_succ_eq_append_getElem (by simpa using hl), List.take_set_of_le (Nat.le_refl _), h]
  simp

/-- Storing a list behind the front, if there is room for it. -/
theorem Holds.writeList {v : Vector α n} {l : List α} (h : Holds v l) (xs : List α)
    (hroom : l.length + xs.length ≤ n) :
    ∃ v', writeList v l.length xs = some v' ∧ Holds v' (l ++ xs) := by
  induction xs generalizing v l with
  | nil => exact ⟨v, rfl, by rwa [List.append_nil]⟩
  | cons x xs ih =>
    rw [List.length_cons] at hroom
    have hlt : l.length < n := by omega
    obtain ⟨v', hv', hholds⟩ := ih (h.push x hlt) (by simp; omega)
    rw [List.length_append, List.length_singleton] at hv'
    refine ⟨v', ?_, by simpa using hholds⟩
    rw [CheckedArray.writeList, write_of_lt v x hlt]
    exact hv'

/-- Overwriting an element of the front overwrites it in the list. -/
theorem Holds.set {v : Vector α n} {l : List α} (h : Holds v l) {i : ℕ} (x : α) (hi : i < n) :
    Holds (v.set i x hi) (l.set i x) := by
  unfold Holds at *
  rw [List.length_set, Vector.toList_set, List.take_set, h]

/-- What lies behind the front belongs to a longer front. -/
theorem Holds.extend {v : Vector α n} {l : List α} (h : Holds v l) {k : ℕ}
    (hk : l.length + k ≤ n) : Holds v (l ++ (v.toList.drop l.length).take k) := by
  have hlen : (l ++ (v.toList.drop l.length).take k).length = l.length + k := by
    simp
    omega
  rw [Holds, hlen, List.take_add, h]

theorem Holds.left {v : Vector α n} {l l' : List α} (h : Holds v (l ++ l')) : Holds v l := by
  have hle : l.length ≤ (l ++ l').length := by simp
  unfold Holds at *
  have htake := congrArg (List.take l.length) h
  rwa [List.take_take, Nat.min_eq_left hle, List.take_left] at htake

theorem Holds.take {v : Vector α n} {l : List α} (h : Holds v l) {k : ℕ} (hk : k ≤ l.length) :
    v.toList.take k = l.take k := by
  unfold Holds at h
  rw [← h, List.take_take, Nat.min_eq_left hk]

theorem Holds.drop {v : Vector α n} {l : List α} (h : Holds v l) {k : ℕ} (hk : k ≤ l.length) :
    v.toList.drop k = l.drop k ++ v.toList.drop l.length := by
  conv_lhs => rw [← List.take_append_drop l.length v.toList]
  rw [h, List.drop_append_of_le_length hk]

end Ratfist.CheckedArray
