import Mathlib.Data.List.Basic

/-!
A queue and a log beside it, the newest entry first. What a step logs is what it puts into the
queue; what waits in the queue is what was logged last.
-/
namespace Ratfist.QueueLog

variable {β τ : Type*} {text text' : β → τ} {queue queue' : List β} {log log' : List τ}

/-- Entries and items come together; the first item may be taken without an entry. -/
inductive Logged (text : β → τ) (queue queue' : List β) (log log' : List τ) : Prop
  | put (x : β) (items : queue' = queue ++ [x]) (entries : log' = text x :: log)
  | taken (x : β) (items : queue = x :: queue') (entries : log' = log)
  | same (items : queue' = queue) (entries : log' = log)

/-- The same for a queue that may be full: an item that is logged has been offered to it. -/
inductive Offered (capacity : ℕ) (text : β → τ) (queue queue' : List τ) (log log' : List β) : Prop
  | put (x : β)
      (items : queue' = if queue.length < capacity then queue ++ [text x] else queue)
      (entries : log' = x :: log)
  | taken (x : τ) (items : queue = x :: queue') (entries : log' = log)
  | same (items : queue' = queue) (entries : log' = log)

/-- The queue holds the newest entries. -/
def Newest (text : β → τ) (queue : List β) (log : List τ) : Prop :=
  (queue.map text).reverse <+: log

theorem Newest.nil (text : β → τ) (log : List τ) : Newest text [] log := List.nil_prefix

theorem Newest.congr (h : Newest text queue log) (htext : ∀ x ∈ queue, text' x = text x) :
    Newest text' queue log := by
  unfold Newest
  rw [List.map_congr_left htext]
  exact h

/-- Step lemma, for items that keep their text while they wait. -/
theorem Newest.step (h : Newest text queue log) (hs : Logged text' queue queue' log log')
    (htext : ∀ x ∈ queue, text' x = text x) : Newest text' queue' log' := by
  have hsame := h.congr htext
  cases hs with
  | put x items entries =>
    rw [items, entries, Newest, List.map_append, List.reverse_append]
    exact (List.prefix_cons_inj (text' x)).mpr hsame
  | taken x items entries =>
    rw [items, Newest, List.map_cons, List.reverse_cons] at hsame
    rw [entries]
    exact (List.prefix_append _ _).trans hsame
  | same items entries =>
    rw [items, entries]
    exact hsame

/-! A log that is kept with the calls it is about: only the entry of the newest call changes. -/

section Calls

variable {κ : Type*} {entries : κ → List τ} {note : κ → κ} {calls : List κ}

theorem flatMap_modifyHead_same (h : ∀ call, entries (note call) = entries call)
    (calls : List κ) : (calls.modifyHead note).flatMap entries = calls.flatMap entries := by
  cases calls with
  | nil => rfl
  | cons call earlier => exact congrArg (· ++ earlier.flatMap entries) (h call)

theorem flatMap_modifyHead_put {x : τ} (h : ∀ call, entries (note call) = x :: entries call)
    (hcalls : calls ≠ []) :
    (calls.modifyHead note).flatMap entries = x :: calls.flatMap entries := by
  obtain ⟨call, earlier, rfl⟩ := List.exists_cons_of_ne_nil hcalls
  exact congrArg (· ++ earlier.flatMap entries) (h call)

end Calls

end Ratfist.QueueLog
