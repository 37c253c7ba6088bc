import Ratfist.Ledger
import Mathlib.Data.Fintype.BigOperators
import Mathlib.Tactic.DeriveFintype

/-!
Workers that exchange blocks through queues. A block is free, held bare by a worker,
or live: it has a payload block attached and is in a queue or held by a worker. The
six steps are the only ways in which a block changes its place; they conserve the
blocks, and the payload blocks with them.
-/
namespace Ratfist.Exchange

open Ledger

inductive LivePlace (ω θ : Type)
  | queue (q : θ)
  | full (w : ω)
deriving DecidableEq, Fintype

inductive Place (ω θ : Type)
  | free
  | bare (w : ω)
  | live (p : LivePlace ω θ)
deriving DecidableEq, Fintype

/-- `data` matters for live blocks only. -/
structure Holdings (ω θ β γ : Type) where
  place : Place ω θ → Multiset β
  freeData : Multiset γ
  data : β → γ

variable {ω θ β γ : Type} [Fintype ω] [Fintype θ] [DecidableEq ω] [DecidableEq θ]

def Holdings.live (e : Holdings ω θ β γ) : Multiset β := total fun p => e.place (.live p)

/-- What the workers can do with a block; the payload of the others stays. -/
inductive Step (e e' : Holdings ω θ β γ) : Prop
  | take (m : β) (w : ω) (move : Move m .free (.bare w) e.place e'.place)
      (pool : e'.freeData = e.freeData) (data : ∀ x ∈ e.live, e'.data x = e.data x)
  | give (m : β) (w : ω) (move : Move m (.bare w) .free e.place e'.place)
      (pool : e'.freeData = e.freeData) (data : ∀ x ∈ e.live, e'.data x = e.data x)
  | attach (m : β) (w : ω) (move : Move m (.bare w) (.live (.full w)) e.place e'.place)
      (pool : e.freeData = e'.data m ::ₘ e'.freeData)
      (data : ∀ x ∈ e.live, e'.data x = e.data x)
  | detach (m : β) (w : ω) (move : Move m (.live (.full w)) (.bare w) e.place e'.place)
      (pool : e'.freeData = e.data m ::ₘ e.freeData)
      (data : ∀ x ∈ e.live, e'.data x = e.data x)
  | pass (m : β) (p q : LivePlace ω θ) (move : Move m (.live p) (.live q) e.place e'.place)
      (pool : e'.freeData = e.freeData) (data : ∀ x ∈ e.live, e'.data x = e.data x)
  | stay (same : e'.place = e.place) (pool : e'.freeData = e.freeData)
      (data : ∀ x ∈ e.live, e'.data x = e.data x)

/-- All blocks are somewhere, and all payload blocks are free or attached. -/
structure Conserves (blocks : Multiset β) (payloads : Multiset γ) (e : Holdings ω θ β γ) :
    Prop where
  blocks : total e.place = blocks
  payloads : e.freeData + e.live.map e.data = payloads

omit [Fintype ω] [Fintype θ] [DecidableEq ω] [DecidableEq θ] in
private theorem live_ne {p q : LivePlace ω θ} (h : p ≠ q) :
    (Place.live p : Place ω θ) ≠ .live q := by
  simpa using h

omit [DecidableEq ω] [DecidableEq θ] in
theorem live_of_outside {m : β} {p q : Place ω θ} {e e' : Holdings ω θ β γ}
    (h : Move m p q e.place e'.place) (hp : ∀ r, p ≠ .live r) (hq : ∀ r, q ≠ .live r) :
    e'.live = e.live := by
  unfold Holdings.live
  congr 1
  funext r
  exact h.others _ (hp r).symm (hq r).symm

theorem live_of_attach {m : β} {p : Place ω θ} {q : LivePlace ω θ} {e e' : Holdings ω θ β γ}
    (h : Move m p (.live q) e.place e'.place) (hp : ∀ r, p ≠ .live r) :
    e'.live = m ::ₘ e.live :=
  Put.total ⟨h.put, fun r hr => h.others _ (hp r).symm (live_ne hr)⟩

theorem live_of_detach {m : β} {p : LivePlace ω θ} {q : Place ω θ} {e e' : Holdings ω θ β γ}
    (h : Move m (.live p) q e.place e'.place) (hq : ∀ r, q ≠ .live r) :
    e.live = m ::ₘ e'.live :=
  Put.total ⟨h.taken, fun r hr => (h.others _ (live_ne hr) (hq r).symm).symm⟩

theorem live_of_pass {m : β} {p q : LivePlace ω θ} {e e' : Holdings ω θ β γ}
    (h : Move m (.live p) (.live q) e.place e'.place) : e'.live = e.live := by
  have hmove : Move m p q (fun r => e.place (.live r)) (fun r => e'.place (.live r)) :=
    ⟨fun hpq => h.ne (by rw [hpq]), h.taken, h.put,
      fun r hp hq => h.others _ (live_ne hp) (live_ne hq)⟩
  exact hmove.total

/-- Step lemma. -/
theorem Conserves.step {blocks : Multiset β} {payloads : Multiset γ} {e e' : Holdings ω θ β γ}
    (h : Conserves blocks payloads e) (hs : Step e e') : Conserves blocks payloads e' := by
  have hmap (hdata : ∀ x ∈ e.live, e'.data x = e.data x) :
      e.live.map e'.data = e.live.map e.data := Multiset.map_congr rfl hdata
  cases hs with
  | take m w move pool data =>
    have hlive := live_of_outside move (by simp) (by simp)
    exact ⟨by rw [move.total, h.blocks], by rw [hlive, hmap data, pool, h.payloads]⟩
  | give m w move pool data =>
    have hlive := live_of_outside move (by simp) (by simp)
    exact ⟨by rw [move.total, h.blocks], by rw [hlive, hmap data, pool, h.payloads]⟩
  | attach m w move pool data =>
    have hlive := live_of_attach move (by simp)
    refine ⟨by rw [move.total, h.blocks], ?_⟩
    rw [hlive, Multiset.map_cons, hmap data, ← h.payloads, pool, Multiset.add_cons,
      Multiset.cons_add]
  | detach m w move pool data =>
    have hlive := live_of_detach move (by simp)
    refine ⟨by rw [move.total, h.blocks], ?_⟩
    have hsame : e'.live.map e'.data = e'.live.map e.data :=
      Multiset.map_congr rfl fun x hx => data x (by rw [hlive]; exact Multiset.mem_cons_of_mem hx)
    rw [hsame, pool, ← h.payloads, hlive, Multiset.map_cons, Multiset.add_cons,
      Multiset.cons_add]
  | pass m p q move pool data =>
    have hlive := live_of_pass move
    exact ⟨by rw [move.total, h.blocks], by rw [hlive, hmap data, pool, h.payloads]⟩
  | stay same pool data =>
    have hlive : e'.live = e.live := by simp [Holdings.live, same]
    exact ⟨by rw [same, h.blocks], by rw [hlive, hmap data, pool, h.payloads]⟩

def splitEquiv : Place ω θ ≃ Unit ⊕ ω ⊕ LivePlace ω θ where
  toFun
    | .free => .inl ()
    | .bare w => .inr (.inl w)
    | .live p => .inr (.inr p)
  invFun
    | .inl _ => .free
    | .inr (.inl w) => .bare w
    | .inr (.inr p) => .live p
  left_inv := by rintro (_ | _ | _) <;> rfl
  right_inv := by rintro (_ | _ | _) <;> rfl

omit [DecidableEq ω] [DecidableEq θ] in
theorem total_split (e : Holdings ω θ β γ) :
    total e.place = e.place .free + ((∑ w, e.place (.bare w)) + e.live) := by
  unfold total Holdings.live total
  rw [← Equiv.sum_comp splitEquiv.symm e.place, Fintype.sum_sum_type, Fintype.sum_sum_type,
    Fintype.sum_unique]
  rfl

omit [DecidableEq ω] [DecidableEq θ] in
/-- With as many payload blocks as message blocks, a message block without payload leaves
a free payload block behind. -/
theorem Conserves.payloads_left {blocks : Multiset β} {payloads : Multiset γ}
    {e : Holdings ω θ β γ} (h : Conserves blocks payloads e)
    (hsize : blocks.card = payloads.card) (w : ω) :
    (e.place .free).card + (e.place (.bare w)).card ≤ e.freeData.card := by
  have hbare : (e.place (.bare w)).card ≤ (∑ w, e.place (.bare w)).card :=
    Multiset.card_le_card (Finset.single_le_sum
      (fun _ _ => Multiset.zero_le (e.place (.bare _))) (Finset.mem_univ w))
  have hblocks := congrArg Multiset.card (total_split e)
  have hpayloads := congrArg Multiset.card h.payloads
  rw [h.blocks, Multiset.card_add, Multiset.card_add] at hblocks
  rw [Multiset.card_add, Multiset.card_map] at hpayloads
  omega

omit [DecidableEq ω] [DecidableEq θ] in
/-- A payload block is attached to one live block at most. -/
theorem Conserves.data_inj {blocks : Multiset β} {payloads : Multiset γ}
    {e : Holdings ω θ β γ} (h : Conserves blocks payloads e) (hnodup : payloads.Nodup) {m m' : β}
    (hm : m ∈ e.live) (hm' : m' ∈ e.live) (heq : e.data m = e.data m') : m = m' := by
  rw [← h.payloads, Multiset.nodup_add] at hnodup
  exact Multiset.inj_on_of_nodup_map hnodup.2.1 m hm m' hm' heq

omit [DecidableEq ω] [DecidableEq θ] in
theorem Conserves.data_notMem {blocks : Multiset β} {payloads : Multiset γ}
    {e : Holdings ω θ β γ} (h : Conserves blocks payloads e) (hnodup : payloads.Nodup) {m : β}
    (hm : m ∈ e.live) : e.data m ∉ e.freeData := by
  rw [← h.payloads, Multiset.nodup_add] at hnodup
  exact fun hfree => Multiset.disjoint_left.mp hnodup.2.2 hfree (Multiset.mem_map_of_mem _ hm)

omit [DecidableEq ω] [DecidableEq θ] in
theorem mem_live_iff {e : Holdings ω θ β γ} {m : β} : m ∈ e.live ↔
    (∃ q, m ∈ e.place (.live (.queue q))) ∨ ∃ w, m ∈ e.place (.live (.full w)) := by
  unfold Holdings.live
  rw [mem_total]
  constructor
  · intro h
    obtain ⟨q | w, hm⟩ := h
    · exact Or.inl ⟨q, hm⟩
    · exact Or.inr ⟨w, hm⟩
  · intro h
    rcases h with ⟨q, hm⟩ | ⟨w, hm⟩
    · exact ⟨.queue q, hm⟩
    · exact ⟨.full w, hm⟩

omit [DecidableEq ω] [DecidableEq θ] in
theorem Conserves.separate {blocks : Multiset β} {payloads : Multiset γ} {e : Holdings ω θ β γ}
    (h : Conserves blocks payloads e) (hnodup : blocks.Nodup) : Separate e.place := by
  unfold Separate
  rw [h.blocks]
  exact hnodup

omit [DecidableEq ω] [DecidableEq θ] in
theorem Conserves.mem_total_iff {blocks : Multiset β} {payloads : Multiset γ}
    {e : Holdings ω θ β γ} (h : Conserves blocks payloads e) (m : β) :
    m ∈ total e.place ↔ m ∈ blocks := by
  rw [h.blocks]

/-- A bare block is not live. -/
theorem notMem_live_of_bare {e : Holdings ω θ β γ} (h : Separate e.place) {m : β} {w : ω}
    (hm : m ∈ e.place (.bare w)) : m ∉ e.live := by
  intro hlive
  obtain ⟨p, hp⟩ := mem_total.mp hlive
  have heq : Place.bare w = Place.live p := h.unique hm hp
  cases heq

/-! The places of workers with one pool. Everything but the two places of a move is as
before. -/

section Places

variable {pool pool' : List β} {queue : θ → List β} {bare full : ω → Multiset β} {w : ω} {m : β}

def places (pool : List β) (queue : θ → List β) (bare full : ω → Multiset β) :
    Place ω θ → Multiset β
  | .free => pool
  | .bare w => bare w
  | .live (.queue q) => queue q
  | .live (.full w) => full w

variable (queue full) in
omit [Fintype ω] [Fintype θ] [DecidableEq θ] in
theorem move_take [DecidableEq β] (hm : m ∈ pool) (hbare : bare w = 0) :
    Move m .free (.bare w) (places pool queue bare full)
      (places (pool.erase m) queue (Function.update bare w {m}) full) where
  ne := by simp
  taken := Multiset.coe_eq_coe.mpr (List.perm_cons_erase hm)
  put := by simp [places, hbare]
  others := by
    rintro (_ | w' | _ | _) hp hq
    · exact absurd rfl hp
    · have hne : w' ≠ w := fun h => hq (by rw [h])
      simp [places, Function.update_of_ne hne]
    all_goals rfl

variable (pool queue full) in
omit [Fintype ω] [Fintype θ] [DecidableEq θ] in
theorem move_give (hbare : bare w = {m}) :
    Move m (.bare w) .free (places pool queue bare full)
      (places (m :: pool) queue (Function.update bare w 0) full) where
  ne := by simp
  taken := by simp [places, hbare]
  put := by simp [places]
  others := by
    rintro (_ | w' | _ | _) hp hq
    · exact absurd rfl hq
    · have hne : w' ≠ w := fun h => hp (by rw [h])
      simp [places, Function.update_of_ne hne]
    all_goals rfl

variable (pool queue full) in
omit [Fintype ω] [Fintype θ] [DecidableEq θ] in
theorem move_attach (hbare : bare w = {m}) :
    Move m (.bare w) (.live (.full w)) (places pool queue bare full)
      (places pool queue (Function.update bare w 0)
        (Function.update full w (m ::ₘ full w))) where
  ne := by simp
  taken := by simp [places, hbare]
  put := by simp [places]
  others := by
    rintro (_ | w' | _ | w') hp hq
    · rfl
    · have hne : w' ≠ w := fun h => hp (by rw [h])
      simp [places, Function.update_of_ne hne]
    · rfl
    · have hne : w' ≠ w := fun h => hq (by rw [h])
      simp [places, Function.update_of_ne hne]

variable (pool queue) in
omit [Fintype ω] [Fintype θ] [DecidableEq θ] in
theorem move_detach {rest : Multiset β} (hbare : bare w = 0) (hfull : full w = m ::ₘ rest) :
    Move m (.live (.full w)) (.bare w) (places pool queue bare full)
      (places pool queue (Function.update bare w {m}) (Function.update full w rest)) where
  ne := by simp
  taken := by simp [places, hfull]
  put := by simp [places, hbare]
  others := by
    rintro (_ | w' | _ | w') hp hq
    · rfl
    · have hne : w' ≠ w := fun h => hq (by rw [h])
      simp [places, Function.update_of_ne hne]
    · rfl
    · have hne : w' ≠ w := fun h => hp (by rw [h])
      simp [places, Function.update_of_ne hne]

variable (pool queue bare) in
omit [Fintype ω] [Fintype θ] in
theorem move_send (q : θ) {rest : Multiset β} (hfull : full w = m ::ₘ rest) :
    Move m (.live (.full w)) (.live (.queue q)) (places pool queue bare full)
      (places pool (Function.update queue q (queue q ++ [m])) bare
        (Function.update full w rest)) where
  ne := by simp
  taken := by simp [places, hfull]
  put := by
    simp only [places, Function.update_self]
    exact Multiset.coe_eq_coe.mpr (List.perm_append_singleton m (queue q))
  others := by
    rintro (_ | _ | q' | w') hp hq
    · rfl
    · rfl
    · have hne : q' ≠ q := fun h => hq (by rw [h])
      simp [places, Function.update_of_ne hne]
    · have hne : w' ≠ w := fun h => hp (by rw [h])
      simp [places, Function.update_of_ne hne]

variable (pool bare full w) in
omit [Fintype ω] [Fintype θ] in
theorem move_receive {q : θ} {rest : List β} (hqueue : queue q = m :: rest) :
    Move m (.live (.queue q)) (.live (.full w)) (places pool queue bare full)
      (places pool (Function.update queue q rest) bare
        (Function.update full w (m ::ₘ full w))) where
  ne := by simp
  taken := by simp [places, hqueue]
  put := by simp [places]
  others := by
    rintro (_ | _ | q' | w') hp hq
    · rfl
    · rfl
    · have hne : q' ≠ q := fun h => hp (by rw [h])
      simp [places, Function.update_of_ne hne]
    · have hne : w' ≠ w := fun h => hq (by rw [h])
      simp [places, Function.update_of_ne hne]

end Places

section Held

variable {blocks : Multiset β} {payloads : Multiset γ} {fine : Multiset β → Prop}
  {e : Holdings ω θ β γ} {pool : List β} {freeData : Multiset γ} {data : β → γ}
  {queue queue' : θ → List β} {bare bare' full full' : ω → Multiset β} {w : ω} {m : β}

/-- What a pool of blocks, the free payloads, queues and the workers' blocks amount to. -/
def held (pool : List β) (freeData : Multiset γ) (data : β → γ) (queue : θ → List β)
    (bare full : ω → Multiset β) : Holdings ω θ β γ where
  place := places pool queue bare full
  freeData := freeData
  data := data

/-- All blocks and payloads are there, and what is live is as it should be. -/
structure Sound (blocks : Multiset β) (payloads : Multiset γ) (fine : Multiset β → Prop)
    (e : Holdings ω θ β γ) : Prop where
  conserves : Conserves blocks payloads e
  fine : fine e.live

omit [DecidableEq ω] [DecidableEq θ] in
theorem mem_live_full (h : m ∈ full w) :
    m ∈ (held pool freeData data queue bare full : Holdings ω θ β γ).live :=
  mem_total.mpr ⟨.full w, h⟩

/-- A block without payload changes its place. -/
theorem Sound.moveBare {e' : Holdings ω θ β γ} {p q : Place ω θ}
    (h : Sound blocks payloads fine e) (hs : Step e e') (hmove : Move m p q e.place e'.place)
    (hp : ∀ r, p ≠ .live r) (hq : ∀ r, q ≠ .live r) :
    Step e e' ∧ Sound blocks payloads fine e' := by
  refine ⟨hs, h.conserves.step hs, ?_⟩
  rw [live_of_outside hmove hp hq]
  exact h.fine

/-- A message block that nobody uses yet leaves the pool. -/
theorem Sound.take [DecidableEq β]
    (h : Sound blocks payloads fine (held pool freeData data queue bare full)) (hm : m ∈ pool)
    (hbare : bare w = 0) :
    Step (held pool freeData data queue bare full)
        (held (pool.erase m) freeData data queue (Function.update bare w {m}) full) ∧
      Sound blocks payloads fine
        (held (pool.erase m) freeData data queue (Function.update bare w {m}) full) := by
  have hmove := move_take queue full hm hbare
  exact h.moveBare (.take m w hmove rfl fun _ _ => rfl) hmove (by simp) (by simp)

/-- A message block without payload goes back to the pool. -/
theorem Sound.give
    (h : Sound blocks payloads fine (held pool freeData data queue bare full))
    (hbare : bare w = {m}) :
    Step (held pool freeData data queue bare full)
        (held (m :: pool) freeData data queue (Function.update bare w 0) full) ∧
      Sound blocks payloads fine
        (held (m :: pool) freeData data queue (Function.update bare w 0) full) := by
  have hmove := move_give pool queue full hbare
  exact h.moveBare (.give m w hmove rfl fun _ _ => rfl) hmove (by simp) (by simp)

/-- A block that is passed on through a queue. -/
theorem Sound.pass {p q : LivePlace ω θ}
    (h : Sound blocks payloads fine (held pool freeData data queue bare full))
    (hmove : Move m (.live p) (.live q) (places pool queue bare full)
      (places pool queue' bare full')) :
    Step (held pool freeData data queue bare full) (held pool freeData data queue' bare full') ∧
      Sound blocks payloads fine (held pool freeData data queue' bare full') := by
  have hs : Step (held pool freeData data queue bare full)
      (held pool freeData data queue' bare full') := .pass m p q hmove rfl fun _ _ => rfl
  refine ⟨hs, h.conserves.step hs, ?_⟩
  rw [live_of_pass (e := held pool freeData data queue bare full) hmove]
  exact h.fine

/-- A block with its payload goes into a queue. -/
theorem Sound.send {rest : Multiset β}
    (h : Sound blocks payloads fine (held pool freeData data queue bare full)) (q : θ)
    (hfull : full w = m ::ₘ rest) :
    Step (held pool freeData data queue bare full)
        (held pool freeData data (Function.update queue q (queue q ++ [m])) bare
          (Function.update full w rest)) ∧
      Sound blocks payloads fine
        (held pool freeData data (Function.update queue q (queue q ++ [m])) bare
          (Function.update full w rest)) :=
  h.pass (move_send pool queue bare q hfull)

/-- A worker takes the oldest block of a queue. -/
theorem Sound.receive {rest : List β}
    (h : Sound blocks payloads fine (held pool freeData data queue bare full)) (w : ω) (q : θ)
    (hqueue : queue q = m :: rest) :
    Step (held pool freeData data queue bare full)
        (held pool freeData data (Function.update queue q rest) bare
          (Function.update full w (m ::ₘ full w))) ∧
      Sound blocks payloads fine
        (held pool freeData data (Function.update queue q rest) bare
          (Function.update full w (m ::ₘ full w))) :=
  h.pass (move_receive pool bare full w hqueue)

/-- The content of blocks is changed, but live blocks keep their payload. -/
theorem Sound.write (data' : β → γ) (fine' : Multiset β → Prop)
    (h : Sound blocks payloads fine (held pool freeData data queue bare full))
    (hdata : ∀ m ∈ (held pool freeData data queue bare full).live, data' m = data m)
    (hfine : fine' (held pool freeData data queue bare full).live) :
    Step (held pool freeData data queue bare full) (held pool freeData data' queue bare full) ∧
      Sound blocks payloads fine' (held pool freeData data' queue bare full) := by
  have hs : Step (held pool freeData data queue bare full)
      (held pool freeData data' queue bare full) := .stay rfl rfl hdata
  exact ⟨hs, h.conserves.step hs, hfine⟩

/-- What a step of the worker `w` does: it is a step of the exchange, and the live blocks of
the others keep what they hold. -/
structure Kept {κ : Type} (blocks : Multiset β) (payloads : Multiset γ)
    (fine : Multiset β → Prop) (w : ω) (e e' : Holdings ω θ β γ) (content content' : β → κ) :
    Prop where
  step : Step e e'
  sound : Sound blocks payloads fine e'
  frame : ∀ m ∈ e.live, m ∉ e.place (.live (.full w)) → content' m = content m

omit [DecidableEq ω] [DecidableEq θ] in
theorem Sound.stays {κ : Type} {content : β → κ} (h : Sound blocks payloads fine e) :
    Kept blocks payloads fine w e e content content :=
  ⟨.stay rfl rfl fun _ _ => rfl, h, fun _ _ _ => rfl⟩

omit [DecidableEq ω] [DecidableEq θ] in
theorem Kept.of_held {κ : Type} {content content' : β → κ}
    (h : Step e (held pool freeData data queue bare full) ∧
      Sound blocks payloads fine (held pool freeData data queue bare full))
    (hqueue : queue' = queue) (hbare : bare' = bare) (hfull : full' = full)
    (hframe : ∀ m ∈ e.live, m ∉ e.place (.live (.full w)) → content' m = content m) :
    Kept blocks payloads fine w e (held pool freeData data queue' bare' full') content
      content' := by
  subst hqueue hbare hfull
  exact ⟨h.1, h.2, hframe⟩

omit [DecidableEq ω] [DecidableEq θ] in
theorem Sound.separate (h : Sound blocks payloads fine e) (hnodup : blocks.Nodup) :
    Separate e.place :=
  h.conserves.separate hnodup

/-- What is live elsewhere keeps what it holds. -/
theorem Kept.elsewhere {κ : Type} {content content' : β → κ} {e' : Holdings ω θ β γ}
    (hk : Kept blocks payloads fine w e e' content content') (hseparate : Separate e.place)
    {p : LivePlace ω θ} (hm : m ∈ e.place (.live p)) (hw : p ≠ .full w) :
    content' m = content m := by
  refine hk.frame m (mem_total.mpr ⟨p, hm⟩) fun hfull => hw ?_
  simpa using hseparate.unique hm hfull

omit [DecidableEq ω] [DecidableEq θ] in
/-- At the start all blocks are in the pool. -/
theorem Sound.initial (hqueue : ∀ q, queue q = []) (hbare : ∀ w, bare w = 0)
    (hfull : ∀ w, full w = 0) (hfine : fine 0) :
    Sound pool freeData fine (held pool freeData data queue bare full) := by
  have hlive : (held pool freeData data queue bare full).live = 0 := by
    refine Finset.sum_eq_zero fun p _ => ?_
    cases p with
    | queue q => simp [held, places, hqueue]
    | full w => exact hfull w
  have hnone : ∑ w, (held pool freeData data queue bare full).place (.bare w) = 0 :=
    Finset.sum_eq_zero fun w _ => hbare w
  refine ⟨⟨?_, ?_⟩, by rwa [hlive]⟩
  · rw [total_split, hnone, hlive, add_zero, add_zero]
    rfl
  · rw [hlive, Multiset.map_zero, add_zero]
    rfl

end Held

omit [DecidableEq ω] [DecidableEq θ] in
/-- A payload block is free, or attached to exactly one live block. -/
theorem Conserves.payload_cases [DecidableEq γ] {blocks : Multiset β} {payloads : Multiset γ}
    {e : Holdings ω θ β γ} (h : Conserves blocks payloads e) (hnodup : payloads.Nodup) {d : γ}
    (hd : d ∈ payloads) :
    (d ∈ e.freeData ∧ ∀ m ∈ e.live, e.data m ≠ d) ∨
      (d ∉ e.freeData ∧ ∃! m, m ∈ e.live ∧ e.data m = d) := by
  rw [← h.payloads, Multiset.mem_add] at hd
  rcases hd with hfree | hattached
  · refine Or.inl ⟨hfree, ?_⟩
    rintro m hm rfl
    exact h.data_notMem hnodup hm hfree
  · obtain ⟨m, hm, rfl⟩ := Multiset.mem_map.mp hattached
    refine Or.inr ⟨h.data_notMem hnodup hm, m, ⟨hm, rfl⟩, ?_⟩
    rintro m' ⟨hm', heq⟩
    exact h.data_inj hnodup hm' hm heq

/-! A subsystem: three workers and two queues. -/

inductive Worker
  | rx
  | comm
  | tx
deriving DecidableEq, Repr

instance : Fintype Worker :=
  Fintype.ofList [.rx, .comm, .tx] fun w => by cases w <;> simp

inductive Queue
  | incoming
  | outgoing
deriving DecidableEq, Repr

instance : Fintype Queue := Fintype.ofList [.incoming, .outgoing] fun q => by cases q <;> simp

def byWorker {α : Type} (rx comm tx : α) : Worker → α
  | .rx => rx
  | .comm => comm
  | .tx => tx

def byQueue {α : Type} (incoming outgoing : α) : Queue → α
  | .incoming => incoming
  | .outgoing => outgoing

section Tables

variable {α : Type} (rx comm tx incoming outgoing x : α)

@[simp] theorem update_rx :
    Function.update (byWorker rx comm tx) .rx x = byWorker x comm tx := by
  funext w
  cases w <;> rfl

@[simp] theorem update_comm :
    Function.update (byWorker rx comm tx) .comm x = byWorker rx x tx := by
  funext w
  cases w <;> rfl

@[simp] theorem update_tx :
    Function.update (byWorker rx comm tx) .tx x = byWorker rx comm x := by
  funext w
  cases w <;> rfl

@[simp] theorem update_incoming :
    Function.update (byQueue incoming outgoing) .incoming x = byQueue x outgoing := by
  funext q
  cases q <;> rfl

@[simp] theorem update_outgoing :
    Function.update (byQueue incoming outgoing) .outgoing x = byQueue incoming x := by
  funext q
  cases q <;> rfl

end Tables

inductive MsgPlace
  | pool
  | incoming
  | outgoing
  | heldBy (w : Worker)
deriving DecidableEq, Repr

def outside : Place Worker Queue → MsgPlace
  | .free => .pool
  | .bare w => .heldBy w
  | .live (.queue .incoming) => .incoming
  | .live (.queue .outgoing) => .outgoing
  | .live (.full w) => .heldBy w

section Seen

variable {e : Holdings Worker Queue β γ} {k : ℕ}

def messagesAt (e : Holdings Worker Queue β γ) : MsgPlace → Multiset β
  | .pool => e.place .free
  | .incoming => e.place (.live (.queue .incoming))
  | .outgoing => e.place (.live (.queue .outgoing))
  | .heldBy w => e.place (.bare w) + e.place (.live (.full w))

/-- The block is queued, or held by a worker that has attached its payload. -/
def Live (e : Holdings Worker Queue β γ) (m : β) : Prop :=
  m ∈ e.place (.live (.queue .incoming)) ∨ m ∈ e.place (.live (.queue .outgoing)) ∨
    ∃ w, m ∈ e.place (.live (.full w))

theorem live_iff (e : Holdings Worker Queue β γ) (m : β) : m ∈ e.live ↔ Live e m := by
  rw [mem_live_iff]
  constructor
  · intro h
    rcases h with ⟨_ | _, hm⟩ | ⟨w, hm⟩
    · exact Or.inl hm
    · exact Or.inr (Or.inl hm)
    · exact Or.inr (Or.inr ⟨w, hm⟩)
  · intro h
    rcases h with hm | hm | ⟨w, hm⟩
    · exact Or.inl ⟨.incoming, hm⟩
    · exact Or.inl ⟨.outgoing, hm⟩
    · exact Or.inr ⟨w, hm⟩

theorem mem_messagesAt_iff (e : Holdings Worker Queue β γ) (p : MsgPlace) (m : β) :
    m ∈ messagesAt e p ↔ ∃ q, outside q = p ∧ m ∈ e.place q := by
  constructor
  · intro h
    cases p with
    | pool => exact ⟨.free, rfl, h⟩
    | incoming => exact ⟨.live (.queue .incoming), rfl, h⟩
    | outgoing => exact ⟨.live (.queue .outgoing), rfl, h⟩
    | heldBy w =>
      rcases Multiset.mem_add.mp h with h | h
      · exact ⟨.bare w, rfl, h⟩
      · exact ⟨.live (.full w), rfl, h⟩
  · rintro ⟨_ | w | (_ | _) | w, rfl, h⟩
    · exact h
    · exact Multiset.mem_add.mpr (Or.inl h)
    · exact h
    · exact h
    · exact Multiset.mem_add.mpr (Or.inr h)

theorem messagesAt_nodup (h : Separate e.place) (p : MsgPlace) : (messagesAt e p).Nodup := by
  cases p with
  | pool => exact h.nodup .free
  | incoming => exact h.nodup (.live (.queue .incoming))
  | outgoing => exact h.nodup (.live (.queue .outgoing))
  | heldBy w => exact h.nodup_add (p := .bare w) (q := .live (.full w)) (by simp)

variable {payloads : Multiset γ} {e : Holdings Worker Queue ℕ γ}

theorem Conserves.onePlace (h : Conserves (Multiset.range k) payloads e) {msg : ℕ}
    (hlt : msg < k) : ∃! p, msg ∈ messagesAt e p := by
  have hmem : msg ∈ total e.place := (h.mem_total_iff msg).mpr (Multiset.mem_range.mpr hlt)
  simpa only [mem_messagesAt_iff] using
    (h.separate (Multiset.nodup_range k)).existsUnique_seen outside hmem

theorem Conserves.noOther (h : Conserves (Multiset.range k) payloads e) {p : MsgPlace} {msg : ℕ}
    (hp : msg ∈ messagesAt e p) : msg < k := by
  obtain ⟨q, -, hq⟩ := (mem_messagesAt_iff e p msg).mp hp
  exact Multiset.mem_range.mp ((h.mem_total_iff msg).mp (mem_total.mpr ⟨q, hq⟩))

end Seen

end Ratfist.Exchange
