import Mathlib.Tactic.Common
import Mathlib.Data.List.Induction

/-!
Runs of a deterministic step function under a list of labels; the labels carry every
choice that is made from outside. What one step preserves, a run preserves.
-/
namespace Ratfist.Runs

variable {ι σ : Type*}

/-- The state after the labels, if every step is enabled. -/
def runs (step : ι → σ → Option σ) : List ι → σ → Option σ
  | [], s => some s
  | l :: ls, s => (step l s).bind (runs step ls)

variable {step : ι → σ → Option σ}

theorem runs_cons {l : ι} {ls : List ι} {s t : σ} (h : runs step (l :: ls) s = some t) :
    ∃ m, step l s = some m ∧ runs step ls m = some t :=
  Option.bind_eq_some_iff.mp h

/-- Run lemma for an invariant. -/
theorem runs_invariant (inv : σ → Prop)
    (hstep : ∀ l s t, inv s → step l s = some t → inv t) {ls : List ι} {s t : σ}
    (hs : inv s) (h : runs step ls s = some t) : inv t := by
  induction ls generalizing s with
  | nil =>
    cases h
    exact hs
  | cons l ls ih =>
    obtain ⟨m, hm, hrest⟩ := runs_cons h
    exact ih (hstep l s m hs hm) hrest

/-- Run lemma for steps that the invariant enables. -/
theorem runs_total {inv : σ → Prop} (hstep : ∀ l s, inv s → ∃ t, step l s = some t ∧ inv t)
    (ls : List ι) {s : σ} (hs : inv s) : ∃ t, runs step ls s = some t ∧ inv t := by
  induction ls generalizing s with
  | nil => exact ⟨s, rfl, hs⟩
  | cons l ls ih =>
    obtain ⟨m, hm, hinv⟩ := hstep l s hs
    obtain ⟨t, ht, htinv⟩ := ih hinv
    exact ⟨t, by rw [runs, hm, Option.bind_some, ht], htinv⟩

/-- Run lemma for a measure that each step lowers until it is zero. -/
theorem runs_measure (measure : σ → ℕ)
    (hstep : ∀ l s t, step l s = some t → measure t ≤ measure s - 1) {ls : List ι} {s t : σ}
    (h : runs step ls s = some t) : measure t ≤ measure s - ls.length := by
  induction ls generalizing s with
  | nil =>
    cases h
    exact Nat.le_refl _
  | cons l ls ih =>
    obtain ⟨m, hm, hrest⟩ := runs_cons h
    have hone := hstep l s m hm
    have hmore := ih hrest
    rw [List.length_cons]
    omega

/-- Run lemma for a counter of the steps. -/
theorem runs_count (count : σ → ℕ) (hstep : ∀ l s t, step l s = some t → count t = count s + 1)
    {ls : List ι} {s t : σ} (h : runs step ls s = some t) : count t = count s + ls.length := by
  induction ls generalizing s with
  | nil =>
    cases h
    rfl
  | cons l ls ih =>
    obtain ⟨m, hm, hrest⟩ := runs_cons h
    rw [ih hrest, hstep l s m hm, List.length_cons]
    omega

/-- Run lemma for a measure that every step lowers: no run is longer than it. -/
theorem runs_length_le (inv : σ → Prop) (measure : σ → ℕ)
    (hstep : ∀ l s t, inv s → step l s = some t → inv t ∧ measure t < measure s) {ls : List ι}
    {s t : σ} (hs : inv s) (h : runs step ls s = some t) : ls.length ≤ measure s := by
  induction ls generalizing s with
  | nil => exact Nat.zero_le _
  | cons l ls ih =>
    obtain ⟨m, hm, hrest⟩ := runs_cons h
    obtain ⟨hinv, hless⟩ := hstep l s m hs hm
    have hlater := ih hinv hrest
    rw [List.length_cons]
    omega

/-- Run lemma for an invariant under which there is always a step to take. -/
theorem runs_forever (inv : σ → Prop) (hstep : ∀ s, inv s → ∃ l t, step l s = some t ∧ inv t)
    (len : ℕ) {s : σ} (hs : inv s) : ∃ ls t, ls.length = len ∧ runs step ls s = some t := by
  induction len generalizing s with
  | zero => exact ⟨[], s, rfl, rfl⟩
  | succ len ih =>
    obtain ⟨l, m, hm, hinv⟩ := hstep s hs
    obtain ⟨ls, t, hlen, hls⟩ := ih hinv
    exact ⟨l :: ls, t, by rw [List.length_cons, hlen], by rw [runs, hm, Option.bind_some, hls]⟩

/-- Run lemma for a measure that every step lowers until the end is reached, which stays. -/
theorem runs_ends (inv ended : σ → Prop) (measure : σ → ℕ) {ls : List ι}
    (hzero : ∀ s, inv s → measure s = 0 → ended s)
    (hstep : ∀ l ∈ ls, ∀ s, inv s →
      ∃ t, step l s = some t ∧ inv t ∧ (ended s → ended t) ∧ (ended s ∨ measure t < measure s))
    {s : σ} (hs : inv s) (hlong : ended s ∨ measure s ≤ ls.length) :
    ∃ t, runs step ls s = some t ∧ inv t ∧ ended t := by
  induction ls generalizing s with
  | nil => exact ⟨s, rfl, hs, hlong.elim id fun hle => hzero s hs (Nat.le_zero.mp hle)⟩
  | cons l ls ih =>
    obtain ⟨m, hm, hinv, hstays, hless⟩ := hstep l List.mem_cons_self s hs
    have hlater : ended m ∨ measure m ≤ ls.length := by
      rw [List.length_cons] at hlong
      rcases hless with hended | hless
      · exact Or.inl (hstays hended)
      · rcases hlong with hended | hle
        · exact Or.inl (hstays hended)
        · exact Or.inr (by omega)
    obtain ⟨t, ht, htinv, htended⟩ :=
      ih (fun l' hl' => hstep l' (List.mem_cons_of_mem l hl')) hinv hlater
    exact ⟨t, by rw [runs, hm, Option.bind_some, ht], htinv, htended⟩

/-- How many steps of a run change what `view` shows. -/
def changes {β : Type*} [DecidableEq β] (step : ι → σ → Option σ) (view : σ → β) :
    List ι → σ → ℕ
  | [], _ => 0
  | l :: ls, s =>
    (step l s).elim 0 fun t => (if view t = view s then 0 else 1) + changes step view ls t

/-- Run lemma for a measure of the view that every change lowers. -/
theorem changes_le {β : Type*} [DecidableEq β] {view : σ → β} (inv : σ → Prop)
    (measure : β → ℕ)
    (hstep : ∀ l s t, inv s → step l s = some t →
      inv t ∧ (view t = view s ∨ measure (view t) < measure (view s)))
    (ls : List ι) {s : σ} (hs : inv s) : changes step view ls s ≤ measure (view s) := by
  induction ls generalizing s with
  | nil => exact Nat.zero_le _
  | cons l ls ih =>
    rw [changes]
    cases h : step l s with
    | none => exact Nat.zero_le _
    | some t =>
      obtain ⟨ht, hview⟩ := hstep l s t hs h
      have hlater := ih ht
      rw [Option.elim_some]
      split_ifs with hsame
      · rw [hsame] at hlater
        omega
      · have := hview.resolve_left hsame
        omega

theorem runs_append (ls ls' : List ι) (s : σ) :
    runs step (ls ++ ls') s = (runs step ls s).bind (runs step ls') := by
  induction ls generalizing s with
  | nil => rfl
  | cons l ls ih =>
    simp only [List.cons_append, runs]
    cases step l s with
    | none => rfl
    | some m => exact ih m

theorem runs_snoc {l : ι} {ls : List ι} {s t : σ} (h : runs step (ls ++ [l]) s = some t) :
    ∃ m, runs step ls s = some m ∧ step l m = some t := by
  rw [runs_append] at h
  obtain ⟨m, hm, hlast⟩ := Option.bind_eq_some_iff.mp h
  obtain ⟨t', ht', hnil⟩ := runs_cons hlast
  cases hnil
  exact ⟨m, hm, ht'⟩

/-- Run lemma for an invariant that speaks about the labels so far. -/
theorem runs_history (inv : List ι → σ → Prop) {s : σ} (hs : inv [] s)
    (hstep : ∀ ls l m t, runs step ls s = some m → inv ls m → step l m = some t →
      inv (ls ++ [l]) t) {ls : List ι} {t : σ} (h : runs step ls s = some t) : inv ls t := by
  induction ls using List.reverseRecOn generalizing t with
  | nil =>
    cases h
    exact hs
  | append_singleton ls l ih =>
    obtain ⟨m, hm, hlast⟩ := runs_snoc h
    exact hstep ls l m t hm (ih hm) hlast

/-- Run lemma for operations that act on one part of the state each: every part gets what the
operations on it do. -/
theorem foldl_part {κ ω τ : Type*} [DecidableEq κ] {apply : ω → κ → σ → σ} {part : σ → κ → τ}
    {onPart : ω → τ → τ}
    (hstep : ∀ op k s l, part (apply op k s) l =
      if l = k then onPart op (part s l) else part s l)
    (ops : List (κ × ω)) (s : σ) (l : κ) :
    part (ops.foldl (fun s op => apply op.2 op.1 s) s) l =
      ((ops.filter fun op => op.1 = l).map Prod.snd).foldl (fun t op => onPart op t)
        (part s l) := by
  induction ops generalizing s with
  | nil => rfl
  | cons op ops ih =>
    obtain ⟨k, op⟩ := op
    rw [List.foldl_cons, ih, hstep]
    by_cases hsame : l = k
    · simp [hsame]
    · simp [hsame, Ne.symm hsame]

/-- Some label came at a point where `hit` held, and all labels after it satisfy `keep`. -/
def Since (hit : List ι → ι → Prop) (keep : ι → Prop) (ls : List ι) : Prop :=
  ∃ before l after, ls = before ++ l :: after ∧ hit before l ∧ ∀ l' ∈ after, keep l'

theorem since_snoc {hit : List ι → ι → Prop} {keep : ι → Prop} (ls : List ι) (l : ι) :
    Since hit keep (ls ++ [l]) ↔ hit ls l ∨ keep l ∧ Since hit keep ls := by
  constructor
  · rintro ⟨before, m, after, heq, hm, hkeep⟩
    rcases List.eq_nil_or_concat after with rfl | ⟨after, k, rfl⟩
    · obtain ⟨rfl, hlast⟩ := List.append_inj' heq rfl
      cases hlast
      exact Or.inl hm
    · rw [List.concat_eq_append, ← List.cons_append, ← List.append_assoc] at heq
      obtain ⟨rfl, hlast⟩ := List.append_inj' heq rfl
      cases hlast
      refine Or.inr ⟨hkeep l (by simp), before, m, after, rfl, hm, ?_⟩
      exact fun l' hl' => hkeep l' (by simp [hl'])
  · rintro (hl | ⟨hl, before, m, after, rfl, hm, hkeep⟩)
    · exact ⟨ls, l, [], rfl, hl, by simp⟩
    · refine ⟨before, m, after ++ [l], by simp, hm, ?_⟩
      intro l' hl'
      rcases List.mem_append.mp hl' with hafter | hlast
      · exact hkeep l' hafter
      · rw [List.mem_singleton.mp hlast]
        exact hl

/-- Some run leads from `s` to `t`. -/
def Reaches (step : ι → σ → Option σ) (s t : σ) : Prop := ∃ ls, runs step ls s = some t

theorem Reaches.refl (s : σ) : Reaches step s s := ⟨[], rfl⟩

theorem Reaches.single {l : ι} {s t : σ} (h : step l s = some t) : Reaches step s t :=
  ⟨[l], by rw [runs, h]; rfl⟩

theorem Reaches.trans {s t u : σ} (hst : Reaches step s t) (htu : Reaches step t u) :
    Reaches step s u := by
  obtain ⟨ls, hls⟩ := hst
  obtain ⟨ls', hls'⟩ := htu
  exact ⟨ls ++ ls', by rw [runs_append, hls, Option.bind_some, hls']⟩

/-- A goal is reached where every step towards it lowers a measure. -/
theorem reaches_of_measure (inv goal : σ → Prop) (measure : σ → ℕ)
    (hstep : ∀ s, inv s → ∃ l t, step l s = some t ∧ (goal t ∨ inv t ∧ measure t < measure s))
    {s : σ} (hs : inv s) : ∃ t, Reaches step s t ∧ goal t := by
  induction hm : measure s using Nat.strongRecOn generalizing s with
  | ind m ih =>
    obtain ⟨l, t, ht, hgoal | ⟨hinv, hless⟩⟩ := hstep s hs
    · exact ⟨t, .single ht, hgoal⟩
    · obtain ⟨u, htu, hu⟩ := ih (measure t) (hm ▸ hless) hinv rfl
      exact ⟨u, (Reaches.single ht).trans htu, hu⟩

end Ratfist.Runs
