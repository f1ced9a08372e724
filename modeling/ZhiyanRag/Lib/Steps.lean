import Mathlib.Logic.Relation

/-!
# Runs of a step function, and pools of threads

A step function `step : σ → ι → Option σ` executes a labelled step, or refuses it (`none`).

* `run step s labels` executes a list of labels; `run_invariant` is its induction rule, for a
  predicate that every step preserves.
* `GuardedRun step C s labels s'` is a run each of whose steps meets `C` in the state before it;
  `GuardedRun.invariant` is its induction rule.
* `Pool` is a shared world with a growing list of threads. `Outline` packs the proof obligations of
  an Owicki–Gries argument (a world invariant, a local assertion for each thread, a relation between
  any two threads), and `Outline.holds_of_run` concludes that they hold in every state of a run.
-/

namespace Steps

universe u v w

section Runs

variable {σ : Type u} {ι : Type v} (step : σ → ι → Option σ)

/-- The state after the labels, if every one of them is enabled in its turn. -/
def run : σ → List ι → Option σ
  | s, [] => some s
  | s, l :: ls => (step s l).bind fun s' => run s' ls

@[simp] theorem run_nil (s : σ) : run step s [] = some s := rfl

theorem run_cons (s : σ) (l : ι) (ls : List ι) :
    run step s (l :: ls) = (step s l).bind fun s' => run step s' ls := rfl

theorem run_cons_some {s s' : σ} {l : ι} {ls : List ι} (h : run step s (l :: ls) = some s') :
    ∃ t, step s l = some t ∧ run step t ls = some s' :=
  Option.bind_eq_some_iff.mp h

/-- A run is its first part followed by the rest. -/
theorem run_append (s : σ) (ls ls' : List ι) :
    run step s (ls ++ ls') = (run step s ls).bind fun t => run step t ls' := by
  induction ls generalizing s with
  | nil => rfl
  | cons l ls ih =>
    rw [List.cons_append, run_cons, run_cons, Option.bind_assoc]
    exact congrArg _ (funext fun t => ih t)

/-- A predicate that every step preserves holds after the run if it held before. -/
theorem run_invariant {I : σ → Prop} (hstep : ∀ s l s', I s → step s l = some s' → I s')
    {s s' : σ} {ls : List ι} (hs : I s) (h : run step s ls = some s') : I s' := by
  induction ls generalizing s with
  | nil =>
    cases h
    exact hs
  | cons l ls ih =>
    obtain ⟨t, ht, hrest⟩ := run_cons_some step h
    exact ih (hstep s l t hs ht) hrest

/-- A run each of whose steps meets `C` in the state before it. -/
inductive GuardedRun (C : σ → ι → Prop) : σ → List ι → σ → Prop
  | nil (s : σ) : GuardedRun C s [] s
  | cons {s t s' : σ} {l : ι} {ls : List ι} : C s l → step s l = some t → GuardedRun C t ls s' →
      GuardedRun C s (l :: ls) s'

variable {step} {C : σ → ι → Prop}

theorem GuardedRun.run_eq {s s' : σ} {ls : List ι} (h : GuardedRun step C s ls s') :
    run step s ls = some s' := by
  induction h with
  | nil s => rfl
  | cons _ hstep _ ih => rw [run_cons, hstep, Option.bind_some, ih]

/-- Every run meets a guard that always holds. -/
theorem GuardedRun.of_run {s s' : σ} {ls : List ι} (hC : ∀ s l, C s l)
    (h : run step s ls = some s') : GuardedRun step C s ls s' := by
  induction ls generalizing s with
  | nil =>
    cases h
    exact .nil _
  | cons l ls ih =>
    obtain ⟨t, ht, hrest⟩ := run_cons_some step h
    exact .cons (hC s l) ht (ih hrest)

theorem GuardedRun.invariant {I : σ → Prop}
    (hstep : ∀ s l s', I s → C s l → step s l = some s' → I s')
    {s s' : σ} {ls : List ι} (h : GuardedRun step C s ls s') (hs : I s) : I s' := by
  induction h with
  | nil s => exact hs
  | cons hguard hst _ ih => exact ih (hstep _ _ _ hs hguard hst)

/-- Runs the labels as long as each meets `C`: a computable source of guarded runs. -/
def guardedRun? (step : σ → ι → Option σ) (C : σ → ι → Prop) [∀ s l, Decidable (C s l)] :
    σ → List ι → Option σ
  | s, [] => some s
  | s, l :: ls => if C s l then (step s l).bind fun t => guardedRun? step C t ls else none

theorem GuardedRun.of_eval [∀ s l, Decidable (C s l)] {s s' : σ} {ls : List ι}
    (h : guardedRun? step C s ls = some s') : GuardedRun step C s ls s' := by
  induction ls generalizing s with
  | nil =>
    cases h
    exact .nil _
  | cons l ls ih =>
    unfold guardedRun? at h
    split at h
    · rename_i hC
      obtain ⟨t, ht, hrest⟩ := Option.bind_eq_some_iff.mp h
      exact .cons hC ht (ih hrest)
    · cases h

end Runs

/-! ### Pools of threads over one world -/

/-- A shared world and the threads that run over it, finished ones included. -/
structure Pool (ω : Type u) (τ : Type v) where
  world : ω
  threads : List τ

/-- A thread starts, or thread `index` takes its next step with outcome `choice`. -/
inductive PoolLabel (τ : Type v) (χ : Type w)
  | spawn (thread : τ)
  | act (index : Nat) (choice : χ)

section Pools

variable {ω : Type u} {τ : Type v} {χ : Type w}

/-- One step of a pool: `canStart` says which threads may start, `tstep` is one step of a thread. -/
def Pool.step (canStart : Pool ω τ → τ → Bool) (tstep : ω → τ → χ → Option (ω × τ))
    (p : Pool ω τ) : PoolLabel τ χ → Option (Pool ω τ)
  | .spawn t => if canStart p t then some ⟨p.world, p.threads ++ [t]⟩ else none
  | .act i c => (p.threads[i]?).bind fun t =>
      (tstep p.world t c).map fun r => ⟨r.1, p.threads.set i r.2⟩

variable {canStart : Pool ω τ → τ → Bool} {tstep : ω → τ → χ → Option (ω × τ)}

theorem Pool.step_spawn {p p' : Pool ω τ} {t : τ}
    (h : p.step canStart tstep (.spawn t) = some p') :
    canStart p t = true ∧ p' = ⟨p.world, p.threads ++ [t]⟩ := by
  simp only [Pool.step] at h
  split at h
  · rename_i hs
    exact ⟨hs, (Option.some.inj h).symm⟩
  · cases h

theorem Pool.step_act {p p' : Pool ω τ} {i : Nat} {c : χ}
    (h : p.step canStart tstep (.act i c) = some p') :
    ∃ t w' t', p.threads[i]? = some t ∧ tstep p.world t c = some (w', t') ∧
      p' = ⟨w', p.threads.set i t'⟩ := by
  obtain ⟨t, ht, h⟩ := Option.bind_eq_some_iff.mp h
  obtain ⟨⟨w', t'⟩, hstep, rfl⟩ := Option.map_eq_some_iff.mp h
  exact ⟨t, w', t', ht, hstep, rfl⟩

/-- The assertions of an Owicki–Gries argument over a pool. -/
structure Assertions (ω : Type u) (τ : Type v) where
  world : ω → Prop
  thread : ω → τ → Prop
  pair : ω → τ → τ → Prop

/-- The world invariant, every local assertion and the relation between any two threads hold. -/
structure Assertions.Holds (A : Assertions ω τ) (p : Pool ω τ) : Prop where
  world : A.world p.world
  thread : ∀ (i : Nat) (t : τ), p.threads[i]? = some t → A.thread p.world t
  pair : ∀ (i j : Nat) (t u : τ), i ≠ j → p.threads[i]? = some t → p.threads[j]? = some u →
    A.pair p.world t u

/-- The obligations: starting threads meet their assertions, a thread's step establishes its own
assertions (`own`), keeps those of every other thread (`other`) and the relation between any two
other threads (`rest`). -/
structure Outline (canStart : Pool ω τ → τ → Bool) (tstep : ω → τ → χ → Option (ω × τ))
    (C : Pool ω τ → PoolLabel τ χ → Prop) (A : Assertions ω τ) : Prop where
  spawn : ∀ p t, A.Holds p → C p (.spawn t) → canStart p t = true →
    A.thread p.world t ∧ ∀ (j : Nat) (u : τ), p.threads[j]? = some u → A.pair p.world t u ∧
    A.pair p.world u t
  own : ∀ p i c t w' t', A.Holds p → C p (.act i c) → p.threads[i]? = some t →
    tstep p.world t c = some (w', t') → A.world w' ∧ A.thread w' t'
  other : ∀ p i c t w' t' (j : Nat) u, A.Holds p → C p (.act i c) → p.threads[i]? = some t →
    tstep p.world t c = some (w', t') → i ≠ j → p.threads[j]? = some u →
    A.thread w' u ∧ A.pair w' t' u ∧ A.pair w' u t'
  rest : ∀ p i c t w' t' (j k : Nat) u v, A.Holds p → C p (.act i c) → p.threads[i]? = some t →
    tstep p.world t c = some (w', t') → i ≠ j → i ≠ k → j ≠ k → p.threads[j]? = some u →
    p.threads[k]? = some v → A.pair w' u v

variable {C : Pool ω τ → PoolLabel τ χ → Prop} {A : Assertions ω τ}

theorem Outline.holds_spawn (O : Outline canStart tstep C A) {p : Pool ω τ} {t : τ}
    (hp : A.Holds p) (hC : C p (.spawn t)) (hs : canStart p t = true) :
    A.Holds ⟨p.world, p.threads ++ [t]⟩ := by
  obtain ⟨hthread, hpair⟩ := O.spawn p t hp hC hs
  -- the new thread sits at index `p.threads.length`
  have hget : ∀ (i : Nat) (u : τ), (p.threads ++ [t])[i]? = some u →
      p.threads[i]? = some u ∨ (i = p.threads.length ∧ u = t) := by
    intro i u hu
    rcases Nat.lt_trichotomy i p.threads.length with hlt | heq | hgt
    · rw [List.getElem?_append_left hlt] at hu
      exact .inl hu
    · subst heq
      simp at hu
      exact .inr ⟨rfl, hu.symm⟩
    · rw [List.getElem?_eq_none (by simp; omega)] at hu
      cases hu
  refine ⟨hp.world, fun i u hu => ?_, fun i j u v hij hu hv => ?_⟩
  · rcases hget i u hu with h | ⟨-, rfl⟩
    · exact hp.thread i u h
    · exact hthread
  · rcases hget i u hu with hi | ⟨hi, rfl⟩ <;> rcases hget j v hv with hj | ⟨hj, rfl⟩
    · exact hp.pair i j u v hij hi hj
    · exact (hpair i u hi).2
    · exact (hpair j v hj).1
    · exact absurd (hi.trans hj.symm) hij

theorem Outline.holds_act (O : Outline canStart tstep C A) {p : Pool ω τ} {i : Nat} {c : χ}
    {t t' : τ} {w' : ω} (hp : A.Holds p) (hC : C p (.act i c)) (ht : p.threads[i]? = some t)
    (hstep : tstep p.world t c = some (w', t')) : A.Holds ⟨w', p.threads.set i t'⟩ := by
  obtain ⟨hworld, hown⟩ := O.own p i c t w' t' hp hC ht hstep
  have hget : ∀ (j : Nat) (u : τ), (p.threads.set i t')[j]? = some u →
      (i = j ∧ u = t') ∨ (i ≠ j ∧ p.threads[j]? = some u) := by
    intro j u hu
    by_cases hij : i = j
    · subst hij
      have hlt : i < p.threads.length := (List.getElem?_eq_some_iff.mp ht).1
      rw [List.getElem?_set_self hlt] at hu
      exact .inl ⟨rfl, (Option.some.inj hu).symm⟩
    · rw [List.getElem?_set_ne hij] at hu
      exact .inr ⟨hij, hu⟩
  refine ⟨hworld, fun j u hu => ?_, fun j k u v hjk hu hv => ?_⟩
  · rcases hget j u hu with ⟨-, rfl⟩ | ⟨hij, hj⟩
    · exact hown
    · exact (O.other p i c t w' t' j u hp hC ht hstep hij hj).1
  · rcases hget j u hu with ⟨hij, rfl⟩ | ⟨hij, hj⟩ <;>
      rcases hget k v hv with ⟨hik, rfl⟩ | ⟨hik, hk⟩
    · exact absurd (hij.symm.trans hik) hjk
    · exact (O.other p i c t w' _ k v hp hC ht hstep hik hk).2.1
    · exact (O.other p i c t w' _ j u hp hC ht hstep hij hj).2.2
    · exact O.rest p i c t w' t' j k u v hp hC ht hstep hij hik hjk hj hk

/-- The assertions hold in every state of a run whose steps meet the guard. -/
theorem Outline.holds_of_run (O : Outline canStart tstep C A) {p p' : Pool ω τ}
    {ls : List (PoolLabel τ χ)} (hrun : GuardedRun (Pool.step canStart tstep) C p ls p')
    (hp : A.Holds p) : A.Holds p' := by
  refine hrun.invariant (fun q l q' hq hC hstep => ?_) hp
  cases l with
  | spawn t =>
    obtain ⟨hs, rfl⟩ := Pool.step_spawn hstep
    exact O.holds_spawn hq hC hs
  | act i c =>
    obtain ⟨t, w', t', ht, hst, rfl⟩ := Pool.step_act hstep
    exact O.holds_act hq hC ht hst

theorem Assertions.holds_nil {w : ω} (h : A.world w) : A.Holds ⟨w, []⟩ :=
  ⟨h, fun i t ht => by simp at ht, fun i j t u _ ht => by simp at ht⟩

end Pools

end Steps
