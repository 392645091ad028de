/-
  File:      Beacon/Foundation/Simulation.lean
  Subject:   Machines that simulate others, and routines in the middle of their text.

  A machine with fine steps is understood through one with coarse steps: a relation ties their
  states, and every fine step is matched by a run of the coarse machine, often by the empty one
  (`Simulates`). What holds in every state of the coarse machine is then known of the fine one.

  A routine that works undisturbed on a store is such a pair: it takes one statement at a time,
  and seen from outside it happens at its end. `Stage` says how far it has come.

  * `Simulates.run` -- **every run of the fine machine is matched by one of the coarse machine**;
  * `Mirrors.run` -- the same, and what the coarse machine does is known from the fine actions;
  * `Stage.after`, `Stage.run` -- a routine in the middle has made its first writes, and goes on
    as the whole does.
-/
import Beacon.Foundation.Machine
import Beacon.Foundation.Program

namespace Foundation

/-! ## 1. Simulation -/

section Simulation

variable {σ α τ β : Type*}

/-- From related states every step of `M` is matched by a run of `N`. -/
structure Simulates (M : Machine σ α) (N : Machine τ β) (R : σ → τ → Prop) : Prop where
  init : R M.init N.init
  step : ∀ s a s' t, R s t → M.step s a = some s' → ∃ bs, R s' (N.runFrom t bs)

namespace Simulates

variable {M : Machine σ α} {N : Machine τ β} {R : σ → τ → Prop}

/-- **Every run of the fine machine is matched by one of the coarse machine.** -/
theorem run (h : Simulates M N R) (as : List α) : ∃ bs, R (M.run as) (N.run bs) := by
  refine Machine.invariant (M := M) (I := fun s => ∃ bs, R s (N.run bs)) ⟨[], h.init⟩ ?_ as
  intro s a s' hI hstep
  obtain ⟨bs, hR⟩ := hI
  obtain ⟨cs, hR'⟩ := h.step s a s' _ hR hstep
  exact ⟨bs ++ cs, by rw [Machine.run_append]; exact hR'⟩

end Simulates

/-- A simulation that answers an action with actions `L` allows for it. -/
structure Mirrors (M : Machine σ α) (N : Machine τ β) (R : σ → τ → Prop) (L : α → β → Prop) :
    Prop where
  init : R M.init N.init
  step : ∀ s a s' t, R s t → M.step s a = some s' →
    ∃ bs, (∀ b ∈ bs, L a b) ∧ R s' (N.runFrom t bs)

namespace Mirrors

variable {M : Machine σ α} {N : Machine τ β} {R : σ → τ → Prop} {L : α → β → Prop} {a : α} {b : β}
  {s : σ} {t t' : τ}

/-- An answer of no action. -/
theorem answer_none (hR : R s t) : ∃ bs, (∀ b ∈ bs, L a b) ∧ R s (N.runFrom t bs) :=
  ⟨[], fun _ hb => absurd hb List.not_mem_nil, hR⟩

/-- An answer of one action. -/
theorem answer_one (hL : L a b) (hstep : N.step t b = some t') (hR : R s t') :
    ∃ bs, (∀ b ∈ bs, L a b) ∧ R s (N.runFrom t bs) := by
  refine ⟨[b], fun c hc => ?_, ?_⟩
  · rw [List.mem_singleton.mp hc]
    exact hL
  · rw [Machine.runFrom_cons, Machine.runFrom_nil, Machine.act_of_step hstep]
    exact hR

/-- One action, enabled or not. -/
theorem act (h : Mirrors M N R L) (hR : R s t) (a : α) :
    ∃ bs, (∀ b ∈ bs, L a b) ∧ R (M.act s a) (N.runFrom t bs) := by
  cases hstep : M.step s a with
  | none =>
    rw [Machine.act_of_none hstep]
    exact answer_none hR
  | some s' =>
    rw [Machine.act_of_step hstep]
    exact h.step s a s' t hR hstep

/-- **Every run is matched by one of actions that its own actions allow.** -/
theorem run (h : Mirrors M N R L) (as : List α) :
    ∃ bs, (∀ b ∈ bs, ∃ a ∈ as, L a b) ∧ R (M.run as) (N.run bs) := by
  induction as using List.reverseRecOn with
  | nil => exact ⟨[], fun _ hb => absurd hb List.not_mem_nil, h.init⟩
  | append_singleton as a ih =>
    obtain ⟨bs, hbs, hR⟩ := ih
    obtain ⟨cs, hcs, hR'⟩ := h.act hR a
    refine ⟨bs ++ cs, fun b hb => ?_, ?_⟩
    · rcases List.mem_append.mp hb with hb | hb
      · obtain ⟨a', ha', hL⟩ := hbs b hb
        exact ⟨a', List.mem_append_left _ ha', hL⟩
      · exact ⟨a, List.mem_append_right _ (List.mem_singleton_self a), hcs b hb⟩
    · rw [Machine.run_snoc, Machine.run_append]
      exact hR'

end Mirrors

end Simulation

/-! ## 2. Routines in the middle -/

namespace Prog

variable {σ ε α : Type}

/-- After `n` writes from `s` the routine `p` is left with a text, in a store. -/
inductive Stage (p : Prog σ ε α) (s : σ) : Nat → Prog σ ε α → σ → Prop where
  | start : Stage p s 0 p s
  | query {n : Nat} {k : σ → Prog σ ε α} {t : σ} : Stage p s n (.query k) t → Stage p s n (k t) t
  | exec {n : Nat} {f : σ → Option σ} {k : Prog σ ε α} {t t' : σ} :
      Stage p s n (.exec f k) t → f t = some t' → Stage p s (n + 1) k t'

namespace Stage

variable {p q : Prog σ ε α} {s t : σ} {n : Nat}

theorem after_add (h : Stage p s n q t) (m : Nat) : p.after (n + m) s = q.after m t := by
  induction h generalizing m with
  | start => rw [Nat.zero_add]
  | query _ ih => exact ih m
  | exec _ hf ih =>
    rw [Nat.add_assoc, ih (1 + m), Nat.add_comm 1 m]
    simp only [Prog.after, hf]

/-- **A routine in the middle has made its first writes.** -/
theorem after (h : Stage p s n q t) : p.after n s = t := by
  have hadd := h.after_add 0
  rwa [Nat.add_zero, Prog.after_zero] at hadd

theorem done_add (h : Stage p s n q t) (m : Nat) : p.done (n + m) s = q.done m t := by
  induction h generalizing m with
  | start => rw [Nat.zero_add]
  | query _ ih => exact ih m
  | exec _ hf ih =>
    rw [Nat.add_assoc, ih (1 + m), Nat.add_comm 1 m]
    simp only [Prog.done, hf]

/-- A routine with a write to come is not done. -/
theorem unfinished {f : σ → Option σ} {k : Prog σ ε α} (h : Stage p s n (.exec f k) t) :
    p.done n s = false := h.done_add 0

/-- **A routine in the middle goes on as the whole does.** -/
theorem run (h : Stage p s n q t) : p.run s = q.run t := by
  induction h with
  | start => rfl
  | query _ ih => exact ih
  | exec _ hf ih =>
    rw [ih]
    simp only [Prog.run, hf]

end Stage

end Prog

end Foundation
