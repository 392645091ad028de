/-
  File:      Beacon/Foundation/Machine.lean
  Subject:   State machines driven by lists of actions.

  A machine has one start state and a step function that says which actions are enabled; a run
  is a list of actions in which a disabled action is skipped. Every reachable state is the end
  of a run, so a statement about `M.run as` for every `as` is a statement about every reachable
  state. The rules every safety proof uses:

  * `Machine.invariant` -- a predicate that holds at the start and is kept by every enabled
    step holds after every run (`Machine.invariant_along`: every run under a condition);
  * `Machine.steady` -- a reflexive, transitive relation between the states before and after
    every enabled step relates every state of a run to every later one;
  * `Machine.exists_turn` -- what does not hold at the start came with an action of the run.
-/
import Mathlib.Data.List.Induction
import Mathlib.Tactic.TypeStar

namespace Foundation

/-- A start state and a partial step function: `step s a = none` is "`a` is not enabled". -/
structure Machine (σ α : Type*) where
  init : σ
  step : σ → α → Option σ

namespace Machine

variable {σ α : Type*} (M : Machine σ α)

/-- One action; a disabled action leaves the state as it is. -/
def act (s : σ) (a : α) : σ := (M.step s a).getD s

/-- The state after a list of actions from `s`. -/
def runFrom (s : σ) (as : List α) : σ := as.foldl M.act s

/-- The state after a list of actions from the start. -/
def run (as : List α) : σ := M.runFrom M.init as

@[simp] theorem runFrom_nil (s : σ) : M.runFrom s [] = s := rfl

@[simp] theorem runFrom_cons (s : σ) (a : α) (as : List α) :
    M.runFrom s (a :: as) = M.runFrom (M.act s a) as := rfl

@[simp] theorem run_nil : M.run [] = M.init := rfl

theorem runFrom_append (s : σ) (as bs : List α) :
    M.runFrom s (as ++ bs) = M.runFrom (M.runFrom s as) bs := List.foldl_append

theorem run_append (as bs : List α) : M.run (as ++ bs) = M.runFrom (M.run as) bs :=
  M.runFrom_append _ as bs

theorem run_snoc (as : List α) (a : α) : M.run (as ++ [a]) = M.act (M.run as) a :=
  M.run_append as [a]

variable {M}

theorem act_of_step {s s' : σ} {a : α} (h : M.step s a = some s') : M.act s a = s' := by
  rw [act, h, Option.getD_some]

theorem act_of_none {s : σ} {a : α} (h : M.step s a = none) : M.act s a = s := by
  rw [act, h, Option.getD_none]

/-- What every enabled step keeps, every action keeps. -/
theorem act_keeps {I : σ → Prop} (hs : ∀ s a s', I s → M.step s a = some s' → I s')
    {s : σ} (h : I s) (a : α) : I (M.act s a) := by
  cases hstep : M.step s a with
  | none => rw [act_of_none hstep]; exact h
  | some s' => rw [act_of_step hstep]; exact hs s a s' h hstep

/-- **The invariant rule**, from any state that has the invariant. -/
theorem runFrom_invariant {I : σ → Prop} (hs : ∀ s a s', I s → M.step s a = some s' → I s')
    {s : σ} (h : I s) (as : List α) : I (M.runFrom s as) := by
  induction as generalizing s with
  | nil => exact h
  | cons a as ih => exact ih (act_keeps hs h a)

/-- **The invariant rule**: every reachable state has what the start has and every step keeps. -/
theorem invariant {I : σ → Prop} (h0 : I M.init)
    (hs : ∀ s a s', I s → M.step s a = some s' → I s') (as : List α) : I (M.run as) :=
  runFrom_invariant hs h0 as

variable (M) in
/-- Every action of the list is taken under `P`, each in the state it is taken from. -/
def Along (P : σ → α → Prop) (s : σ) : List α → Prop
  | [] => True
  | a :: as => P s a ∧ Along P (M.act s a) as

instance {P : σ → α → Prop} [∀ s a, Decidable (P s a)] :
    ∀ (s : σ) (as : List α), Decidable (M.Along P s as)
  | _, [] => isTrue trivial
  | s, a :: as =>
    have := instDecidableAlong (P := P) (M.act s a) as
    inferInstanceAs (Decidable (P s a ∧ M.Along P (M.act s a) as))

theorem along_append {P : σ → α → Prop} {s : σ} {as bs : List α} :
    M.Along P s (as ++ bs) ↔ M.Along P s as ∧ M.Along P (M.runFrom s as) bs := by
  induction as generalizing s with
  | nil => exact ⟨fun h => ⟨trivial, h⟩, And.right⟩
  | cons a as ih => exact (and_congr_right fun _ => ih).trans and_assoc.symm

/-- A run under two conditions. -/
theorem Along.and {P Q : σ → α → Prop} {s : σ} {as : List α} (hP : M.Along P s as)
    (hQ : M.Along Q s as) : M.Along (fun s a => P s a ∧ Q s a) s as := by
  induction as generalizing s with
  | nil => exact trivial
  | cons a as ih => exact ⟨⟨hP.1, hQ.1⟩, ih hP.2 hQ.2⟩

/-- A condition on the actions alone. -/
theorem along_of_mem {P : α → Prop} {s : σ} {as : List α} (h : ∀ a ∈ as, P a) :
    M.Along (fun _ a => P a) s as := by
  induction as generalizing s with
  | nil => exact trivial
  | cons a as ih => exact ⟨h a List.mem_cons_self, ih fun b hb => h b (List.mem_cons_of_mem a hb)⟩

/-- A condition on a run, read off its prefixes. -/
theorem along_of_prefixes {P : σ → α → Prop} {s : σ} {as : List α}
    (h : ∀ before a after, as = before ++ a :: after → P (M.runFrom s before) a) :
    M.Along P s as := by
  induction as generalizing s with
  | nil => exact trivial
  | cons a as ih =>
    refine ⟨h [] a as rfl, ih fun before b after e => ?_⟩
    rw [← runFrom_cons]
    exact h (a :: before) b after (by rw [e, List.cons_append])

/-- **The invariant rule for runs under a condition** on their actions, from any state that has
    the invariant. -/
theorem runFrom_invariant_along {I : σ → Prop} {P : σ → α → Prop}
    (hs : ∀ s a s', I s → P s a → M.step s a = some s' → I s') {s : σ} (h : I s) {as : List α}
    (hP : M.Along P s as) : I (M.runFrom s as) := by
  induction as generalizing s with
  | nil => exact h
  | cons a as ih =>
    refine ih ?_ hP.2
    cases hstep : M.step s a with
    | none => rw [act_of_none hstep]; exact h
    | some s' => rw [act_of_step hstep]; exact hs s a s' h hP.1 hstep

/-- What an invariant and a condition say of every action, a run under the condition shows. -/
theorem Along.of_invariant {I : σ → Prop} {P Q : σ → α → Prop}
    (hs : ∀ s a s', I s → P s a → M.step s a = some s' → I s')
    (hQ : ∀ s a, I s → P s a → Q s a) {s : σ} (h : I s) {as : List α} (hP : M.Along P s as) :
    M.Along Q s as := by
  induction as generalizing s with
  | nil => exact trivial
  | cons a as ih =>
    refine ⟨hQ s a h hP.1, ih ?_ hP.2⟩
    have hone : M.Along P s [a] := ⟨hP.1, trivial⟩
    exact runFrom_invariant_along hs h hone

/-- **The invariant rule for runs under a condition** on their actions. -/
theorem invariant_along {I : σ → Prop} {P : σ → α → Prop} (h0 : I M.init)
    (hs : ∀ s a s', I s → P s a → M.step s a = some s' → I s') {as : List α}
    (hP : M.Along P M.init as) : I (M.run as) := runFrom_invariant_along hs h0 hP

/-- **The frame rule of a run**: a reflexive and transitive relation that every step from an
    invariant state respects relates every reachable state to all later ones. -/
theorem steady {I : σ → Prop} {R : σ → σ → Prop} (h0 : I M.init)
    (hs : ∀ s a s', I s → M.step s a = some s' → I s') (hrefl : ∀ s, R s s)
    (htrans : ∀ s t u, R s t → R t u → R s u)
    (hR : ∀ s a s', I s → M.step s a = some s' → R s s') (as bs : List α) :
    R (M.run as) (M.run (as ++ bs)) := by
  rw [run_append]
  have key : ∀ (bs : List α) (s : σ), I s → R s (M.runFrom s bs) := by
    intro bs
    induction bs with
    | nil => exact fun s _ => hrefl s
    | cons b bs ih =>
      intro s hI
      refine htrans _ _ _ ?_ (ih _ (act_keeps hs hI b))
      cases hstep : M.step s b with
      | none => rw [act_of_none hstep]; exact hrefl s
      | some s' => rw [act_of_step hstep]; exact hR s b s' hI hstep
  exact key bs _ (invariant h0 hs as)

/-- **What did not hold at the start and holds after a run** came with one of its actions. -/
theorem exists_turn {P : σ → Prop} (h0 : ¬ P M.init) {as : List α} (h : P (M.run as)) :
    ∃ before a after, as = before ++ a :: after ∧ ¬ P (M.run before) ∧
      ∃ s', M.step (M.run before) a = some s' ∧ P s' := by
  induction as using List.reverseRecOn with
  | nil => exact absurd h h0
  | append_singleton as a ih =>
    by_cases hbefore : P (M.run as)
    · obtain ⟨before, b, after, e, hb⟩ := ih hbefore
      exact ⟨before, b, after ++ [a], by rw [e, List.append_assoc, List.cons_append], hb⟩
    · rw [run_snoc] at h
      refine ⟨as, a, [], rfl, hbefore, ?_⟩
      cases hstep : M.step (M.run as) a with
      | none =>
        rw [act_of_none hstep] at h
        exact absurd h hbefore
      | some s' =>
        rw [act_of_step hstep] at h
        exact ⟨s', rfl, h⟩

end Machine

end Foundation
