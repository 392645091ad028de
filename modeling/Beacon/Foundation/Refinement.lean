/-
  File:      Beacon/Foundation/Refinement.lean
  Subject:   Routines over two stores.

  One routine works on a store as it is kept, another on what the store means. The first refines
  the second if from related stores both raise the same error or both end with related values, in
  related stores. Refinement goes through a routine statement by statement: a question has to
  find what the other one finds, a change has to be refused where the other one is, and loops and
  sequences follow.

  * `Refines.bind`, `refines_forEach` -- sequences and loops;
  * `Refines.transact` -- **transactions answer alike and leave related stores.**
-/
import Beacon.Foundation.Program
import Mathlib.Data.Option.Basic

namespace Foundation

namespace Prog

variable {σ τ ε α β γ δ : Type}

/-- The same error, or related values in related stores. -/
inductive Agree (R : σ → τ → Prop) (V : α → β → Prop) :
    Except (Fault ε) (α × σ) → Except (Fault ε) (β × τ) → Prop
  | ok {a : α} {b : β} {s : σ} {t : τ} (hv : V a b) (hr : R s t) : Agree R V (.ok (a, s)) (.ok (b, t))
  | error (fault : Fault ε) : Agree R V (.error fault) (.error fault)

def Refines (R : σ → τ → Prop) (V : α → β → Prop) (p : Prog σ ε α) (q : Prog τ ε β) : Prop :=
  ∀ s t, R s t → Agree R V (p.run s) (q.run t)

/-- A question that the store may refuse to answer; `e` is never raised. -/
def fetch (e : ε) (f : σ → Option α) : Prog σ ε α := .query fun s =>
  match f s with
  | some a => .pure a
  | none => .exec (fun _ => none) (.throw e)

variable {R : σ → τ → Prop} {V : α → β → Prop} {W : γ → δ → Prop}

theorem refines_pure {a : α} {b : β} (h : V a b) :
    Refines R V (pure a : Prog σ ε α) (pure b) := fun _ _ hr => .ok h hr

theorem refines_raise (e : ε) : Refines R V (raise e : Prog σ ε α) (raise e) :=
  fun _ _ _ => .error _

/-- **One after the other.** -/
theorem Refines.bind {p : Prog σ ε α} {q : Prog τ ε β} {f : α → Prog σ ε γ} {g : β → Prog τ ε δ}
    (h : Refines R V p q) (hf : ∀ a b, V a b → Refines R W (f a) (g b)) :
    Refines R W (p >>= f) (q >>= g) := by
  intro s t hr
  rw [run_bind, run_bind]
  have hagree := h s t hr
  revert hagree
  generalize p.run s = x
  generalize q.run t = y
  intro hagree
  cases hagree with
  | ok hv hr => exact hf _ _ hv _ _ hr
  | error fault => exact .error fault

/-- A question that is answered. -/
theorem refines_fetch {e : ε} {f : σ → Option α} {g : τ → β}
    (h : ∀ s t, R s t → ∃ a, f s = some a ∧ V a (g t)) : Refines R V (fetch e f) (ask g) := by
  intro s t hr
  obtain ⟨a, ha, hv⟩ := h s t hr
  show Agree R V (run (match f s with
    | some a => .pure a
    | none => .exec (fun _ => none) (.throw e)) s) (.ok (g t, t))
  rw [ha]
  exact .ok hv hr

theorem refines_orRaise {e : ε} {o : Option α} {o' : Option β} (h : Option.Rel V o o') :
    Refines R V (orRaise e o) (orRaise e o') := by
  cases h with
  | some hv => exact refines_pure hv
  | none => exact refines_raise e

/-- A change that both stores refuse, or none. -/
theorem refines_update {f : σ → Option σ} {g : τ → Option τ}
    (h : ∀ s t, R s t → Option.Rel R (f s) (g t)) :
    Refines R (fun _ _ => True) (update f : Prog σ ε Unit) (update g) := by
  intro s t hr
  have hrel := h s t hr
  unfold update
  simp only [run]
  revert hrel
  generalize f s = x
  generalize g t = y
  intro hrel
  cases hrel with
  | some hr => exact .ok trivial hr
  | none => exact .error _

/-- A change that is not refused. -/
theorem refines_write {f : σ → Option σ} {g : τ → τ}
    (h : ∀ s t, R s t → ∃ s', f s = some s' ∧ R s' (g t)) :
    Refines R (fun _ _ => True) (update f : Prog σ ε Unit) (write g) :=
  refines_update fun s t hr => by
    obtain ⟨s', hs, hr'⟩ := h s t hr
    rw [hs]
    exact .some hr'

/-- **A loop**, by what its body does. -/
theorem refines_forEach {ι : Type} {body : ι → Prog σ ε Unit} {body' : ι → Prog τ ε Unit}
    (l : List ι) (h : ∀ b ∈ l, Refines R (fun _ _ => True) (body b) (body' b)) :
    Refines R (fun _ _ => True) (forEach body l) (forEach body' l) := by
  induction l with
  | nil => exact refines_pure trivial
  | cons b l ih =>
    exact (h b List.mem_cons_self).bind fun _ _ _ => ih fun b hb => h b (List.mem_cons_of_mem _ hb)

end Prog

/-- **Transactions answer alike and leave related stores.** -/
theorem Transaction.transact_refines {σ τ ε α : Type} {R : σ → τ → Prop} {p : Transaction σ ε α}
    {q : Transaction τ ε α} (h : Prog.Refines R Eq p q) {s : σ} {t : τ} (hr : R s t) :
    (p.transact s).1 = (q.transact t).1 ∧ R (p.transact s).2 (q.transact t).2 := by
  have hagree := h s t hr
  unfold transact
  revert hagree
  generalize p.run s = x
  generalize q.run t = y
  intro hagree
  cases hagree with
  | error fault => exact ⟨rfl, hr⟩
  | @ok a b s' t' hv hr' =>
    subst hv
    cases a with
    | commit a => exact ⟨rfl, hr'⟩
    | rollback a => exact ⟨rfl, hr⟩

end Foundation
