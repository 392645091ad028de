/-
  File:      Beacon/Foundation/Program.lean
  Subject:   Programs that work on a shared state statement by statement, and transactions.

  A `Prog σ ε α` is the text of a routine that talks to a store of type `σ`: it asks (`query`),
  it changes (`exec`, which the store may refuse), it gives up with an error of its own
  (`throw`), or it ends with a value. The statements stay visible, so one text has two
  readings: `run` executes it alone, and an interleaving semantics (Snapshot.lean) executes one
  statement of it at a time between the statements of others.

  A transaction is a program that ends in an `Ending`: `commit` publishes the working copy,
  `rollback` drops it and still answers. `transact` is the transaction run alone.

  * `run_bind` -- running a composed program is running its parts one after the other;
  * `run_forEach` -- a loop of writes is one write, the fold of the loop's body;
  * `after_forEach_bind` -- a routine cut off in a loop has made the first writes of it;
  * `run_of_done` -- a routine cut off after its last write has done what it does uncut;
  * `transact_*` -- what each way of ending leaves in the store;
  * `transact_mapAnswer` -- the answer can be translated afterwards.
-/
import Mathlib.Tactic.TypeStar

namespace Foundation

/-- A routine on a store `σ` with errors `ε` of its own. `exec f` is refused by the store where
    `f` answers `none` (a violated constraint). -/
inductive Prog (σ ε α : Type) where
  | pure (a : α)
  | throw (e : ε)
  | query (k : σ → Prog σ ε α)
  | exec (f : σ → Option σ) (k : Prog σ ε α)

/-- Why a routine ended without a value: an error it raised, or a statement the store refused. -/
inductive Fault (ε : Type) where
  | raised (e : ε)
  | refused
  deriving DecidableEq, Repr

namespace Prog

variable {σ ε α β γ : Type}

/-- Sequencing: the second routine starts where the first one ends with a value. -/
def bind : Prog σ ε α → (α → Prog σ ε β) → Prog σ ε β
  | .pure a, f => f a
  | .throw e, _ => .throw e
  | .query k, f => .query fun s => (k s).bind f
  | .exec g k, f => .exec g (k.bind f)

instance : Monad (Prog σ ε) where
  pure := .pure
  bind := .bind

/-- Ask the store. -/
def ask (f : σ → α) : Prog σ ε α := .query fun s => .pure (f s)

/-- Change the store; the store may refuse. -/
def update (f : σ → Option σ) : Prog σ ε Unit := .exec f (.pure ())

/-- Change the store; never refused. -/
def write (f : σ → σ) : Prog σ ε Unit := update fun s => some (f s)

/-- Give up with an error. -/
def raise (e : ε) : Prog σ ε α := .throw e

/-- A value where there is one, else the error. -/
def orRaise (e : ε) : Option α → Prog σ ε α
  | some a => .pure a
  | none => .throw e

/-- The loop `for b in l { body b }`. -/
def forEach (body : β → Prog σ ε Unit) : List β → Prog σ ε Unit
  | [] => .pure ()
  | b :: l => (body b).bind fun _ => forEach body l

/-! ## 1. A routine that runs alone -/

/-- The routine executed alone from `s`: its value and the store it leaves. -/
def run : Prog σ ε α → σ → Except (Fault ε) (α × σ)
  | .pure a, s => .ok (a, s)
  | .throw e, _ => .error (.raised e)
  | .query k, s => (k s).run s
  | .exec f k, s => match f s with
    | none => .error .refused
    | some s' => k.run s'

@[simp] theorem run_pure (a : α) (s : σ) : (Pure.pure a : Prog σ ε α).run s = .ok (a, s) := rfl

@[simp] theorem run_raise (e : ε) (s : σ) : (raise e : Prog σ ε α).run s = .error (.raised e) :=
  rfl

@[simp] theorem run_ask (f : σ → α) (s : σ) : (ask f : Prog σ ε α).run s = .ok (f s, s) := rfl

@[simp] theorem run_write (f : σ → σ) (s : σ) : (write f : Prog σ ε Unit).run s = .ok ((), f s) :=
  rfl

theorem run_update_some {f : σ → Option σ} {s s' : σ} (h : f s = some s') :
    (update f : Prog σ ε Unit).run s = .ok ((), s') := by
  simp only [update, run, h]

/-- **Running a composed routine is running its parts in turn.** -/
@[simp] theorem run_bind (p : Prog σ ε α) (f : α → Prog σ ε β) (s : σ) :
    (p >>= f).run s = (p.run s).bind fun r => (f r.1).run r.2 := by
  show (p.bind f).run s = _
  induction p generalizing s with
  | pure a => rfl
  | throw e => rfl
  | query k ih => exact ih s s
  | exec g k ih =>
    simp only [Prog.bind, run]
    cases g s with
    | none => rfl
    | some s' => exact ih s'

theorem run_forEach_cons (body : β → Prog σ ε Unit) (b : β) (l : List β) (s : σ) :
    (forEach body (b :: l)).run s = ((body b).run s).bind fun r => (forEach body l).run r.2 :=
  run_bind (body b) (fun _ => forEach body l) s

/-- **A loop of writes is one write**: the fold of the body over the list. -/
theorem run_forEach (g : σ → β → σ) (l : List β) (s : σ) :
    (forEach (fun b => write fun s => g s b) l : Prog σ ε Unit).run s = .ok ((), l.foldl g s) := by
  induction l generalizing s with
  | nil => rfl
  | cons b l ih => exact ih (g s b)

/-! ## 2. A routine that is cut off -/

/-- The store a routine leaves that is cut off after `n` of its writes; questions are no writes. -/
def after : Prog σ ε α → Nat → σ → σ
  | .pure _, _, s => s
  | .throw _, _, s => s
  | .query k, n, s => (k s).after n s
  | .exec _ _, 0, s => s
  | .exec f k, n + 1, s => match f s with
    | none => s
    | some s' => k.after n s'

theorem after_zero (p : Prog σ ε α) (s : σ) : p.after 0 s = s := by
  induction p generalizing s with
  | pure a => rfl
  | throw e => rfl
  | query k ih => exact ih s s
  | exec f k ih => rfl

theorem after_ask_bind (f : σ → β) (k : β → Prog σ ε α) (n : Nat) (s : σ) :
    (ask f >>= k).after n s = (k (f s)).after n s := rfl

/-- **A loop of writes that is cut off** has made the first of them, or all and goes on. -/
theorem after_forEach_bind (g : σ → β → σ) (l : List β) (k : Prog σ ε α) (n : Nat) (s : σ) :
    (forEach (fun b => write fun s => g s b) l >>= fun _ => k).after n s =
      if n ≤ l.length then (l.take n).foldl g s else k.after (n - l.length) (l.foldl g s) := by
  induction l generalizing n s with
  | nil =>
    show k.after n s = _
    cases n with
    | zero => rw [after_zero]; rfl
    | succ n => rfl
  | cons b l ih =>
    cases n with
    | zero => rfl
    | succ n =>
      show (forEach (fun b => write fun s => g s b) l >>= fun _ => k).after n (g s b) = _
      rw [ih]
      simp only [List.length_cons, Nat.add_le_add_iff_right, List.take_succ_cons,
        List.foldl_cons, Nat.add_sub_add_right]

/-- The routine, cut off after `n` writes, has come to its end. -/
def done : Prog σ ε α → Nat → σ → Bool
  | .pure _, _, _ => true
  | .throw _, _, _ => false
  | .query k, n, s => (k s).done n s
  | .exec _ _, 0, _ => false
  | .exec f k, n + 1, s => match f s with
    | none => false
    | some s' => k.done n s'

/-- The store a routine leaves, whether it ends with a value or not. -/
def final : Prog σ ε α → σ → σ
  | .pure _, s => s
  | .throw _, s => s
  | .query k, s => (k s).final s
  | .exec f k, s => match f s with
    | none => s
    | some s' => k.final s'

/-- **A routine cut off after its last write** has done what it does uncut. -/
theorem run_of_done {p : Prog σ ε α} {n : Nat} {s : σ} (h : p.done n s = true) :
    ∃ a, p.run s = .ok (a, p.after n s) := by
  induction p generalizing n s with
  | pure a => exact ⟨a, rfl⟩
  | throw e => cases h
  | query k ih => exact ih s h
  | exec f k ih =>
    cases n with
    | zero => cases h
    | succ n =>
      simp only [done, run, after] at h ⊢
      cases hf : f s with
      | none => rw [hf] at h; cases h
      | some s' => rw [hf] at h; exact ih h

theorem final_of_run {p : Prog σ ε α} {s s' : σ} {a : α} (h : p.run s = .ok (a, s')) :
    p.final s = s' := by
  induction p generalizing s with
  | pure b => cases h; rfl
  | throw e => cases h
  | query k ih => exact ih s h
  | exec f k ih =>
    simp only [run, final] at h ⊢
    cases hf : f s with
    | none => rw [hf] at h; cases h
    | some t => rw [hf] at h; exact ih h

theorem done_ask_bind (f : σ → β) (k : β → Prog σ ε α) (n : Nat) (s : σ) :
    (ask f >>= k).done n s = (k (f s)).done n s := rfl

/-- A loop of writes has to be made in full. -/
theorem done_forEach_bind (g : σ → β → σ) (l : List β) (k : Prog σ ε α) (n : Nat) (s : σ) :
    (forEach (fun b => write fun s => g s b) l >>= fun _ => k).done n s =
      (decide (l.length ≤ n) && k.done (n - l.length) (l.foldl g s)) := by
  induction l generalizing n s with
  | nil => exact (Bool.true_and _).symm
  | cons b l ih =>
    cases n with
    | zero => rfl
    | succ n =>
      show (forEach (fun b => write fun s => g s b) l >>= fun _ => k).done n (g s b) = _
      rw [ih]
      simp only [List.length_cons, Nat.add_le_add_iff_right, List.foldl_cons,
        Nat.add_sub_add_right]

end Prog

/-! ## 3. Transactions -/

/-- How a transaction body ends: the working copy is published, or dropped; both answer. -/
inductive Ending (α : Type) where
  | commit (a : α)
  | rollback (a : α)

/-- The same ending with another answer. -/
def Ending.map {α β : Type} (f : α → β) : Ending α → Ending β
  | .commit a => .commit (f a)
  | .rollback a => .rollback (f a)

/-- The text of a transaction. -/
abbrev Transaction (σ ε α : Type) := Prog σ ε (Ending α)

variable {σ ε α β : Type}

/-- The transaction with its answer translated. -/
def Transaction.mapAnswer (f : α → β) (t : Transaction σ ε α) : Transaction σ ε β :=
  Prog.bind t fun e => .pure (e.map f)

/-- The transaction run alone: its answer and the store after it. Every error drops the
    working copy. -/
def Transaction.transact (t : Transaction σ ε α) (s : σ) : Except (Fault ε) α × σ :=
  match t.run s with
  | .ok (.commit a, s') => (.ok a, s')
  | .ok (.rollback a, _) => (.ok a, s)
  | .error e => (.error e, s)

namespace Transaction

theorem transact_commit {t : Transaction σ ε α} {s s' : σ} {a : α}
    (h : t.run s = .ok (.commit a, s')) : t.transact s = (.ok a, s') := by
  rw [transact, h]

theorem transact_rollback {t : Transaction σ ε α} {s s' : σ} {a : α}
    (h : t.run s = .ok (.rollback a, s')) : t.transact s = (.ok a, s) := by
  rw [transact, h]

theorem transact_error {t : Transaction σ ε α} {s : σ} {e : Fault ε}
    (h : t.run s = .error e) : t.transact s = (.error e, s) := by
  rw [transact, h]

/-- Translating the answer changes nothing else. -/
theorem transact_mapAnswer (f : α → β) (t : Transaction σ ε α) (s : σ) :
    (t.mapAnswer f).transact s = ((t.transact s).1.map f, (t.transact s).2) := by
  have hrun : (t.mapAnswer f).run s =
      (t.run s).bind fun r => .ok (r.1.map f, r.2) := Prog.run_bind t _ s
  cases hr : t.run s with
  | error e =>
    rw [hr] at hrun
    rw [transact_error hrun, transact_error hr]
    rfl
  | ok r =>
    obtain ⟨e, s'⟩ := r
    rw [hr] at hrun
    cases e with
    | commit a =>
      rw [transact_commit hrun, transact_commit hr]
      rfl
    | rollback a =>
      rw [transact_rollback hrun, transact_rollback hr]
      rfl

end Transaction

end Foundation
