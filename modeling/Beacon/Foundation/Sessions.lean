/-
  File:      Beacon/Foundation/Sessions.lean
  Subject:   Routines that work on a database in one transaction and on a disk beside it.

  The transaction is rolled back when the routine fails; what it did to the disk stays. A
  `Session σ δ ε α` is the text of such a routine: it asks the disk (`look`), reads and writes
  the database (`select`, `update`), takes a step on the disk that may be refused (`act`), gives
  up (`throw`), or ends, which commits the transaction.

  The text has two readings. `perform` executes it alone, with an outside fault at any of its
  fallible statements or none. `State.next` executes one statement of one of many routines: the
  database is the one of Snapshot.lean (a snapshot from the first read on, one writer, a write on
  an outdated snapshot is refused), the disk is shared, and others may write to both.

  * `coherent_*` -- **a snapshot that is not outdated is the latest version, and only the writer
    holds the lock**, kept by every step.
-/
import Beacon.Foundation.Snapshot

namespace Foundation

/-- A routine on a database `σ` and a disk `δ`. `act f` is refused where `f` answers `none`. -/
inductive Session (σ δ ε α : Type) where
  | pure (a : α)
  | throw (e : ε)
  | look (k : δ → Session σ δ ε α)
  | select (k : σ → Session σ δ ε α)
  | update (f : σ → σ) (k : Session σ δ ε α)
  | act (f : δ → Option δ) (k : Session σ δ ε α)

namespace Session

variable {σ δ ε α β : Type}

def bind : Session σ δ ε α → (α → Session σ δ ε β) → Session σ δ ε β
  | .pure a, f => f a
  | .throw e, _ => .throw e
  | .look k, f => .look fun d => (k d).bind f
  | .select k, f => .select fun s => (k s).bind f
  | .update g k, f => .update g (k.bind f)
  | .act g k, f => .act g (k.bind f)

instance : Monad (Session σ δ ε) where
  pure := .pure
  bind := .bind

/-- Ask the disk. -/
def onDisk (f : δ → α) : Session σ δ ε α := .look fun d => .pure (f d)

/-- Read the database. -/
def query (f : σ → α) : Session σ δ ε α := .select fun s => .pure (f s)

/-- Write to the database. -/
def execute (f : σ → σ) : Session σ δ ε Unit := .update f (.pure ())

/-- A step on the disk. -/
def disk (f : δ → Option δ) : Session σ δ ε Unit := .act f (.pure ())

/-- A statement that may fail and changes nothing the model keeps. -/
def attempt : Session σ δ ε Unit := disk some

def raise (e : ε) : Session σ δ ε α := .throw e

/-- The loop `for b in l { body b }`. -/
def forEach (body : β → Session σ δ ε Unit) : List β → Session σ δ ε Unit
  | [] => .pure ()
  | b :: l => (body b).bind fun _ => forEach body l

theorem bind_assoc {γ : Type} (p : Session σ δ ε α) (f : α → Session σ δ ε β)
    (g : β → Session σ δ ε γ) : (p.bind f).bind g = p.bind fun a => (f a).bind g := by
  induction p with
  | pure a => rfl
  | throw e => rfl
  | look k ih => exact congrArg Session.look (funext ih)
  | select k ih => exact congrArg Session.select (funext ih)
  | update h k ih => exact congrArg (Session.update h) ih
  | act h k ih => exact congrArg (Session.act h) ih

theorem bind_pure (p : Session σ δ ε α) : p.bind .pure = p := by
  induction p with
  | pure a => rfl
  | throw e => rfl
  | look k ih => exact congrArg Session.look (funext ih)
  | select k ih => exact congrArg Session.select (funext ih)
  | update h k ih => exact congrArg (Session.update h) ih
  | act h k ih => exact congrArg (Session.act h) ih

/-! ## 1. A routine alone -/

/-- The routine executed alone from the tables `s` and the disk `d`. `fault` is the number of
    fallible statements that go well before one fails; `work` is the working copy. An error
    leaves the tables as they were. -/
def perform : Session σ δ ε α → Option Nat → σ → σ → δ → Except (Fault ε) α × σ × δ
  | .pure a, fault, s, work, d => if fault = some 0 then (.error .refused, s, d) else (.ok a, work, d)
  | .throw e, _, s, _, d => (.error (.raised e), s, d)
  | .look k, fault, s, work, d => (k d).perform fault s work d
  | .select k, fault, s, work, d =>
    if fault = some 0 then (.error .refused, s, d)
    else (k work).perform (fault.map Nat.pred) s work d
  | .update f k, fault, s, work, d =>
    if fault = some 0 then (.error .refused, s, d)
    else k.perform (fault.map Nat.pred) s (f work) d
  | .act f k, fault, s, work, d =>
    if fault = some 0 then (.error .refused, s, d)
    else match f d with
      | none => (.error .refused, s, d)
      | some d' => k.perform (fault.map Nat.pred) s work d'

/-- **A routine that succeeds before its fault** succeeds without one. -/
theorem perform_none {p : Session σ δ ε α} {n : Nat} {s work : σ} {d : δ} {a : α}
    (h : (p.perform (some n) s work d).1 = .ok a) :
    p.perform none s work d = p.perform (some n) s work d := by
  have hnone : (none : Option Nat) ≠ some 0 := (Option.some_ne_none 0).symm
  induction p generalizing n work d with
  | pure b =>
    rw [perform] at h
    split at h
    · cases h
    · rename_i hn
      rw [perform, perform, if_neg hn, if_neg hnone]
  | throw e => rfl
  | look k ih => exact ih d h
  | select k ih =>
    rw [perform] at h
    split at h
    · cases h
    · rename_i hn
      rw [perform, perform, if_neg hn, if_neg hnone]
      exact ih work h
  | update f k ih =>
    rw [perform] at h
    split at h
    · cases h
    · rename_i hn
      rw [perform, perform, if_neg hn, if_neg hnone]
      exact ih h
  | act f k ih =>
    rw [perform] at h
    split at h
    · cases h
    · rename_i hn
      rw [perform, perform, if_neg hn, if_neg hnone]
      cases hf : f d with
      | none => rfl
      | some d' =>
        rw [hf] at h
        exact ih h

/-- A fault in a loop of steps on the disk leaves the first steps done. -/
theorem perform_forEach (g : δ → β → δ) (l : List β) (k : Session σ δ ε α) (n : Nat)
    (s work : σ) (d : δ) :
    (forEach (fun b => disk fun d => some (g d b)) l >>= fun _ => k).perform (some n) s work d =
      if n < l.length then (.error .refused, s, (l.take n).foldl g d)
      else k.perform (some (n - l.length)) s work (l.foldl g d) := by
  induction l generalizing n d with
  | nil => rfl
  | cons b l ih =>
    cases n with
    | zero => rfl
    | succ n =>
      show (forEach (fun b => disk fun d => some (g d b)) l >>= fun _ => k).perform (some n) s work
        (g d b) = _
      rw [ih]
      simp only [List.length_cons, Nat.add_lt_add_iff_right, List.take_succ_cons,
        List.foldl_cons, Nat.add_sub_add_right]

/-- Without a fault a step on the disk is made that is not refused. -/
theorem perform_act {f : δ → Option δ} {k : Session σ δ ε α} {s work : σ} {d d' : δ}
    (h : f d = some d') : (act f k).perform none s work d = k.perform none s work d' := by
  rw [perform, if_neg (Option.some_ne_none 0).symm, h]
  rfl

/-- Without a fault the loop goes through. -/
theorem perform_forEach_none (g : δ → β → δ) (l : List β) (k : Session σ δ ε α)
    (s work : σ) (d : δ) :
    (forEach (fun b => disk fun d => some (g d b)) l >>= fun _ => k).perform none s work d =
      k.perform none s work (l.foldl g d) := by
  induction l generalizing d with
  | nil => rfl
  | cons b l ih => exact ih (g d b)

end Session

/-! ## 2. Many routines at once -/

namespace Sessions

open Snapshot (Access)

/-- A routine that is not called yet, runs, with the statements still to come, or has answered. -/
inductive Call (σ δ ε α : Type) where
  | waiting
  | active (access : Access σ) (rest : Session σ δ ε α)
  | done (result : Except (Fault ε) α)

/-- The database, the disk and the routines. `version` counts the versions published. -/
structure State (ι σ δ ε α : Type) where
  latest : σ
  version : Nat
  lock : Option ι
  disk : δ
  calls : ι → Call σ δ ε α

namespace State

variable {ι σ δ ε α : Type} [DecidableEq ι]

def set (st : State ι σ δ ε α) (i : ι) (c : Call σ δ ε α) : State ι σ δ ε α :=
  { st with calls := Function.update st.calls i c }

/-- Routine `i` answers without publishing anything; a lock it holds is free again. -/
def finish (st : State ι σ δ ε α) (i : ι) (r : Except (Fault ε) α) : State ι σ δ ε α :=
  { st.set i (.done r) with lock := if st.lock = some i then none else st.lock }

/-- The version a transaction that has not written works on. -/
def opened (st : State ι σ δ ε α) : Access σ → Nat × σ
  | .snapshot v s => (v, s)
  | _ => (st.version, st.latest)

/-- Routine `i` is called. -/
def start (st : State ι σ δ ε α) (i : ι) (p : Session σ δ ε α) : Option (State ι σ δ ε α) :=
  match st.calls i with
  | .waiting => some (st.set i (.active .unopened p))
  | _ => none

/-- One statement of routine `i`. `none` is a routine that does not run, or a write that waits for
    the lock. -/
def next (st : State ι σ δ ε α) (i : ι) : Option (State ι σ δ ε α) :=
  match st.calls i with
  | .waiting => none
  | .done _ => none
  | .active (.writer w) (.pure a) =>
    some { st.set i (.done (.ok a)) with latest := w, version := st.version + 1, lock := none }
  | .active _ (.pure a) => some (st.finish i (.ok a))
  | .active _ (.throw e) => some (st.finish i (.error (.raised e)))
  | .active acc (.look k) => some (st.set i (.active acc (k st.disk)))
  | .active (.writer w) (.select k) => some (st.set i (.active (.writer w) (k w)))
  | .active acc (.select k) =>
    some (st.set i (.active (.snapshot (st.opened acc).1 (st.opened acc).2) (k (st.opened acc).2)))
  | .active (.writer w) (.update f k) => some (st.set i (.active (.writer (f w)) k))
  | .active acc (.update f k) =>
    if (st.opened acc).1 ≠ st.version then some (st.finish i (.error .refused))
    else if st.lock = none then
      some { st.set i (.active (.writer (f (st.opened acc).2)) k) with lock := some i }
    else none
  | .active acc (.act f k) =>
    match f st.disk with
    | none => some (st.finish i (.error .refused))
    | some d => some { st.set i (.active acc k) with disk := d }

/-- A statement of routine `i` fails, or the routine is given up. -/
def fail (st : State ι σ δ ε α) (i : ι) : Option (State ι σ δ ε α) :=
  match st.calls i with
  | .active _ _ => some (st.finish i (.error .refused))
  | _ => none

/-- The process ends; its routines are given up. -/
def crash (st : State ι σ δ ε α) : State ι σ δ ε α :=
  { st with
    lock := none
    calls := fun i => match st.calls i with
      | .active _ _ => .done (.error .refused)
      | c => c }

/-- Another connection writes to the database; it waits while there is a writer. -/
def publish (st : State ι σ δ ε α) (f : σ → Option σ) : Option (State ι σ δ ε α) :=
  if st.lock = none then (f st.latest).map fun s => { st with latest := s, version := st.version + 1 }
  else none

end State

/-! ### What a statement does -/

section Next

variable {ι σ δ ε α : Type} [DecidableEq ι] {st st' : State ι σ δ ε α} {i : ι} {acc : Access σ}
  {w : σ} {d : δ}

theorem set_calls_self (st : State ι σ δ ε α) (i : ι) (c : Call σ δ ε α) :
    (st.set i c).calls i = c := Function.update_self _ _ _

theorem set_calls_ne (st : State ι σ δ ε α) {i j : ι} (c : Call σ δ ε α) (h : j ≠ i) :
    (st.set i c).calls j = st.calls j := Function.update_of_ne h _ _

theorem start_eq_some {p : Session σ δ ε α} (h : st.start i p = some st') :
    st' = st.set i (.active .unopened p) := by
  unfold State.start at h
  split at h
  · exact (Option.some.inj h).symm
  · cases h

theorem next_commit {a : α} (hi : st.calls i = .active (.writer w) (.pure a)) : st.next i =
    some { st.set i (.done (.ok a)) with latest := w, version := st.version + 1, lock := none } := by
  rw [State.next, hi]

theorem next_throw {e : ε} (hi : st.calls i = .active acc (.throw e)) :
    st.next i = some (st.finish i (.error (.raised e))) := by
  cases acc <;> rw [State.next, hi]

theorem next_look {k : δ → Session σ δ ε α} (hi : st.calls i = .active acc (.look k)) :
    st.next i = some (st.set i (.active acc (k st.disk))) := by
  cases acc <;> rw [State.next, hi]

/-- The first read opens a snapshot of the latest version. -/
theorem next_select {k : σ → Session σ δ ε α} (hi : st.calls i = .active .unopened (.select k)) :
    st.next i = some (st.set i (.active (.snapshot st.version st.latest) (k st.latest))) := by
  rw [State.next, hi]
  rfl

/-- The first write is refused on an outdated snapshot, and else takes the lock. -/
theorem next_update {v : Nat} {s : σ} {f : σ → σ} {k : Session σ δ ε α}
    (hi : st.calls i = .active (.snapshot v s) (.update f k)) (h : st.next i = some st') :
    st' = st.finish i (.error .refused) ∨ v = st.version ∧ st.lock = none ∧
      st' = { st.set i (.active (.writer (f s)) k) with lock := some i } := by
  rw [State.next, hi] at h
  change (if v ≠ st.version then _ else if st.lock = none then _ else none) = some st' at h
  by_cases hv : v = st.version
  · rw [if_neg (not_not_intro hv)] at h
    split at h
    · rename_i hfree
      exact .inr ⟨hv, hfree, (Option.some.inj h).symm⟩
    · cases h
  · rw [if_pos hv] at h
    exact .inl (Option.some.inj h).symm

theorem next_act {f : δ → Option δ} {k : Session σ δ ε α}
    (hi : st.calls i = .active acc (.act f k)) (h : st.next i = some st') :
    f st.disk = none ∧ st' = st.finish i (.error .refused) ∨
      ∃ d, f st.disk = some d ∧ st' = { st.set i (.active acc k) with disk := d } := by
  have hnext : st.next i = match f st.disk with
      | none => some (st.finish i (.error .refused))
      | some d => some { st.set i (.active acc k) with disk := d } := by
    cases acc <;> rw [State.next, hi]
  rw [hnext] at h
  cases hf : f st.disk with
  | none =>
    rw [hf] at h
    exact .inl ⟨rfl, (Option.some.inj h).symm⟩
  | some d =>
    rw [hf] at h
    exact .inr ⟨d, rfl, (Option.some.inj h).symm⟩

theorem fail_eq_some (h : st.fail i = some st') : st' = st.finish i (.error .refused) := by
  unfold State.fail at h
  split at h
  · exact (Option.some.inj h).symm
  · cases h

omit [DecidableEq ι] in
/-- Another connection publishes where there is no writer. -/
theorem publish_eq_some {f : σ → Option σ} (h : st.publish f = some st') : st.lock = none ∧
    ∃ s, f st.latest = some s ∧ st' = { st with latest := s, version := st.version + 1 } := by
  unfold State.publish at h
  split at h
  · rename_i hfree
    obtain ⟨s, hs, rfl⟩ := Option.map_eq_some_iff.mp h
    exact ⟨hfree, s, hs, rfl⟩
  · cases h

omit [DecidableEq ι] in
theorem crash_calls {acc : Access σ} {rest : Session σ δ ε α} (j : ι) :
    st.crash.calls j ≠ .active acc rest := by
  simp only [State.crash]
  split
  · exact fun h => by cases h
  · rename_i hno
    exact hno acc rest

omit [DecidableEq ι] in
theorem crash_calls_ok {a : α} (j : ι) :
    st.crash.calls j = .done (.ok a) ↔ st.calls j = .done (.ok a) := by
  simp only [State.crash]
  split
  · simp_all
  · rfl

end Next

/-! ## 3. Snapshots and the lock -/

variable {ι σ δ ε α : Type}

/-- A snapshot that is not outdated is the latest version; only the writer holds the lock. -/
structure Coherent (st : State ι σ δ ε α) : Prop where
  writer : ∀ i w rest, st.calls i = .active (.writer w) rest → st.lock = some i
  snapshot : ∀ i v s rest, st.calls i = .active (.snapshot v s) rest →
    v ≤ st.version ∧ (v = st.version → s = st.latest)

section Steps

variable [DecidableEq ι] {st st' : State ι σ δ ε α} {i : ι}

omit [DecidableEq ι] in
theorem coherent_init {db : σ} {d : δ} :
    Coherent (⟨db, 0, none, d, fun _ => .waiting⟩ : State ι σ δ ε α) where
  writer := fun _ _ _ h => by cases h
  snapshot := fun _ _ _ _ h => by cases h

/-- A step that leaves the database alone and gives routine `i` no snapshot and no lock it did
    not have. -/
theorem coherent_keep (h : Coherent st) (hcalls : ∀ j, j ≠ i → st'.calls j = st.calls j)
    (hversion : st'.version = st.version) (hlatest : st'.latest = st.latest)
    (hlock : ∀ j, j ≠ i → st.lock = some j → st'.lock = some j)
    (hwriter : ∀ w rest, st'.calls i = .active (.writer w) rest → st'.lock = some i)
    (hsnapshot : ∀ v s rest, st'.calls i = .active (.snapshot v s) rest →
      v ≤ st.version ∧ (v = st.version → s = st.latest)) : Coherent st' where
  writer := fun j w rest hj => by
    by_cases hji : j = i
    · rw [hji] at hj ⊢
      exact hwriter w rest hj
    · exact hlock j hji (h.writer j w rest ((hcalls j hji).symm.trans hj))
  snapshot := fun j v s rest hj => by
    rw [hversion, hlatest]
    by_cases hji : j = i
    · rw [hji] at hj
      exact hsnapshot v s rest hj
    · exact h.snapshot j v s rest ((hcalls j hji).symm.trans hj)

/-- The routine goes on with the access it has. -/
theorem coherent_same (h : Coherent st) {acc : Access σ} {rest rest' : Session σ δ ε α}
    (hi : st.calls i = .active acc rest) (d : δ) :
    Coherent { st.set i (.active acc rest') with disk := d } := by
  refine coherent_keep h (i := i) (fun j hj => set_calls_ne st _ hj) rfl rfl
    (fun j _ hl => hl) (fun w r hc => ?_) (fun v s r hc => ?_)
  · have hacc := (set_calls_self st i (.active acc rest')).symm.trans hc
    cases hacc
    exact h.writer i w rest hi
  · have hacc := (set_calls_self st i (.active acc rest')).symm.trans hc
    cases hacc
    exact h.snapshot i v s rest hi

theorem coherent_finish (h : Coherent st) (r : Except (Fault ε) α) : Coherent (st.finish i r) := by
  refine coherent_keep h (i := i) (fun j hj => set_calls_ne st _ hj) rfl rfl
    (fun j hj hl => ?_) (fun w rest hc => ?_) (fun v s rest hc => ?_)
  · show (if st.lock = some i then none else st.lock) = some j
    rw [if_neg, hl]
    rw [hl]
    exact fun e => hj (Option.some.inj e)
  · cases (set_calls_self st i (.done r)).symm.trans hc
  · cases (set_calls_self st i (.done r)).symm.trans hc

omit [DecidableEq ι] in
/-- A new version outdates every snapshot; there is no other writer. -/
theorem coherent_version (h : Coherent st) (hversion : st'.version = st.version + 1)
    (hwriter : ∀ j w rest, st'.calls j ≠ .active (.writer w) rest)
    (hcalls : ∀ j acc rest, st'.calls j = .active acc rest → st.calls j = .active acc rest) :
    Coherent st' where
  writer := fun j w rest hj => absurd hj (hwriter j w rest)
  snapshot := fun j v s rest hj => by
    have hle := (h.snapshot j v s rest (hcalls j _ rest hj)).1
    rw [hversion]
    exact ⟨Nat.le_succ_of_le hle, fun e => absurd e (by omega)⟩

/-- **Every statement keeps snapshots and lock coherent.** -/
theorem coherent_next (h : Coherent st) (hs : st.next i = some st') : Coherent st' := by
  unfold State.next at hs
  split at hs
  · cases hs
  · cases hs
  · rename_i w a hi
    cases hs
    refine coherent_version h rfl (fun j w' rest hj => ?_) (fun j acc rest hj => ?_)
    · by_cases hji : j = i
      · rw [hji] at hj
        cases (set_calls_self st i (.done (.ok a))).symm.trans hj
      · have hlock := h.writer j w' rest ((set_calls_ne st _ hji).symm.trans hj)
        rw [h.writer i w _ hi] at hlock
        exact hji (Option.some.inj hlock).symm
    · by_cases hji : j = i
      · rw [hji] at hj
        cases (set_calls_self st i (.done (.ok a))).symm.trans hj
      · exact (set_calls_ne st _ hji).symm.trans hj
  · cases hs
    exact coherent_finish h _
  · cases hs
    exact coherent_finish h _
  · rename_i hi
    cases hs
    exact coherent_same h hi st.disk
  · rename_i hi
    cases hs
    exact coherent_same h hi st.disk
  · rename_i acc k hno hi
    cases hs
    refine coherent_keep h (i := i) (fun j hj => set_calls_ne st _ hj) rfl rfl
      (fun j _ hl => hl) (fun w rest hc => ?_) (fun v s rest hc => ?_)
    · cases (set_calls_self st i _).symm.trans hc
    · have hacc := (set_calls_self st i _).symm.trans hc
      cases hacc
      cases acc with
      | unopened => exact ⟨Nat.le_refl _, fun _ => rfl⟩
      | snapshot v s => exact h.snapshot i v s _ hi
      | writer w => exact absurd rfl (hno w)
  · rename_i w f k hi
    cases hs
    refine coherent_keep h (i := i) (fun j hj => set_calls_ne st _ hj) rfl rfl
      (fun j _ hl => hl) (fun w' rest hc => h.writer i w _ hi) (fun v s rest hc => ?_)
    cases (set_calls_self st i _).symm.trans hc
  · split at hs
    · cases hs
      exact coherent_finish h _
    · split at hs
      · rename_i hfree
        cases hs
        refine coherent_keep h (i := i) (fun j hj => set_calls_ne st _ hj) rfl rfl
          (fun j hj hl => ?_) (fun w' rest hc => rfl) (fun v s rest hc => ?_)
        · rw [hfree] at hl
          cases hl
        · cases (set_calls_self st i _).symm.trans hc
      · cases hs
  · rename_i hi
    split at hs
    · cases hs
      exact coherent_finish h _
    · cases hs
      exact coherent_same h hi _

theorem coherent_start (h : Coherent st) {p : Session σ δ ε α} (hs : st.start i p = some st') :
    Coherent st' := by
  rw [start_eq_some hs]
  refine coherent_keep h (i := i) (fun j hj => set_calls_ne st _ hj) rfl rfl
    (fun j _ hl => hl) (fun w r hc => ?_) (fun v s r hc => ?_)
  · cases (set_calls_self st i _).symm.trans hc
  · cases (set_calls_self st i _).symm.trans hc

omit [DecidableEq ι] in
theorem coherent_crash (st : State ι σ δ ε α) : Coherent st.crash :=
  ⟨fun j _ _ hj => absurd hj (crash_calls j), fun j _ _ _ hj => absurd hj (crash_calls j)⟩

omit [DecidableEq ι] in
theorem coherent_publish (h : Coherent st) {f : σ → Option σ} (hs : st.publish f = some st') :
    Coherent st' := by
  obtain ⟨hfree, s, _, rfl⟩ := publish_eq_some hs
  refine coherent_version h rfl (fun j w rest hj => ?_) (fun j acc rest hj => hj)
  have hlock := h.writer j w rest hj
  rw [hfree] at hlock
  cases hlock

omit [DecidableEq ι] in
/-- A change of the disk is no matter of the database. -/
theorem coherent_disk (h : Coherent st) (d : δ) : Coherent { st with disk := d } :=
  ⟨h.writer, h.snapshot⟩

end Steps

end Sessions

end Foundation
