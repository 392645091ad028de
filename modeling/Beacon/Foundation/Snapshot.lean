/-
  File:      Beacon/Foundation/Snapshot.lean
  Subject:   Concurrent transactions on a store with snapshots and one writer, and why every
             interleaving of them is serial.

  The store is the one of a write-ahead log read by deferred transactions:

  * a transaction has no snapshot until its first statement (`Access.unopened`);
  * from its first read on it sees the version that was the latest one then
    (`Access.snapshot`), whatever others publish meanwhile;
  * its first write needs the writer's lock and a snapshot that is still the latest version; on
    an outdated snapshot the write is refused, on a taken lock it waits;
  * the writer works on a private copy (`Access.writer`) that `commit` publishes at once;
  * every statement may also be refused by the store for reasons of its own (`Action.fail`: a
    full disk, an expired wait), and an error drops the working copy.

  Every call runs its own text, one statement per action, in any order of calls.

  * `Serial` -- what serializability says of a state: the store is the committed calls replayed
    one after the other in commit order, a failed call is not among them, and a call that
    answered was given the answer of that replay at its place (a committed call) or at the
    version it read (a call that committed nothing);
  * `serial_run` -- **every reachable state is serial**.
-/
import Mathlib.Logic.Function.Basic
import Mathlib.Data.List.Nodup
import Beacon.Foundation.Machine
import Beacon.Foundation.Program

namespace Foundation

namespace Snapshot

/-- What a running transaction holds of the store. -/
inductive Access (σ : Type) where
  | unopened
  | snapshot (version : Nat) (s : σ)
  | writer (work : σ)

/-- A call: running, with the statements still to come, or answered. `version` is the number of
    the version it worked on. -/
inductive Call (σ ε α : Type) where
  | active (access : Access σ) (rest : Transaction σ ε α)
  | done (version : Nat) (result : Except (Fault ε) α)

/-- The store. `log` names the call behind each published version, oldest first, so the number
    of the latest version is its length. -/
structure State (ι σ ε α : Type) where
  latest : σ
  log : List ι
  lock : Option ι
  calls : ι → Call σ ε α

/-- A call executes its next statement, or the store fails it. -/
inductive Action (ι : Type) where
  | next (i : ι)
  | fail (i : ι)

variable {ι σ ε α : Type} [DecidableEq ι]

namespace State

/-- Call `i` is in state `c` now. -/
def set (st : State ι σ ε α) (i : ι) (c : Call σ ε α) : State ι σ ε α :=
  { st with calls := Function.update st.calls i c }

/-- Call `i` ends without publishing anything; a lock it holds is free again. -/
def finish (st : State ι σ ε α) (i : ι) (v : Nat) (r : Except (Fault ε) α) : State ι σ ε α :=
  { st.set i (.done v r) with lock := if st.lock = some i then none else st.lock }

/-- Call `i` publishes its working copy as the next version and answers `a`. -/
def publish (st : State ι σ ε α) (i : ι) (work : σ) (a : α) : State ι σ ε α :=
  { st.set i (.done st.log.length (.ok a)) with
    latest := work, log := st.log ++ [i], lock := none }

/-- The version a transaction works on: the snapshot it has, or the latest one. -/
def opened (st : State ι σ ε α) : Access σ → Nat × σ
  | .snapshot v s => (v, s)
  | _ => (st.log.length, st.latest)

/-- A read by call `i`. -/
def query (st : State ι σ ε α) (i : ι) (k : σ → Transaction σ ε α) : Access σ → State ι σ ε α
  | .writer w => st.set i (.active (.writer w) (k w))
  | acc => st.set i (.active (.snapshot (st.opened acc).1 (st.opened acc).2) (k (st.opened acc).2))

/-- A write of call `i` on the copy `s`. -/
def exec (st : State ι σ ε α) (i : ι) (f : σ → Option σ) (k : Transaction σ ε α) (s : σ) :
    State ι σ ε α :=
  match f s with
  | none => st.finish i st.log.length (.error .refused)
  | some w => { st.set i (.active (.writer w) k) with lock := some i }

end State

/-- One action. `none` is a call that has answered, or a write that waits for the lock. -/
def step (st : State ι σ ε α) : Action ι → Option (State ι σ ε α)
  | .fail i => match st.calls i with
    | .done _ _ => none
    | .active acc _ => some (st.finish i (st.opened acc).1 (.error .refused))
  | .next i => match st.calls i with
    | .done _ _ => none
    | .active (.writer w) (.pure (.commit a)) => some (st.publish i w a)
    | .active acc (.pure (.commit a)) => some (st.finish i (st.opened acc).1 (.ok a))
    | .active acc (.pure (.rollback a)) => some (st.finish i (st.opened acc).1 (.ok a))
    | .active acc (.throw e) => some (st.finish i (st.opened acc).1 (.error (.raised e)))
    | .active acc (.query k) => some (st.query i k acc)
    | .active (.writer w) (.exec f k) => some (st.exec i f k w)
    | .active acc (.exec f k) =>
      -- the upgrade from reader to writer
      if (st.opened acc).1 ≠ st.log.length then
        some (st.finish i (st.opened acc).1 (.error .refused))
      else if st.lock = none then some (st.exec i f k (st.opened acc).2)
      else none

/-- The calls of `prog` on the store `db`; nothing has begun. -/
def machine (prog : ι → Transaction σ ε α) (db : σ) : Machine (State ι σ ε α) (Action ι) where
  init := { latest := db, log := [], lock := none, calls := fun i => .active .unopened (prog i) }
  step := step

/-! ## 1. Serial states -/

section Serial

variable (prog : ι → Transaction σ ε α) (db : σ)

/-- The calls of `log` run one after the other. -/
def replay (log : List ι) : σ := log.foldl (fun s i => ((prog i).transact s).2) db

omit [DecidableEq ι] in
theorem replay_snoc (log : List ι) (i : ι) :
    replay prog db (log ++ [i]) = ((prog i).transact (replay prog db log)).2 := by
  simp [replay]

/-- The answer `a` of call `i`, which worked on version `v`, is the serial one: the call is the
    next in the log after that version, or it published nothing and leaves that version as it
    is when it is made there. -/
def Placed (log : List ι) (i : ι) (v : Nat) (a : α) : Prop :=
  (log[v]? = some i ∧ ((prog i).transact (replay prog db (log.take v))).1 = .ok a) ∨
  (i ∉ log ∧ v ≤ log.length ∧
    (prog i).transact (replay prog db (log.take v)) = (.ok a, replay prog db (log.take v)))

/-- **Serializability** of a state of the concurrent store. -/
structure Serial (st : State ι σ ε α) : Prop where
  store : st.latest = replay prog db st.log
  once : st.log.Nodup
  answered : ∀ i v a, st.calls i = .done v (.ok a) → Placed prog db st.log i v a
  failed : ∀ i v e, st.calls i = .done v (.error e) → i ∉ st.log

/-! ## 2. The invariant -/

/-- What a running call knows: its text up to here, run on the copy it holds, has come to
    `rest`; a writer's copy started from the latest version. -/
def AccessOk (st : State ι σ ε α) (i : ι) (rest : Transaction σ ε α) : Access σ → Prop
  | .unopened => rest = prog i
  | .snapshot v s => v ≤ st.log.length ∧ s = replay prog db (st.log.take v) ∧
      (prog i).run s = rest.run s
  | .writer w => st.lock = some i ∧ (prog i).run st.latest = rest.run w

/-- The invariant of one call. -/
def CallOk (st : State ι σ ε α) (i : ι) : Prop :=
  match st.calls i with
  | .active acc rest => i ∉ st.log ∧ AccessOk prog db st i rest acc
  | .done v (.ok a) => Placed prog db st.log i v a
  | .done _ (.error _) => i ∉ st.log

/-- The invariant of the store. -/
structure Inv (st : State ι σ ε α) : Prop where
  store : st.latest = replay prog db st.log
  once : st.log.Nodup
  calls : ∀ i, CallOk prog db st i

variable {prog db}

omit [DecidableEq ι] in
theorem serial_of_inv {st : State ι σ ε α} (h : Inv prog db st) : Serial prog db st where
  store := h.store
  once := h.once
  answered i v a hi := by
    have hc := h.calls i
    rw [CallOk, hi] at hc
    exact hc
  failed i v e hi := by
    have hc := h.calls i
    rw [CallOk, hi] at hc
    exact hc

omit [DecidableEq ι] in
theorem active_ok {st : State ι σ ε α} (h : Inv prog db st) {i : ι} {acc : Access σ}
    {rest : Transaction σ ε α} (hi : st.calls i = .active acc rest) :
    i ∉ st.log ∧ AccessOk prog db st i rest acc := by
  have hc := h.calls i
  rw [CallOk, hi] at hc
  exact hc

omit [DecidableEq ι] in
/-- The copy a reader works on is a version of the log, and its text has come to `rest` on it. -/
theorem opened_ok {st : State ι σ ε α} (h : Inv prog db st) {i : ι} {acc : Access σ}
    {rest : Transaction σ ε α} (ha : AccessOk prog db st i rest acc) (hw : ∀ w, acc ≠ .writer w) :
    (st.opened acc).1 ≤ st.log.length ∧
      (st.opened acc).2 = replay prog db (st.log.take (st.opened acc).1) ∧
      (prog i).run (st.opened acc).2 = rest.run (st.opened acc).2 := by
  cases acc with
  | unopened =>
    refine ⟨Nat.le_refl _, ?_, by rw [show rest = prog i from ha]⟩
    show st.latest = replay prog db (st.log.take st.log.length)
    rw [List.take_length, h.store]
  | snapshot v s => exact ha
  | writer w => exact absurd rfl (hw w)

omit [DecidableEq ι] in
/-- A later version of the log keeps every placed answer. -/
theorem placed_publish {log : List ι} {i j : ι} {v : Nat} {a : α} (h : Placed prog db log j v a)
    (hij : j ≠ i) : Placed prog db (log ++ [i]) j v a := by
  rcases h with ⟨hv, h⟩ | ⟨hj, hv, h⟩
  · have hlt : v < log.length := by
      by_contra hge
      rw [List.getElem?_eq_none (Nat.not_lt.mp hge)] at hv
      cases hv
    refine Or.inl ⟨by rw [List.getElem?_append_left hlt, hv], ?_⟩
    rw [List.take_append_of_le_length (Nat.le_of_lt hlt)]
    exact h
  · refine Or.inr ⟨?_, ?_, ?_⟩
    · rw [List.mem_append, List.mem_singleton]
      rintro (h' | h')
      · exact hj h'
      · exact hij h'
    · rw [List.length_append]
      omega
    · rw [List.take_append_of_le_length hv]
      exact h

/-! ## 3. Every step keeps the invariant -/

omit [DecidableEq ι] in
/-- A call other than the actor keeps its invariant while nothing is published. -/
theorem callOk_keep {st st' : State ι σ ε α} {j : ι} (h : CallOk prog db st j)
    (hcall : st'.calls j = st.calls j) (hlog : st'.log = st.log) (hlatest : st'.latest = st.latest)
    (hlock : st.lock = some j → st'.lock = some j) : CallOk prog db st' j := by
  unfold CallOk at h ⊢
  rw [hcall]
  split at h
  · rename_i acc rest _
    refine ⟨by rw [hlog]; exact h.1, ?_⟩
    cases acc with
    | unopened => exact h.2
    | snapshot v s => simpa only [AccessOk, hlog] using h.2
    | writer w =>
      refine ⟨hlock h.2.1, ?_⟩
      rw [hlatest]
      exact h.2.2
  · simpa only [hlog] using h
  · simpa only [hlog] using h

/-- Replacing the state of call `i` alone. -/
theorem inv_set {st st' : State ι σ ε α} (h : Inv prog db st) {i : ι}
    (hcall : ∀ j, j ≠ i → st'.calls j = st.calls j) (hlog : st'.log = st.log)
    (hlatest : st'.latest = st.latest)
    (hlock : ∀ j, j ≠ i → st.lock = some j → st'.lock = some j)
    (hi : CallOk prog db st' i) : Inv prog db st' where
  store := by rw [hlatest, hlog]; exact h.store
  once := by rw [hlog]; exact h.once
  calls j := by
    by_cases hj : j = i
    · rw [hj]
      exact hi
    · exact callOk_keep (h.calls j) (hcall j hj) hlog hlatest (hlock j hj)

theorem set_calls_ne (st : State ι σ ε α) {i j : ι} (c : Call σ ε α) (h : j ≠ i) :
    (st.set i c).calls j = st.calls j := Function.update_of_ne h _ _

theorem set_calls_self (st : State ι σ ε α) (i : ι) (c : Call σ ε α) :
    (st.set i c).calls i = c := Function.update_self _ _ _

/-- A call that ends without publishing. -/
theorem inv_finish {st : State ι σ ε α} (h : Inv prog db st) {i : ι} {v : Nat}
    {r : Except (Fault ε) α}
    (hr : match r with
      | .ok a => Placed prog db st.log i v a
      | .error _ => i ∉ st.log) : Inv prog db (st.finish i v r) := by
  refine inv_set h (fun j hj => set_calls_ne st _ hj) rfl rfl (fun j hj hl => ?_) ?_
  · show (if st.lock = some i then none else st.lock) = some j
    rw [if_neg, hl]
    rw [hl]
    exact fun e => hj (Option.some.inj e)
  · unfold CallOk
    rw [show (st.finish i v r).calls i = .done v r from set_calls_self st i _]
    cases r with
    | ok a => exact hr
    | error e => exact hr

/-- A call that failed, or was failed by the store. -/
theorem inv_error {st : State ι σ ε α} (h : Inv prog db st) {i : ι} {acc : Access σ}
    {rest : Transaction σ ε α} (hi : st.calls i = .active acc rest) (v : Nat) (e : Fault ε) :
    Inv prog db (st.finish i v (.error e)) :=
  inv_finish h (active_ok h hi).1

/-- A call that moves on without publishing. -/
theorem inv_active {st : State ι σ ε α} (h : Inv prog db st) {i : ι} {acc acc' : Access σ}
    {rest rest' : Transaction σ ε α} (hi : st.calls i = .active acc rest)
    (hok : AccessOk prog db st i rest' acc') : Inv prog db (st.set i (.active acc' rest')) := by
  refine inv_set h (fun j hj => set_calls_ne st _ hj) rfl rfl (fun j _ hl => hl) ?_
  unfold CallOk
  rw [set_calls_self]
  refine ⟨(active_ok h hi).1, ?_⟩
  cases acc' with
  | unopened => exact hok
  | snapshot v s => exact hok
  | writer w => exact hok

/-- A read. -/
theorem inv_query {st : State ι σ ε α} (h : Inv prog db st) {i : ι} {acc : Access σ}
    {k : σ → Transaction σ ε α} (hi : st.calls i = .active acc (.query k)) :
    Inv prog db (st.query i k acc) := by
  have ha := (active_ok h hi).2
  cases acc with
  | unopened =>
    obtain ⟨hv, hs, hr⟩ := opened_ok h ha nofun
    exact inv_active h hi ⟨hv, hs, hr⟩
  | snapshot v s =>
    obtain ⟨hv, hs, hr⟩ := opened_ok h ha nofun
    exact inv_active h hi ⟨hv, hs, hr⟩
  | writer w => exact inv_active h hi ha

/-- A write on a copy that started from the latest version, by a call that has the lock or
    finds it free. -/
theorem inv_exec {st : State ι σ ε α} (h : Inv prog db st) {i : ι} {acc : Access σ} {s : σ}
    {f : σ → Option σ} {k : Transaction σ ε α} (hi : st.calls i = .active acc (.exec f k))
    (hlock : st.lock = none ∨ st.lock = some i)
    (hrun : (prog i).run st.latest = (Prog.exec f k).run s) : Inv prog db (st.exec i f k s) := by
  unfold State.exec
  split
  · exact inv_error h hi _ _
  · rename_i w hw
    refine inv_set h (fun j hj => set_calls_ne st _ hj) rfl rfl (fun j hj hl => ?_) ?_
    · rcases hlock with h' | h' <;> rw [h'] at hl <;> cases hl
      exact absurd rfl hj
    · unfold CallOk
      show match (st.set i (.active (.writer w) k)).calls i with
        | .active acc rest => _
        | .done v (.ok a) => _
        | .done _ (.error _) => _
      rw [set_calls_self]
      refine ⟨(active_ok h hi).1, rfl, ?_⟩
      show (prog i).run st.latest = k.run w
      rw [hrun]
      simp only [Prog.run, hw]

/-- A commit by the writer: the new version is the old one with the call replayed on it. -/
theorem inv_publish {st : State ι σ ε α} (h : Inv prog db st) {i : ι} {w : σ} {a : α}
    (hi : st.calls i = .active (.writer w) (.pure (.commit a))) :
    Inv prog db (st.publish i w a) := by
  obtain ⟨hnot, hlock, hrun⟩ := active_ok h hi
  have ht : (prog i).transact (replay prog db st.log) = (.ok a, w) := by
    rw [← h.store]
    exact Transaction.transact_commit hrun
  refine ⟨?_, ?_, fun j => ?_⟩
  · show w = replay prog db (st.log ++ [i])
    rw [replay_snoc, ht]
  · exact List.nodup_append.mpr ⟨h.once, List.nodup_singleton i, fun x hx y hy e => by
      rw [List.mem_singleton] at hy
      exact hnot (hy ▸ e ▸ hx)⟩
  · unfold CallOk
    by_cases hj : j = i
    · subst hj
      rw [show (st.publish j w a).calls j = .done st.log.length (.ok a) from set_calls_self st j _]
      refine Or.inl ⟨?_, ?_⟩
      · show (st.log ++ [j])[st.log.length]? = some j
        rw [List.getElem?_concat_length]
      · show ((prog j).transact (replay prog db ((st.log ++ [j]).take st.log.length))).1 = .ok a
        rw [List.take_left, ht]
    · rw [show (st.publish i w a).calls j = st.calls j from set_calls_ne st _ hj]
      have hc := h.calls j
      unfold CallOk at hc
      have hmem : j ∉ st.log → j ∉ st.log ++ [i] := by
        rw [List.mem_append, List.mem_singleton]
        rintro h' (h'' | h'')
        · exact h' h''
        · exact hj h''
      split at hc
      · rename_i acc rest _
        refine ⟨hmem hc.1, ?_⟩
        cases acc with
        | unopened => exact hc.2
        | snapshot v s =>
          obtain ⟨hv, hs, hr⟩ := hc.2
          refine ⟨?_, ?_, hr⟩
          · show v ≤ (st.log ++ [i]).length
            rw [List.length_append]
            omega
          · show s = replay prog db ((st.log ++ [i]).take v)
            rw [List.take_append_of_le_length hv]
            exact hs
        | writer w' =>
          -- two writers: excluded by the lock
          have := hc.2.1
          rw [hlock] at this
          exact absurd (Option.some.inj this).symm hj
      · exact placed_publish hc hj
      · exact hmem hc

omit [DecidableEq ι] in
/-- An answer without a published version is placed at the version the call read. -/
theorem placed_unpublished {st : State ι σ ε α} (h : Inv prog db st) {i : ι} {acc : Access σ}
    {e : Ending α} {a : α} (hi : st.calls i = .active acc (.pure e))
    (he : e = .rollback a ∨ (e = .commit a ∧ ∀ w, acc ≠ .writer w)) :
    Placed prog db st.log i (st.opened acc).1 a := by
  obtain ⟨hnot, ha⟩ := active_ok h hi
  refine Or.inr ⟨hnot, ?_⟩
  by_cases hw : ∃ w, acc = .writer w
  · obtain ⟨w, rfl⟩ := hw
    rcases he with rfl | ⟨_, he⟩
    · refine ⟨Nat.le_refl _, ?_⟩
      show (prog i).transact (replay prog db (st.log.take st.log.length)) =
        (.ok a, replay prog db (st.log.take st.log.length))
      rw [List.take_length, ← h.store]
      exact Transaction.transact_rollback ha.2
    · exact absurd rfl (he w)
  · obtain ⟨hv, hs, hr⟩ := opened_ok h ha (fun w e => hw ⟨w, e⟩)
    refine ⟨hv, ?_⟩
    rw [← hs]
    rcases he with rfl | ⟨rfl, _⟩
    · exact Transaction.transact_rollback hr
    · exact Transaction.transact_commit hr

/-- **Every step keeps the invariant.** -/
theorem inv_step {st st' : State ι σ ε α} (h : Inv prog db st) (a : Action ι)
    (hs : step st a = some st') : Inv prog db st' := by
  cases a with
  | fail i =>
    simp only [step] at hs
    split at hs
    · cases hs
    · rename_i acc rest hi
      cases hs
      exact inv_error h hi _ _
  | next i =>
    simp only [step] at hs
    split at hs
    · cases hs
    · rename_i w a hi
      cases hs
      exact inv_publish h hi
    · rename_i acc a hw hi
      cases hs
      exact inv_finish h (placed_unpublished h hi (Or.inr ⟨rfl, fun w e => hw w e⟩))
    · rename_i acc a hi
      cases hs
      exact inv_finish h (placed_unpublished h hi (Or.inl rfl))
    · rename_i acc e hi
      cases hs
      exact inv_error h hi _ _
    · rename_i acc k hi
      cases hs
      exact inv_query h hi
    · rename_i w f k hi
      cases hs
      have ha := (active_ok h hi).2
      exact inv_exec h hi (Or.inr ha.1) ha.2
    · rename_i acc f k hw hi
      split at hs
      · cases hs
        exact inv_error h hi _ _
      · rename_i hv
        split at hs
        · rename_i hlock
          cases hs
          obtain ⟨_, hs', hr⟩ := opened_ok h (active_ok h hi).2 (fun w e => hw w e)
          refine inv_exec h hi (Or.inl hlock) ?_
          -- the snapshot is still the latest version
          have hlat : (st.opened acc).2 = st.latest := by
            rw [hs', Classical.not_not.mp hv, List.take_length, h.store]
          rw [← hlat]
          exact hr
        · cases hs

/-- **Every reachable state of the concurrent store is serial.** -/
theorem serial_run (prog : ι → Transaction σ ε α) (db : σ) (as : List (Action ι)) :
    Serial prog db ((machine prog db).run as) := by
  refine serial_of_inv (Machine.invariant (M := machine prog db) ?_
    (fun st a st' h hs => inv_step h a hs) as)
  exact ⟨rfl, List.nodup_nil, fun i => ⟨List.not_mem_nil, rfl⟩⟩

end Serial

end Snapshot

end Foundation
