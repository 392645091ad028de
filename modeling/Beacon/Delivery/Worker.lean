/-
  File:      Beacon/Delivery/Worker.lean
  Subject:   The one notification worker of a server.

  The server runs `deliver_due` in one thread, so between claim and report nobody else touches
  the job the worker holds: its row is in flight since this claim, with the attempt the job
  carries. Rows that nobody holds change by a further claim only.

  * `held_run` -- **the row of the job in hand**, in every reachable state;
  * `later_run_row` -- what a row is later on, if its attempts have not grown.
-/
import Beacon.Delivery.Workers

namespace Beacon

open Foundation

/-- The worker is between the claim of a job and its report. -/
def Phase.Holds : Phase → DateTime → NotificationJob → Prop
  | .sending now _ job, t, j => t = now ∧ j = job
  | .reporting now _ job _, t, j => t = now ∧ j = job
  | _, _, _ => False

def NotificationJob.message (job : NotificationJob) : Message :=
  ⟨job.eventId, job.fingerprint, job.channel, job.payload⟩

/-- The row of the job the worker holds is as the claim left it. -/
def Workers.Held (s : Workers Unit) : Prop :=
  ∀ now job, (s.phase ()).Holds now job → ∃ r, s.db.notifications.get? job.id = some r ∧
    r.status = .inFlight ∧ r.attempts = job.attempts ∧ r.claimedAt = some now.toRfc3339 ∧
    r.toMessage = job.message

/-- The row `r'` later on, from the row `r`: attempts do not decrease, and with as many attempts it
    is the same row, or its attempt has been reported. -/
def NotificationRow.Later (r r' : NotificationRow) : Prop :=
  r.attempts ≤ r'.attempts ∧
    (r'.attempts = r.attempts → r' = r ∨ (r.status = .inFlight ∧ r'.status ≠ .inFlight))

theorem NotificationRow.Later.refl (r : NotificationRow) : r.Later r :=
  ⟨Nat.le_refl _, fun _ => .inl rfl⟩

theorem NotificationRow.Later.trans {r r' r'' : NotificationRow} (h : r.Later r')
    (h' : r'.Later r'') : r.Later r'' := by
  refine ⟨Nat.le_trans h.1 h'.1, fun ha => ?_⟩
  have ha' : r'.attempts = r.attempts :=
    Nat.le_antisymm (Nat.le_trans h'.1 (Nat.le_of_eq ha)) h.1
  rcases h.2 ha' with rfl | ⟨hf, hs⟩
  · exact h'.2 ha
  · rcases h'.2 (ha.trans ha'.symm) with rfl | ⟨hf', _⟩
    · exact .inr ⟨hf, hs⟩
    · exact absurd hf' hs

theorem RowStep.later {op : Op} {r r' : NotificationRow} (h : RowStep op r r') : r.Later r' := by
  refine ⟨h.attempts_le, fun ha => ?_⟩
  cases h with
  | same => exact .inl rfl
  | claim => exact absurd ha (Nat.succ_ne_self r.attempts)
  | complete now _ hs => exact .inr ⟨hs, nofun⟩
  | fail update next _ hs hnext => exact .inr ⟨hs, nofun⟩

section Runs

variable [Formats] {store : ServerEventStore}

/-- Every row is there later on. -/
theorem later_run_row {ι : Type} [DecidableEq ι] {fleet : Fleet ι} (as bs : List (WorkerAction ι))
    {id : Nat} {r : NotificationRow}
    (h : ((workers store fleet).run as).db.notifications.get? id = some r) :
    ∃ r', ((workers store fleet).run (as ++ bs)).db.notifications.get? id = some r' ∧
      r.Later r' := by
  let R : Workers ι → Workers ι → Prop := fun s t => ∀ id r, s.db.notifications.get? id = some r →
    ∃ r', t.db.notifications.get? id = some r' ∧ r.Later r'
  have hsteady : R ((workers store fleet).run as) ((workers store fleet).run (as ++ bs)) := by
    refine Machine.steady (M := workers store fleet) (I := fun _ => True) (R := R) trivial
      (fun _ _ _ _ _ => trivial) (fun s id r hr => ⟨r, hr, .refl r⟩) ?_ ?_ as bs
    · intro s t u hst htu id r hr
      obtain ⟨r', hr', hl⟩ := hst id r hr
      obtain ⟨r'', hr'', hl'⟩ := htu id r' hr'
      exact ⟨r'', hr'', hl.trans hl'⟩
    · intro s a s' _ hs id r hr
      rcases step_db (step_cases hs) with hdb | ⟨op, _, hdb⟩ <;> rw [hdb]
      · exact ⟨r, hr, .refl r⟩
      · obtain ⟨r', hr', hstep⟩ := row_step store op hr
        exact ⟨r', hr', hstep.later⟩
  exact hsteady id r h

variable {fleet : Fleet Unit} {s s' : Workers Unit} {a : WorkerAction Unit}

theorem held_step (h : s.Held) (hs : s.Step store fleet a s') : s'.Held := by
  cases hs with
  | accept call =>
    intro now job hp
    obtain ⟨r, hr, hrest⟩ := h now job hp
    obtain ⟨r', hr', hstep⟩ := row_step store (.accept call) hr
    cases hstep
    exact ⟨r, hr', hrest⟩
  | start i now limit hp => exact fun _ _ hp => hp.elim
  | finish i now left hp hn => exact fun _ _ hp => hp.elim
  | crash i => exact fun _ _ hp => hp.elim
  | claim i now left row hp hrow =>
    rintro t j ⟨rfl, rfl⟩
    have hget := get?_claim store hrow row.id
    rw [(firstDue_eq_some hrow).1, Option.map_some, if_pos rfl] at hget
    exact ⟨row.claim t, hget, rfl, rfl, rfl, rfl⟩
  | send i now left job answer result hp hr =>
    rintro t j ⟨rfl, rfl⟩
    exact h t j (by rw [hp]; exact ⟨rfl, rfl⟩)
  | report i now left job answer p hp hnext =>
    intro t j hj
    rcases hnext with ⟨rfl, _⟩ | ⟨rfl, _⟩ <;> exact hj.elim

variable (store) (fleet) in
/-- **The worker holds the row of its job.** -/
theorem held_run (as : List (WorkerAction Unit)) : ((workers store fleet).run as).Held :=
  Machine.invariant (M := workers store fleet) (I := Workers.Held) (fun _ _ h => h.elim)
    (fun _ _ _ hs h => held_step hs (step_cases h)) as

end Runs

end Beacon
