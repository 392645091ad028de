/-
  File:      Beacon/Delivery/Rows.lean
  Subject:   One row of the notification queue under the calls of the store.

  Claim, complete and fail carry conditions on a row, `accept` only adds rows. `RowStep` is the
  list of what a call can do to one row, guards included; every later invariant of the queue is
  read off it. `Sound` is what the delivery columns of a row say about each other, `Terminal`
  the rows no call changes.

  * `row_step`, `row_origin` -- every row of the tables after a call is the step of a row before
    it or a fresh job;
  * `RowStep.sound` -- the steps keep `Sound`;
  * `RowStep.attempts_le`, `RowStep.terminal` -- **attempts only grow, terminal rows stay**.
-/
import Beacon.Server.Queue

namespace Beacon

open Foundation

/-! ## 1. Steps of a row -/

/-- What a call of the store does to a row. -/
inductive RowStep : Op → NotificationRow → NotificationRow → Prop
  | same (op : Op) (r : NotificationRow) : RowStep op r r
  | claim (now : DateTime) (maxAttempts : Nat) (r : NotificationRow)
      (hdue : r.due maxAttempts now.toRfc3339 (staleBefore now).toRfc3339 = true) :
      RowStep (.claim now maxAttempts) r (r.claim now)
  | complete (now : DateTime) (r : NotificationRow) (hs : r.status = .inFlight) :
      RowStep (.complete r.id now) r (r.complete now)
  | fail (update : NotificationFailureUpdate) (next : String) (r : NotificationRow)
      (hs : r.status = .inFlight) (hnext : update.nextAttemptAt = some next) :
      RowStep (.fail r.id update) r (r.fail next update.error update.retryable)

theorem hasId_iff {id : Nat} {r : NotificationRow} : r.hasId id = true ↔ r.id = id := by
  unfold NotificationRow.hasId
  rw [decide_eq_true_eq]

theorem isClaimed_iff {id : Nat} {r : NotificationRow} :
    r.isClaimed id = true ↔ r.id = id ∧ r.status = .inFlight := by
  unfold NotificationRow.isClaimed
  rw [Bool.and_eq_true, decide_eq_true_eq, decide_eq_true_eq]

/-- The first due row is a row, is due, and is the one its id selects. -/
theorem firstDue_eq_some {db : Db} {maxAttempts : Nat} {now : DateTime} {row : NotificationRow}
    (h : db.firstDue maxAttempts now = some row) :
    db.notifications.get? row.id = some row ∧
      row.due maxAttempts now.toRfc3339 (staleBefore now).toRfc3339 = true :=
  ⟨NotificationTable.get?_of_mem (List.mem_of_find?_eq_some h), List.find?_some h⟩

theorem updated_row {db : Db} {id : Nat} {r : NotificationRow} {p : NotificationRow → Bool}
    {f : NotificationRow → NotificationRow} {hf : ∀ r, (f r).fixed = r.fixed}
    (h : db.notifications.get? id = some r) :
    (db.updateNotifications p f hf).notifications.get? id = some (if p r then f r else r) :=
  (NotificationTable.get?_updateWhere _ p f hf id).trans (congrArg _ h)

/-- A row that an update leaves behind was there before. -/
theorem get?_of_updated {db : Db} {id : Nat} {r' : NotificationRow} {p : NotificationRow → Bool}
    {f : NotificationRow → NotificationRow} {hf : ∀ r, (f r).fixed = r.fixed}
    (h : (db.updateNotifications p f hf).notifications.get? id = some r') :
    db.notifications.get? id ≠ none := by
  intro hnone
  have hmap : (db.updateNotifications p f hf).notifications.get? id = none :=
    (NotificationTable.get?_updateWhere _ p f hf id).trans (congrArg _ hnone)
  rw [hmap] at h
  cases h

section Calls

variable [Formats] (store : ServerEventStore)

/-- **A row after a call is the step of the row before it.** -/
theorem row_step {db : Db} {id : Nat} {r : NotificationRow} (op : Op)
    (h : db.notifications.get? id = some r) :
    ∃ r', (op.perform store db).2.notifications.get? id = some r' ∧ RowStep op r r' := by
  have hid : r.id = id := (NotificationTable.get?_eq_some.mp h).2
  cases op with
  | accept call =>
    rcases perform_accept_tables store db call with ⟨_, _, events, _, hdb⟩ | ⟨_, hdb⟩
    · rw [hdb]
      have hins := NotificationTable.get?_insertAll db.notifications
        (store.messagesFor call.event (db.alertAfter call.event)) call.queuedAt.toRfc3339 id
      rcases hins with hins | ⟨habs, _⟩
      · exact ⟨r, hins.trans h, .same _ r⟩
      · rw [h] at habs
        cases habs
    · rw [hdb]
      exact ⟨r, h, .same _ r⟩
  | claim now maxAttempts =>
    rw [perform_claim]
    cases hd : db.firstDue maxAttempts now with
    | none => exact ⟨r, h, .same _ r⟩
    | some row =>
      obtain ⟨hrow, hdue⟩ := firstDue_eq_some hd
      refine ⟨if r.hasId row.id then r.claim now else r, updated_row h, ?_⟩
      split
      · rename_i hsel
        rw [← hasId_iff.mp hsel, hid, h] at hrow
        cases hrow
        exact .claim now maxAttempts r hdue
      · exact .same _ r
  | complete i now =>
    rw [perform_complete]
    refine ⟨if r.isClaimed i then r.complete now else r, updated_row h, ?_⟩
    split
    · rename_i hsel
      obtain ⟨rfl, hs⟩ := isClaimed_iff.mp hsel
      exact .complete now r hs
    · exact .same _ r
  | fail i update =>
    rw [perform_fail]
    cases hn : update.nextAttemptAt with
    | none => exact ⟨r, h, .same _ r⟩
    | some next =>
      refine ⟨if r.isClaimed i then r.fail next update.error update.retryable else r,
        updated_row h, ?_⟩
      split
      · rename_i hsel
        obtain ⟨rfl, hs⟩ := isClaimed_iff.mp hsel
        exact .fail update next r hs hn
      · exact .same _ r

/-- **A row after a call is a row of before or a fresh job.** -/
theorem row_origin {db : Db} {id : Nat} {r' : NotificationRow} (op : Op)
    (h : (op.perform store db).2.notifications.get? id = some r') :
    (∃ r, db.notifications.get? id = some r ∧ RowStep op r r') ∨
      ∃ m at', r' = NotificationTable.newRow id m at' := by
  cases hid : db.notifications.get? id with
  | some r =>
    obtain ⟨r'', hget, hstep⟩ := row_step store op hid
    rw [h] at hget
    cases hget
    exact .inl ⟨r, rfl, hstep⟩
  | none =>
    cases op with
    | accept call =>
      rcases perform_accept_tables store db call with ⟨_, _, events, _, hdb⟩ | ⟨_, hdb⟩
      · rw [hdb] at h
        have hins := NotificationTable.get?_insertAll db.notifications
          (store.messagesFor call.event (db.alertAfter call.event)) call.queuedAt.toRfc3339 id
        rcases hins with hins | ⟨_, m, hins⟩
        · rw [hid] at hins
          exact absurd (h.symm.trans hins) nofun
        · exact .inr ⟨m, _, Option.some.inj (h.symm.trans hins)⟩
      · rw [hdb, hid] at h
        cases h
    | claim now maxAttempts =>
      rw [perform_claim] at h
      split at h
      · rw [hid] at h
        cases h
      · exact absurd hid (get?_of_updated h)
    | complete i now =>
      rw [perform_complete] at h
      exact absurd hid (get?_of_updated h)
    | fail i update =>
      rw [perform_fail] at h
      split at h
      · rw [hid] at h
        cases h
      · exact absurd hid (get?_of_updated h)

/-- A claim rewrites the row it selects. -/
theorem get?_claim {db : Db} {now : DateTime} {maxAttempts : Nat} {row : NotificationRow}
    (h : db.firstDue maxAttempts now = some row) (id : Nat) :
    ((Op.claim now maxAttempts).perform store db).2.notifications.get? id =
      (db.notifications.get? id).map fun r => if r.id = row.id then r.claim now else r := by
  rw [perform_claim, h]
  refine (NotificationTable.get?_updateWhere _ _ (NotificationRow.claim now) (fun _ => rfl)
    id).trans ?_
  simp only [NotificationRow.hasId, decide_eq_true_eq]

end Calls

/-! ## 2. What a row says about its delivery -/

/-- The delivery columns of a row under at most `maxAttempts` attempts. -/
structure NotificationRow.Sound (maxAttempts : Nat) (r : NotificationRow) : Prop where
  bounded : r.attempts ≤ maxAttempts
  pending : r.status = .pending → r.attempts = 0
  claimed : r.claimedAt.isSome ↔ r.status = .inFlight
  sent : r.sentAt.isSome ↔ r.status = .sent

/-- The rows nothing is left to do for. -/
def NotificationRow.Terminal (maxAttempts : Nat) (r : NotificationRow) : Prop :=
  r.status = .sent ∨ (r.status = .failed ∧ r.retryable = false) ∨
    (r.status = .failed ∧ r.attempts = maxAttempts)

/-- The attempts a call may still count up to: a claim names its own bound. -/
def Op.Within (maxAttempts : Nat) : Op → Prop
  | .claim _ bound => bound = maxAttempts
  | _ => True

theorem sound_newRow (maxAttempts id : Nat) (m : Message) (at' : String) :
    (NotificationTable.newRow id m at').Sound maxAttempts where
  bounded := Nat.zero_le _
  pending := fun _ => rfl
  claimed := ⟨nofun, nofun⟩
  sent := ⟨nofun, nofun⟩

/-- The WHERE clause, read. -/
theorem due_iff {maxAttempts : Nat} {now before : String} {r : NotificationRow} :
    r.due maxAttempts now before = true ↔
      r.attempts < maxAttempts ∧
        (r.status = .pending ∨
          (r.status = .failed ∧ r.retryable = true ∧ r.nextAttemptAt ≤ now) ∨
          (r.status = .inFlight ∧ ∃ claimed, r.claimedAt = some claimed ∧ claimed ≤ before)) := by
  unfold NotificationRow.due
  simp only [Bool.and_eq_true, Bool.or_eq_true, decide_eq_true_eq, Option.any_eq_true, or_assoc,
    and_assoc]

namespace RowStep

variable {op : Op} {r r' : NotificationRow}

/-- Id and message of a row stay. -/
theorem fixed (h : RowStep op r r') : r'.fixed = r.fixed := by
  cases h <;> rfl

/-- **Attempts never decrease.** -/
theorem attempts_le (h : RowStep op r r') : r.attempts ≤ r'.attempts := by
  cases h with
  | claim => exact Nat.le_succ r.attempts
  | _ => exact Nat.le_refl r.attempts

/-- A row becomes `Sent` by the completion of its job only. -/
theorem sent (h : RowStep op r r') (hs : r'.status = .sent) :
    r' = r ∨ ∃ now, op = .complete r.id now := by
  cases h with
  | same => exact .inl rfl
  | claim => cases hs
  | complete now => exact .inr ⟨now, rfl⟩
  | fail => cases hs

/-- **The delivery columns stay sound.** -/
theorem sound {maxAttempts : Nat} (h : RowStep op r r') (hop : op.Within maxAttempts)
    (hr : r.Sound maxAttempts) : r'.Sound maxAttempts := by
  cases h with
  | same => exact hr
  | claim now bound _ hdue =>
    obtain ⟨hlt, hcase⟩ := due_iff.mp hdue
    have hbound : bound = maxAttempts := hop
    have hunsent : r.sentAt.isSome ↔ False := by
      rw [hr.sent, iff_false]
      rcases hcase with hs | ⟨hs, _⟩ | ⟨hs, _⟩ <;> rw [hs] <;> nofun
    exact
      { bounded := by show r.attempts + 1 ≤ maxAttempts; omega
        pending := nofun
        claimed := ⟨fun _ => rfl, fun _ => rfl⟩
        sent := by show r.sentAt.isSome ↔ JobStatus.inFlight = .sent; rw [hunsent]; exact ⟨nofun, nofun⟩ }
  | complete now _ hs =>
    exact
      { bounded := hr.bounded
        pending := nofun
        claimed := ⟨nofun, nofun⟩
        sent := ⟨fun _ => rfl, fun _ => rfl⟩ }
  | fail update next _ hs hnext =>
    have hunsent : r.sentAt.isSome ↔ False := by
      rw [hr.sent, hs]
      exact ⟨nofun, nofun⟩
    exact
      { bounded := hr.bounded
        pending := nofun
        claimed := ⟨nofun, nofun⟩
        sent := by show r.sentAt.isSome ↔ JobStatus.failed = .sent; rw [hunsent]; exact ⟨nofun, nofun⟩ }

/-- **Terminal rows are left alone**, by late calls as well. -/
theorem terminal {maxAttempts : Nat} (h : RowStep op r r') (hop : op.Within maxAttempts)
    (ht : r.Terminal maxAttempts) : r' = r := by
  have hflight : r.status ≠ .inFlight := by
    rcases ht with hs | ⟨hs, _⟩ | ⟨hs, _⟩ <;> rw [hs] <;> nofun
  cases h with
  | same => rfl
  | complete now _ hs => exact absurd hs hflight
  | fail update next _ hs hnext => exact absurd hs hflight
  | claim now bound _ hdue =>
    obtain ⟨hlt, hcase⟩ := due_iff.mp hdue
    have hbound : bound = maxAttempts := hop
    rcases hcase with hs | ⟨hs, hretry, _⟩ | ⟨hs, _⟩
    · rcases ht with ht | ⟨ht, _⟩ | ⟨ht, _⟩ <;> rw [hs] at ht <;> cases ht
    · rcases ht with ht | ⟨_, ht⟩ | ⟨_, ht⟩
      · rw [hs] at ht
        cases ht
      · rw [hretry] at ht
        cases ht
      · omega
    · exact absurd hs hflight

end RowStep

end Beacon
