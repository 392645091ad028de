/-
  File:      Beacon/Server/Queue.lean
  Subject:   The notification queue: claim, complete and fail (`server.rs`), and the operations
             of the store as one type.

  `claim_notification` is a transaction with a read and a write, `complete_notification` and
  `fail_notification` are single statements. All three change the delivery columns of at most
  one row. `Op` is a call of the store, `Op.txn` its text and `Op.perform` the call made alone.

  Times are compared as texts, as the WHERE clause does.

  * `transact_claim_*`, `transact_complete`, `transact_fail_*` -- what each call does;
  * `effect_perform`, `perform_cases` -- **a call takes one new event or updates delivery columns**,
    nothing else.
-/
import Beacon.Server.Store

namespace Beacon

open Foundation

/-! ## 1. The next attempt -/

/-- `i64` from `u64`, as the cast `as i64`. -/
def asI64 (n : Nat) : Int := if n < 2 ^ 63 then n else (n : Int) - 2 ^ 64

/-- The years a `DateTime<Utc>` can hold. -/
def chronoYears (t : DateTime) : Bool := -262143 ≤ t.date.year && t.date.year ≤ 262142

/-- `now + chrono::Duration::seconds(n)`; `none` where chrono panics. -/
def chronoAddSeconds (now : DateTime) (n : Int) : Option DateTime :=
  if n.natAbs ≤ 9223372036854775 ∧ chronoYears (now.addSeconds n) then some (now.addSeconds n)
  else none

/-- The delay of `retry_time`: exponential, with a capped exponent and saturating. -/
def retryDelay (attempts baseSeconds : Nat) : Nat :=
  min (baseSeconds * 2 ^ min (attempts - 1) 10) (2 ^ 64 - 1)

/-- The instant of the next attempt; `none` is a panic. -/
def retryInstant (now : DateTime) (attempts baseSeconds : Nat) : Option DateTime :=
  chronoAddSeconds now (asI64 (retryDelay attempts baseSeconds))

def retryTime (now : DateTime) (attempts baseSeconds : Nat) : Option String :=
  (retryInstant now attempts baseSeconds).map DateTime.toRfc3339

/-! ## 2. Claim, complete, fail -/

structure NotificationJob where
  id : Nat
  eventId : String
  fingerprint : String
  channel : String
  payload : String
  status : JobStatus
  attempts : Nat
  nextAttemptAt : String
  lastError : Option String
  retryable : Bool
  sentAt : Option String
  deriving DecidableEq, Repr

def notificationFromRow (r : NotificationRow) : NotificationJob :=
  { id := r.id
    eventId := r.eventId
    fingerprint := r.fingerprint
    channel := r.channel
    payload := r.payload
    status := r.status
    attempts := r.attempts
    nextAttemptAt := r.nextAttemptAt
    lastError := r.lastError
    retryable := r.retryable
    sentAt := r.sentAt }

/-- The job a claim of the row returns: as it was read, with the two columns the claim sets. -/
def NotificationRow.claimedJob (r : NotificationRow) : NotificationJob :=
  let job := notificationFromRow r
  { job with attempts := job.attempts + 1, status := .inFlight }

structure NotificationFailureUpdate where
  attempts : Nat
  error : String
  maxAttempts : Nat
  retryDelaySeconds : Nat
  retryable : Bool
  now : DateTime
  deriving DecidableEq, Repr

/-- The WHERE clause of `claim_notification`. A NULL `claimed_at` is before nothing. -/
def NotificationRow.due (maxAttempts : Nat) (now staleBefore : String) (r : NotificationRow) :
    Bool :=
  r.attempts < maxAttempts &&
    (r.status = .pending ||
      (r.status = .failed && r.retryable && r.nextAttemptAt ≤ now) ||
      (r.status = .inFlight && r.claimedAt.any fun claimed => claimed ≤ staleBefore))

/-- The SET clause of `claim_notification`. -/
def NotificationRow.claim (now : DateTime) (r : NotificationRow) : NotificationRow :=
  { r with status := .inFlight, attempts := r.attempts + 1, claimedAt := some now.toRfc3339 }

/-- The SET clause of `complete_notification`. -/
def NotificationRow.complete (now : DateTime) (r : NotificationRow) : NotificationRow :=
  { r with status := .sent, sentAt := some now.toRfc3339, claimedAt := none, lastError := none }

/-- The SET clause of `fail_notification`. -/
def NotificationRow.fail (nextAttemptAt error : String) (retryable : Bool) (r : NotificationRow) :
    NotificationRow :=
  { r with
    status := .failed
    nextAttemptAt := nextAttemptAt
    lastError := some error
    retryable := retryable
    claimedAt := none }

/-- `WHERE id = ?`. -/
def NotificationRow.hasId (id : Nat) (r : NotificationRow) : Bool := r.id = id

/-- `WHERE id = ? AND status = 'in_flight'`. -/
def NotificationRow.isClaimed (id : Nat) (r : NotificationRow) : Bool :=
  r.id = id && r.status = .inFlight

/-- An UPDATE of the notifications table. -/
def Db.updateNotifications (db : Db) (p : NotificationRow → Bool)
    (f : NotificationRow → NotificationRow) (hf : ∀ r, (f r).fixed = r.fixed) : Db :=
  { db with notifications := db.notifications.updateWhere p f hf }

/-- The instant up to which a claim is stale. -/
def staleBefore (now : DateTime) : DateTime := now.addSeconds (-300)

/-- `ORDER BY id LIMIT 1` over the due rows; the rows stand in id order. -/
def Db.firstDue (db : Db) (maxAttempts : Nat) (now : DateTime) : Option NotificationRow :=
  db.notifications.rows.find?
    (NotificationRow.due maxAttempts now.toRfc3339 (staleBefore now).toRfc3339)

def claimNotification (now : DateTime) (maxAttempts : Nat) :
    Prog Db StoreError (Ending (Option NotificationJob)) := do
  let row ← Prog.ask fun db => db.firstDue maxAttempts now
  match row with
  | none => pure (.rollback none)
  | some row => do
    Prog.write fun db =>
      db.updateNotifications (NotificationRow.hasId row.id) (NotificationRow.claim now) fun _ => rfl
    pure (.commit (some row.claimedJob))

def completeNotification (id : Nat) (now : DateTime) : Prog Db StoreError (Ending Unit) := do
  Prog.write fun db =>
    db.updateNotifications (NotificationRow.isClaimed id) (NotificationRow.complete now) fun _ => rfl
  pure (.commit ())

/-- The `next_attempt_at` a failure writes. -/
def NotificationFailureUpdate.nextAttemptAt (update : NotificationFailureUpdate) : Option String :=
  if !update.retryable || update.attempts ≥ update.maxAttempts then some update.now.toRfc3339
  else retryTime update.now update.attempts update.retryDelaySeconds

def failNotification (id : Nat) (update : NotificationFailureUpdate) :
    Prog Db StoreError (Ending Unit) := do
  let nextAttemptAt ← Prog.orRaise .panicked update.nextAttemptAt
  Prog.write fun db =>
    db.updateNotifications (NotificationRow.isClaimed id)
      (NotificationRow.fail nextAttemptAt update.error update.retryable) fun _ => rfl
  pure (.commit ())

section Calls

variable (db : Db)

theorem transact_claim_none {now : DateTime} {maxAttempts : Nat}
    (h : db.firstDue maxAttempts now = none) :
    Transaction.transact (claimNotification now maxAttempts) db = (.ok none, db) := by
  have hrun : (claimNotification now maxAttempts).run db = .ok (.rollback none, db) := by
    simp only [claimNotification, Prog.run_bind, Prog.run_ask, h, Except.bind, Prog.run_pure]
  exact Transaction.transact_rollback hrun

theorem transact_claim_some {now : DateTime} {maxAttempts : Nat} {row : NotificationRow}
    (h : db.firstDue maxAttempts now = some row) :
    Transaction.transact (claimNotification now maxAttempts) db =
      (.ok (some row.claimedJob),
      db.updateNotifications (NotificationRow.hasId row.id) (NotificationRow.claim now)
        fun _ => rfl) := by
  refine Transaction.transact_commit ?_
  simp only [claimNotification, Prog.run_bind, Prog.run_ask, h, Except.bind, Prog.run_write,
    Prog.run_pure]

theorem transact_complete (id : Nat) (now : DateTime) :
    Transaction.transact (completeNotification id now) db =
      (.ok (), db.updateNotifications (NotificationRow.isClaimed id) (NotificationRow.complete now)
        fun _ => rfl) := by
  refine Transaction.transact_commit ?_
  simp only [completeNotification, Prog.run_bind, Prog.run_write, Except.bind, Prog.run_pure]

theorem transact_fail_some {id : Nat} {update : NotificationFailureUpdate} {next : String}
    (h : update.nextAttemptAt = some next) :
    Transaction.transact (failNotification id update) db =
      (.ok (), db.updateNotifications (NotificationRow.isClaimed id)
        (NotificationRow.fail next update.error update.retryable) fun _ => rfl) := by
  refine Transaction.transact_commit ?_
  simp only [failNotification, h, Prog.run_bind, Prog.orRaise, Prog.run, Except.bind,
    Prog.run_write, Prog.run_pure]

theorem transact_fail_none {id : Nat} {update : NotificationFailureUpdate}
    (h : update.nextAttemptAt = none) :
    Transaction.transact (failNotification id update) db = (.error (.raised .panicked), db) := by
  refine Transaction.transact_error ?_
  simp only [failNotification, h, Prog.run_bind, Prog.orRaise, Prog.run, Except.bind]

end Calls

/-! ## 3. The operations of the store -/

/-- A call of the store. -/
inductive Op where
  | accept (call : AcceptCall)
  | claim (now : DateTime) (maxAttempts : Nat)
  | complete (id : Nat) (now : DateTime)
  | fail (id : Nat) (update : NotificationFailureUpdate)

/-- The answer of a call. -/
inductive Answer where
  | accepted (result : EventResult)
  | claimed (job : Option NotificationJob)
  | updated
  deriving DecidableEq, Repr

/-- The text of a call. -/
def Op.txn [Formats] (store : ServerEventStore) : Op → Transaction Db StoreError Answer
  | .accept call => Transaction.mapAnswer .accepted (store.accept call)
  | .claim now maxAttempts => Transaction.mapAnswer .claimed (claimNotification now maxAttempts)
  | .complete id now => Transaction.mapAnswer (fun _ => .updated) (completeNotification id now)
  | .fail id update => Transaction.mapAnswer (fun _ => .updated) (failNotification id update)

/-- The call made alone: its answer and the tables after it. -/
def Op.perform [Formats] (store : ServerEventStore) (op : Op) (db : Db) :
    Except (Fault StoreError) Answer × Db := (op.txn store).transact db

/-- The answer of a call that took a new event. -/
def tookEvent : Except (Fault StoreError) Answer → Bool
  | .ok (.accepted result) => !result.duplicate
  | _ => false

/-- How a call changes the tables: it takes a new event, or it is an UPDATE of delivery columns
    (of no row, where it changes nothing). -/
inductive Op.Effect [Formats] (store : ServerEventStore) (op : Op) (db : Db) :
    Except (Fault StoreError) Answer × Db → Prop
  | fresh (call : AcceptCall) (hop : op = .accept call) (events : EventTable)
      (hv : call.event.Valid) (h : db.events.get? call.event.eventId = none)
      (hr : events.rows = db.events.rows ++ [call.row]) :
      Effect store op db
        (.ok (.accepted ⟨false, db.alertAfter call.event⟩), store.accepted call db events)
  | update (answer : Except (Fault StoreError) Answer)
      (ha : tookEvent answer = false) (p : NotificationRow → Bool)
      (f : NotificationRow → NotificationRow) (hf : ∀ r, (f r).fixed = r.fixed) :
      Effect store op db (answer, db.updateNotifications p f hf)

theorem Db.updateNotifications_false (db : Db) :
    db.updateNotifications (fun _ => false) id (fun _ => rfl) = db := by
  have hrows : (db.notifications.updateWhere (fun _ => false) id fun _ => rfl).rows =
      db.notifications.rows := by
    rw [NotificationTable.rows_updateWhere]
    simp
  exact Db.ext rfl rfl (NotificationTable.ext_rows hrows rfl)

section Perform

variable [Formats] (store : ServerEventStore) (db : Db)

theorem Op.Effect.unchanged {store : ServerEventStore} {op : Op} {db : Db}
    {answer : Except (Fault StoreError) Answer}
    (ha : tookEvent answer = false) :
    Op.Effect store op db (answer, db) := by
  have h : Op.Effect store op db
      (answer, db.updateNotifications (fun _ => false) id fun _ => rfl) := .update answer ha _ _ _
  rwa [Db.updateNotifications_false] at h

/-- The answer of an `accept` call, wrapped. -/
theorem perform_accept (call : AcceptCall) :
    (Op.accept call).perform store db =
      ((Transaction.transact (store.accept call) db).1.map .accepted,
        (Transaction.transact (store.accept call) db).2) :=
  Transaction.transact_mapAnswer _ _ db

/-- The tables after a call: a valid event with a new id is taken, nothing else changes them. -/
theorem perform_accept_tables (call : AcceptCall) :
    (call.event.Valid ∧ db.events.get? call.event.eventId = none ∧
      ∃ events : EventTable, events.rows = db.events.rows ++ [call.row] ∧
        ((Op.accept call).perform store db).2 = store.accepted call db events) ∨
    (¬ (call.event.Valid ∧ db.events.get? call.event.eventId = none) ∧
      ((Op.accept call).perform store db).2 = db) := by
  have ho := transact_accept store call db
  rw [perform_accept]
  revert ho
  generalize Transaction.transact (store.accept call) db = o
  intro ho
  cases ho with
  | fresh events hv hid hr => exact Or.inl ⟨hv, hid, events, hr, rfl⟩
  | invalid m hv =>
    refine Or.inr ⟨fun h => ?_, rfl⟩
    have hv' : call.event.validate = .ok () := h.1
    rw [hv] at hv'
    cases hv'
  | conflict r hv hid hp => exact Or.inr ⟨fun h => absurd (hid.symm.trans h.2) nofun, rfl⟩
  | missing r hv hid hp ha => exact Or.inr ⟨fun h => absurd (hid.symm.trans h.2) nofun, rfl⟩
  | duplicate r alert hv hid hp ha =>
    exact Or.inr ⟨fun h => absurd (hid.symm.trans h.2) nofun, rfl⟩

/-- A call of `accept` leaves the rows of other ids as they are. -/
theorem get?_event_accept {call : AcceptCall} {id : String} (h : call.event.eventId ≠ id) :
    ((Op.accept call).perform store db).2.events.get? id = db.events.get? id := by
  rcases perform_accept_tables store db call with ⟨_, _, events, hr, heq⟩ | ⟨_, heq⟩
  · rw [heq]
    show events.get? id = db.events.get? id
    exact Table.get?_of_rows_snoc hr h
  · rw [heq]

theorem perform_claim (now : DateTime) (maxAttempts : Nat) :
    (Op.claim now maxAttempts).perform store db =
      match db.firstDue maxAttempts now with
      | none => (.ok (.claimed none), db)
      | some row =>
        (.ok (.claimed (some (row.claimedJob))),
          db.updateNotifications (NotificationRow.hasId row.id) (NotificationRow.claim now)
            fun _ => rfl) := by
  rw [Op.perform, Op.txn, Transaction.transact_mapAnswer]
  cases h : db.firstDue maxAttempts now with
  | none => rw [transact_claim_none db h]; rfl
  | some row => rw [transact_claim_some db h]; rfl

theorem perform_complete (id : Nat) (now : DateTime) :
    (Op.complete id now).perform store db =
      (.ok .updated, db.updateNotifications (NotificationRow.isClaimed id)
        (NotificationRow.complete now) fun _ => rfl) := by
  rw [Op.perform, Op.txn, Transaction.transact_mapAnswer, transact_complete]
  rfl

theorem perform_fail (id : Nat) (update : NotificationFailureUpdate) :
    (Op.fail id update).perform store db =
      match update.nextAttemptAt with
      | none => (.error (.raised .panicked), db)
      | some next =>
        (.ok .updated, db.updateNotifications (NotificationRow.isClaimed id)
          (NotificationRow.fail next update.error update.retryable) fun _ => rfl) := by
  rw [Op.perform, Op.txn, Transaction.transact_mapAnswer]
  cases h : update.nextAttemptAt with
  | none => rw [transact_fail_none db h]; rfl
  | some next => rw [transact_fail_some db h]; rfl

/-- **What a call of the store does.** -/
theorem effect_perform (op : Op) : Op.Effect store op db (op.perform store db) := by
  cases op with
  | accept call =>
    have ho := transact_accept store call db
    rw [perform_accept]
    revert ho
    generalize Transaction.transact (store.accept call) db = o
    intro ho
    cases ho with
    | invalid m h => exact .unchanged rfl
    | conflict row hv h hp => exact .unchanged rfl
    | missing row hv h hp ha => exact .unchanged rfl
    | duplicate row alert hv h hp ha => exact .unchanged rfl
    | fresh events hv h hr => exact .fresh call rfl events hv h hr
  | claim now maxAttempts =>
    rw [perform_claim]
    split
    · exact .unchanged rfl
    · exact .update _ rfl _ _ _
  | complete id now =>
    rw [perform_complete]
    exact .update _ rfl _ _ _
  | fail id update =>
    rw [perform_fail]
    split
    · exact .unchanged rfl
    · exact .update _ rfl _ _ _

/-- **The tables after a call**: those of a new event, or other delivery columns. -/
theorem perform_cases (op : Op) :
    (∃ call events, op = .accept call ∧ call.event.Valid ∧
      db.events.get? call.event.eventId = none ∧ events.rows = db.events.rows ++ [call.row] ∧
      op.perform store db =
        (.ok (.accepted ⟨false, db.alertAfter call.event⟩), store.accepted call db events)) ∨
    (∃ p f, ∃ hf : ∀ r, (f r).fixed = r.fixed, tookEvent (op.perform store db).1 = false ∧
      (op.perform store db).2 = db.updateNotifications p f hf) := by
  have he := effect_perform store db op
  revert he
  generalize op.perform store db = o
  intro he
  cases he with
  | fresh call hop events hv hid hr => exact .inl ⟨call, events, hop, hv, hid, hr, rfl⟩
  | update answer ha p f hf => exact .inr ⟨p, f, hf, ha, rfl⟩

end Perform

end Beacon
