/-
  File:      Beacon/Delivery/Dispatcher.lean
  Subject:   The dispatcher of notifications (`notification.rs`): `NotificationDispatcher`,
             `deliver_due`.

  A dispatcher claims the first due job, hands it to the channel of the job's name and records
  the answer, until nothing is due or the limit is reached. What a channel answers is not the
  program's to decide; it is a parameter of the call, any function of the job. A panic of
  `retry_time` ends the call with the fault.

  * `NotificationDispatcher.outcome` -- the call that records an answer;
  * `NotificationDispatcher.deliverDue` -- the loop;
  * `perform_outcome` -- **recording an answer** rewrites one claimed row, or panics.
-/
import Beacon.Delivery.Rows

namespace Beacon

open Foundation

/-! ## 1. Channels -/

/-- The error of `channel.send`: a `NotificationFailure`, or anything else. -/
inductive SendError where
  | temporary (message : String)
  | permanent (message : String)
  | other (message : String)
  deriving DecidableEq, Repr

/-- The text of the error. -/
def SendError.toString : SendError → String
  | .temporary message => "temporary notification failure: " ++ message
  | .permanent message => "permanent notification failure: " ++ message
  | .other message => message

def failureIsRetryable : SendError → Bool
  | .temporary _ => true
  | .permanent _ => false
  | .other _ => true

/-- The answer of a channel. -/
abbrev SendResult := Except SendError Unit

/-! ## 2. The dispatcher -/

/-- A dispatcher; its channels by name. -/
structure NotificationDispatcher where
  channels : List String
  maxAttempts : UInt32
  retryDelaySeconds : UInt64
  channels_ne_nil : channels ≠ []
  attempts_pos : 0 < maxAttempts.toNat

namespace NotificationDispatcher

def new (channels : List String) (maxAttempts : UInt32) (retryDelaySeconds : UInt64) :
    Except String NotificationDispatcher :=
  if hc : channels = [] then .error "notification dispatcher requires at least one channel"
  else if ha : maxAttempts.toNat = 0 then
    .error "notification dispatcher max_attempts must be positive"
  else .ok ⟨channels, maxAttempts, retryDelaySeconds, hc, Nat.pos_of_ne_zero ha⟩

variable (d : NotificationDispatcher)

/-- The `u32` bound as a number. -/
def bound : Nat := d.maxAttempts.toNat

/-- A channel of the job's name is configured. -/
def configured (job : NotificationJob) : Bool := d.channels.any fun name => name = job.channel

/-- The answer the dispatcher gets; `none` where no channel has the job's name. -/
def attempt (send : NotificationJob → SendResult) (job : NotificationJob) : Option SendResult :=
  if d.configured job then some (send job) else none

variable {d} in
theorem send_of_attempt {send : NotificationJob → SendResult} {job : NotificationJob}
    {result : SendResult} (h : d.attempt send job = some result) : send job = result := by
  unfold attempt at h
  split at h
  · exact Option.some.inj h
  · cases h

def failureUpdate (now : DateTime) (job : NotificationJob) (error : String) (retryable : Bool) :
    NotificationFailureUpdate :=
  { attempts := job.attempts
    error := error
    maxAttempts := d.bound
    retryDelaySeconds := d.retryDelaySeconds.toNat
    retryable := retryable
    now := now }

/-- The call that records the answer. -/
def outcome (now : DateTime) (job : NotificationJob) : Option SendResult → Op
  | none =>
    .fail job.id (d.failureUpdate now job "notification channel is not configured" false)
  | some (.ok ()) => .complete job.id now
  | some (.error error) =>
    .fail job.id (d.failureUpdate now job error.toString (failureIsRetryable error))

/-- The answers `deliver_due` counts. -/
def delivers : Option SendResult → Bool
  | some (.ok ()) => true
  | _ => false

/-- The loop of `deliver_due`, with `delivered` counted so far. -/
def deliverLoop [Formats] (store : ServerEventStore) (send : NotificationJob → SendResult)
    (now : DateTime) : Nat → Nat → Db → Except (Fault StoreError) Nat × Db
  | 0, delivered, db => (.ok delivered, db)
  | left + 1, delivered, db =>
    match (Op.claim now d.bound).perform store db with
    | (.error fault, db) => (.error fault, db)
    | (.ok (.claimed (some job)), db) =>
      let answer := d.attempt send job
      match (d.outcome now job answer).perform store db with
      | (.error fault, db) => (.error fault, db)
      | (.ok _, db) =>
        deliverLoop store send now left (if delivers answer then delivered + 1 else delivered) db
    | (.ok _, db) => (.ok delivered, db)

def deliverDue [Formats] (store : ServerEventStore) (send : NotificationJob → SendResult)
    (now : DateTime) (limit : Nat) (db : Db) : Except (Fault StoreError) Nat × Db :=
  d.deliverLoop store send now limit 0 db

theorem outcome_within (maxAttempts : Nat) (now : DateTime) (job : NotificationJob)
    (answer : Option SendResult) : (d.outcome now job answer).Within maxAttempts := by
  rcases answer with _ | _ | _ <;> exact trivial

variable {d} in
/-- A dispatcher completes a job that its channel has sent. -/
theorem outcome_eq_complete {now at' : DateTime} {job : NotificationJob}
    {answer : Option SendResult} {id : Nat} (h : d.outcome now job answer = .complete id at') :
    answer = some (.ok ()) ∧ id = job.id := by
  rcases answer with _ | e | _
  · cases h
  · cases h
  · cases h
    exact ⟨rfl, rfl⟩

/-- The failure is retried, and due again at once: `retry_time` is not after `now`. -/
def retriesAtOnce (now : DateTime) (job : NotificationJob) : Bool :=
  job.attempts < d.bound &&
    (retryTime now job.attempts d.retryDelaySeconds.toNat).any fun next => next ≤ now.toRfc3339

/-- How recording an answer rewrites the row of the job. -/
inductive Records (now : DateTime) (job : NotificationJob) :
    Option SendResult → (NotificationRow → NotificationRow) → Prop
  | complete : Records now job (some (.ok ())) (NotificationRow.complete now)
  | fail (answer : Option SendResult) (error next : String) (retryable : Bool)
      (hr : retryable = true → ∃ e, answer = some (.error e) ∧ failureIsRetryable e = true)
      (hnext : (d.failureUpdate now job error retryable).nextAttemptAt = some next) :
      Records now job answer (NotificationRow.fail next error retryable)

/-- **Recording an answer** rewrites the claimed row of the job, or panics on a retry time before
    the last attempt. -/
theorem perform_outcome [Formats] (store : ServerEventStore) (now : DateTime)
    (job : NotificationJob) (answer : Option SendResult) (db : Db) :
    (∃ f hf, d.Records now job answer f ∧
      (d.outcome now job answer).perform store db =
        (.ok .updated, db.updateNotifications (NotificationRow.isClaimed job.id) f hf)) ∨
      (job.attempts < d.bound ∧
        (d.outcome now job answer).perform store db = (.error (.raised .panicked), db)) := by
  have hfail : ∀ (error : String) (retryable : Bool),
      (retryable = true → ∃ e, answer = some (.error e) ∧ failureIsRetryable e = true) →
      d.outcome now job answer = .fail job.id (d.failureUpdate now job error retryable) →
      (∃ f hf, d.Records now job answer f ∧
        (d.outcome now job answer).perform store db =
          (.ok .updated, db.updateNotifications (NotificationRow.isClaimed job.id) f hf)) ∨
        (job.attempts < d.bound ∧
          (d.outcome now job answer).perform store db = (.error (.raised .panicked), db)) := by
    intro error retryable hr hop
    rw [hop, perform_fail]
    cases hnext : (d.failureUpdate now job error retryable).nextAttemptAt with
    | some next =>
      exact .inl ⟨NotificationRow.fail next error retryable, fun _ => rfl,
        .fail answer error next retryable hr hnext, rfl⟩
    | none =>
      refine .inr ⟨Nat.not_le.mp fun hge => ?_, rfl⟩
      have hlast : (d.failureUpdate now job error retryable).nextAttemptAt = some now.toRfc3339 :=
        if_pos (by rw [Bool.or_eq_true]; exact .inr (decide_eq_true hge))
      rw [hlast] at hnext
      cases hnext
  rcases answer with _ | error | _
  · exact hfail _ false nofun rfl
  · exact hfail _ _ (fun hr => ⟨error, rfl, hr⟩) rfl
  · exact .inl ⟨NotificationRow.complete now, fun _ => rfl, .complete,
      perform_complete store db job.id now⟩

variable {d}

/-- **A record panics** on a failure that is tried again, at a retry time that no clock holds. -/
theorem retryTime_of_panic [Formats] {store : ServerEventStore} {now : DateTime}
    {job : NotificationJob} {answer : Option SendResult} {db : Db}
    (h : ((d.outcome now job answer).perform store db).1 = .error (.raised .panicked)) :
    ∃ e, answer = some (.error e) ∧ failureIsRetryable e = true ∧ job.attempts < d.bound ∧
      retryTime now job.attempts d.retryDelaySeconds.toNat = none := by
  have hfail : ∀ (error : String) (retryable : Bool),
      ((Op.fail job.id (d.failureUpdate now job error retryable)).perform store db).1 =
        .error (.raised .panicked) →
      retryable = true ∧ job.attempts < d.bound ∧
        retryTime now job.attempts d.retryDelaySeconds.toNat = none := by
    intro error retryable hp
    rw [perform_fail] at hp
    cases hnext : (d.failureUpdate now job error retryable).nextAttemptAt with
    | some next =>
      rw [hnext] at hp
      cases hp
    | none =>
      unfold NotificationFailureUpdate.nextAttemptAt at hnext
      split at hnext
      · cases hnext
      · rename_i hcond
        rw [Bool.or_eq_true, not_or] at hcond
        refine ⟨?_, Nat.not_le.mp fun hge => hcond.2 (decide_eq_true hge), hnext⟩
        cases hretry : retryable with
        | false => exact absurd (congrArg Bool.not hretry) hcond.1
        | true => rfl
  rcases answer with _ | e | _
  · exact nomatch (hfail _ _ h).1
  · obtain ⟨hretry, hlt, hnone⟩ := hfail _ _ h
    exact ⟨e, rfl, hretry, hlt, hnone⟩
  · rw [show d.outcome now job (some (.ok ())) = .complete job.id now from rfl,
      perform_complete] at h
    cases h

/-- A recorded row is sent or failed. -/
theorem Records.settled {now : DateTime} {job : NotificationJob} {answer : Option SendResult}
    {f : NotificationRow → NotificationRow} (h : d.Records now job answer f)
    (r : NotificationRow) : (f r).status = .sent ∨ (f r).status = .failed := by
  cases h with
  | complete => exact .inl rfl
  | fail => exact .inr rfl

/-- **A row that is in flight after the record of an answer** was in flight before it; if it is the
    row of the job, the record panicked. -/
theorem inFlight_of_outcome [Formats] {store : ServerEventStore} {now : DateTime}
    {job : NotificationJob} {answer : Option SendResult} {db : Db} {id : Nat} {r : NotificationRow}
    (hr : ((d.outcome now job answer).perform store db).2.notifications.get? id = some r)
    (hs : r.status = .inFlight) :
    db.notifications.get? id = some r ∧ (id = job.id → job.attempts < d.bound ∧
      ((d.outcome now job answer).perform store db).1 = .error (.raised .panicked)) := by
  rcases d.perform_outcome store now job answer db with ⟨f, hf, hrec, hperf⟩ | ⟨hlt, hperf⟩
  · rw [hperf] at hr
    have hr' := (NotificationTable.get?_updateWhere _ _ f hf id).symm.trans hr
    obtain ⟨old, hold, rfl⟩ := Option.map_eq_some_iff.mp hr'
    by_cases hsel : old.isClaimed job.id = true
    · -- a recorded row is not in flight
      rw [if_pos hsel] at hs
      rcases hrec.settled old with he | he <;> rw [he] at hs <;> cases hs
    · rw [if_neg hsel] at hs ⊢
      have hid : old.id = id := (NotificationTable.get?_eq_some.mp hold).2
      exact ⟨hold, fun hjob => absurd (isClaimed_iff.mpr ⟨hid.trans hjob, hs⟩) hsel⟩
  · rw [hperf] at hr ⊢
    exact ⟨hr, fun _ => ⟨hlt, rfl⟩⟩

/-- **A recorded row is due again only after a failure that is retried at once.** -/
theorem Records.due_again {now : DateTime} {job : NotificationJob} {answer : Option SendResult}
    {f : NotificationRow → NotificationRow} (h : d.Records now job answer f) {r : NotificationRow}
    (hr : r.attempts = job.attempts) {before : String}
    (hdue : (f r).due d.bound now.toRfc3339 before = true) :
    (f r).attempts = job.attempts ∧ d.retriesAtOnce now job = true ∧
      ∃ e, answer = some (.error e) ∧ failureIsRetryable e = true := by
  obtain ⟨hlt, hcase⟩ := due_iff.mp hdue
  cases h with
  | complete => rcases hcase with hs | ⟨hs, _⟩ | ⟨hs, _⟩ <;> cases hs
  | fail answer error next retryable hretry hnext =>
    rcases hcase with hs | ⟨_, hret, hle⟩ | ⟨hs, _⟩
    · cases hs
    · have hret' : retryable = true := hret
      have hlt' : job.attempts < d.bound := by rw [← hr]; exact hlt
      have hle' : next ≤ now.toRfc3339 := hle
      have htime : retryTime now job.attempts d.retryDelaySeconds.toNat = some next := by
        subst hret'
        rw [NotificationFailureUpdate.nextAttemptAt, if_neg] at hnext
        · exact hnext
        · rw [Bool.or_eq_true, not_or]
          exact ⟨nofun, fun hge => absurd (of_decide_eq_true hge) (Nat.not_le_of_lt hlt')⟩
      refine ⟨hr, ?_, hretry hret'⟩
      unfold retriesAtOnce
      rw [htime, Option.any_some, Bool.and_eq_true]
      exact ⟨decide_eq_true hlt', decide_eq_true hle'⟩
    · cases hs

/-! ## 3. The loop -/

section Loop

variable [Formats] (store : ServerEventStore) (send : NotificationJob → SendResult)
  (now : DateTime) (left delivered : Nat) (db : Db)

variable (d) in
/-- The tables after a claim. -/
def claimed (db : Db) : Db := ((Op.claim now d.bound).perform store db).2

theorem deliverLoop_none (h : db.firstDue d.bound now = none) :
    d.deliverLoop store send now (left + 1) delivered db = (.ok delivered, db) := by
  rw [deliverLoop, perform_claim, h]

theorem deliverLoop_some {row : NotificationRow} (h : db.firstDue d.bound now = some row) :
    let answer := d.attempt send row.claimedJob
    let recorded := (d.outcome now row.claimedJob answer).perform store (d.claimed store now db)
    (∃ f hf, d.Records now row.claimedJob answer f ∧
      recorded = (.ok .updated, (d.claimed store now db).updateNotifications
        (NotificationRow.isClaimed row.id) f hf) ∧
      d.deliverLoop store send now (left + 1) delivered db =
        d.deliverLoop store send now left (if delivers answer then delivered + 1 else delivered)
          recorded.2) ∨
    (recorded = (.error (.raised .panicked), d.claimed store now db) ∧
      d.deliverLoop store send now (left + 1) delivered db =
        (.error (.raised .panicked), d.claimed store now db)) := by
  intro answer recorded
  have hclaim : (Op.claim now d.bound).perform store db =
      (.ok (.claimed (some row.claimedJob)), d.claimed store now db) := by
    rw [claimed, perform_claim, h]
  rcases d.perform_outcome store now row.claimedJob answer (d.claimed store now db) with
    ⟨f, hf, hrec, hperf⟩ | ⟨_, hperf⟩
  · refine .inl ⟨f, hf, hrec, hperf, ?_⟩
    rw [deliverLoop, hclaim]
    simp only [answer, recorded] at hperf ⊢
    simp only [hperf]
  · refine .inr ⟨hperf, ?_⟩
    rw [deliverLoop, hclaim]
    simp only [answer] at hperf
    simp only [hperf]

end Loop

end NotificationDispatcher

end Beacon
