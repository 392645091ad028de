/-
  File:      Beacon/Delivery/Reclaim.lean
  Subject:   Jobs of crashed dispatchers.

  A claim older than five minutes is due again, so a later call of `deliver_due` finishes the job
  of a crashed dispatcher -- if attempts are left. A crash between the claim of the last attempt
  and its report leaves the row in flight with `attempts = max_attempts`, which no claim selects.
  The second way to miss a job is the limit: a failure whose retry time is not after `now` is
  due again in the same call and uses the limit up. The third is a failure without a retry time:
  its report panics, and the call ends there.

  * `Workers.Recoverable` -- the steps of a run that strand no job;
  * `reclaimable_run` -- without a crash at a last attempt, a row in flight has attempts left or
    a dispatcher that still holds it;
  * `returns_of_loop` -- a call whose failures have retry times returns;
  * `settled_of_loop` -- what a call of `deliver_due` does to the rows that are due;
  * `reclaimed_of_run` -- **no job stays in flight**, in runs of recoverable steps;
  * `stranded_at_last_attempt` -- a crash at the last attempt strands the job.
-/
import Mathlib.Algebra.Order.BigOperators.Group.List
import Beacon.Delivery.Claims
import Beacon.Delivery.Workers

namespace Beacon

open Foundation

/-! ## 1. Runs that strand no job -/

/-- The job a dispatcher has claimed and not reported. -/
def Phase.job? : Phase → Option NotificationJob
  | .sending _ _ job => some job
  | .reporting _ _ job _ => some job
  | _ => none

/-- The clock reading of a call of `deliver_due`. -/
def Phase.now? : Phase → Option DateTime
  | .idle => none
  | .claiming now _ => some now
  | .sending now _ _ => some now
  | .reporting now _ _ _ => some now
  | .ended => none

section Recoverable

variable {ι : Type} [DecidableEq ι]

/-- The row is in flight for the last time. -/
def NotificationRow.atLast (maxAttempts : Nat) (r : NotificationRow) : Bool :=
  r.status = .inFlight && r.attempts = maxAttempts

/-- The steps that strand no job: clocks read years 0 to 9999, and no dispatcher crashes between
    claim and report of the last attempt. -/
def Workers.Recoverable (fleet : Fleet ι) (s : Workers ι) : WorkerAction ι → Prop
  | .deliver _ now _ => now.InRange
  | .crash i => ∀ job ∈ (s.phase i).job?, job.attempts = fleet.bound →
      (s.db.notifications.get? job.id).any (NotificationRow.atLast fleet.bound) = false
  | _ => True

instance (fleet : Fleet ι) (s : Workers ι) : ∀ a, Decidable (s.Recoverable fleet a)
  | .accept _ | .claim _ | .send _ _ | .report _ => isTrue trivial
  | .deliver _ now _ => inferInstanceAs (Decidable now.InRange)
  | .crash i => inferInstanceAs (Decidable (∀ job ∈ (s.phase i).job?, job.attempts = fleet.bound →
      (s.db.notifications.get? job.id).any (NotificationRow.atLast fleet.bound) = false))

/-- Rows in flight for the last time are held, and claims carry readings in range. -/
structure Workers.Reclaimable (fleet : Fleet ι) (s : Workers ι) : Prop where
  clock : ∀ i, ∀ now ∈ (s.phase i).now?, now.InRange
  claimed : ∀ id r, s.db.notifications.get? id = some r → r.status = .inFlight →
    ∃ t : DateTime, t.InRange ∧ r.claimedAt = some t.toRfc3339
  held : ∀ id r, s.db.notifications.get? id = some r → r.status = .inFlight →
    r.attempts = fleet.bound →
    ∃ i, ∃ job ∈ (s.phase i).job?, job.id = id ∧ job.attempts = fleet.bound

omit [DecidableEq ι] in
theorem not_atLast {db : Db} {id maxAttempts : Nat} {r : NotificationRow}
    (h : (db.notifications.get? id).any (NotificationRow.atLast maxAttempts) = false)
    (hr : db.notifications.get? id = some r) (hs : r.status = .inFlight) :
    r.attempts ≠ maxAttempts := by
  intro hlast
  rw [hr, Option.any_some, NotificationRow.atLast, decide_eq_true hs, decide_eq_true hlast] at h
  cases h

variable {fleet : Fleet ι} {s s' : Workers ι}

/-- A step of one dispatcher keeps `Reclaimable` if every row in flight after it is an old one
    whose job it does not give up, or a new one it holds. -/
theorem reclaimable_goto (h : s.Reclaimable fleet) (i : ι) (p : Phase) (db : Db)
    {sends : List SendCall} (hclock : ∀ now ∈ p.now?, now.InRange)
    (hrows : ∀ id r, db.notifications.get? id = some r → r.status = .inFlight →
      (s.db.notifications.get? id = some r ∧ (r.attempts = fleet.bound →
        ∀ job ∈ (s.phase i).job?, job.id = id → job.attempts = fleet.bound → job ∈ p.job?)) ∨
      ((∃ t : DateTime, t.InRange ∧ r.claimedAt = some t.toRfc3339) ∧ (r.attempts = fleet.bound →
        ∃ job ∈ p.job?, job.id = id ∧ job.attempts = fleet.bound))) :
    ((Workers.mk db s.phase sends).goto i p).Reclaimable fleet := by
  have hself : ((Workers.mk db s.phase sends).goto i p).phase i = p := Function.update_self ..
  have hother : ∀ j, j ≠ i → ((Workers.mk db s.phase sends).goto i p).phase j = s.phase j :=
    fun j hj => Function.update_of_ne hj ..
  refine ⟨fun j now hnow => ?_, fun id r hr hs => ?_, fun id r hr hs ha => ?_⟩
  · by_cases hj : j = i
    · subst hj
      rw [hself] at hnow
      exact hclock now hnow
    · rw [hother j hj] at hnow
      exact h.clock j now hnow
  · rcases hrows id r hr hs with ⟨hold, _⟩ | ⟨hnew, _⟩
    · exact h.claimed id r hold hs
    · exact hnew
  · rcases hrows id r hr hs with ⟨hold, hkeep⟩ | ⟨_, hnew⟩
    · obtain ⟨j, job, hjob, hid, hlast⟩ := h.held id r hold hs ha
      by_cases hj : j = i
      · subst hj
        exact ⟨j, job, by rw [hself]; exact hkeep ha job hjob hid hlast, hid, hlast⟩
      · exact ⟨j, job, by rw [hother j hj]; exact hjob, hid, hlast⟩
    · obtain ⟨job, hjob, hid, hlast⟩ := hnew ha
      exact ⟨i, job, by rw [hself]; exact hjob, hid, hlast⟩

variable [Formats] {store : ServerEventStore}

theorem reclaimable_step {a : WorkerAction ι} (h : s.Reclaimable fleet)
    (ha : s.Recoverable fleet a) (hs : s.Step store fleet a s') : s'.Reclaimable fleet := by
  cases hs with
  | accept call =>
    -- a new row is pending, the others are as they were
    have hold : ∀ id r, ((Op.accept call).perform store s.db).2.notifications.get? id = some r →
        r.status = .inFlight → s.db.notifications.get? id = some r := by
      intro id r hr hs
      rcases row_origin store (.accept call) hr with ⟨r', hr', hstep⟩ | ⟨m, at', rfl⟩
      · cases hstep
        exact hr'
      · cases hs
    exact ⟨h.clock, fun id r hr hs => h.claimed id r (hold id r hr hs) hs,
      fun id r hr hs => h.held id r (hold id r hr hs) hs⟩
  | start i now limit hp =>
    refine reclaimable_goto h i _ s.db (fun t ht => ?_)
      fun id r hr hs => .inl ⟨hr, fun _ job hj => ?_⟩
    · cases ht
      exact ha
    · rw [hp] at hj
      cases hj
  | finish i now left hp hn =>
    refine reclaimable_goto h i _ s.db nofun fun id r hr hs => .inl ⟨hr, fun _ job hj => ?_⟩
    rw [hp] at hj
    cases hj
  | crash i =>
    refine reclaimable_goto h i _ s.db nofun
      fun id r hr hs => .inl ⟨hr, fun hb job hj hid hlast => ?_⟩
    exact absurd hb (not_atLast (ha job hj hlast) (by rw [hid]; exact hr) hs)
  | send i now left job answer result hp hr =>
    have hclock : now.InRange := h.clock i now (by rw [hp]; rfl)
    refine reclaimable_goto h i _ s.db (fun t ht => ?_)
      fun id r hr hs => .inl ⟨hr, fun _ job' hj _ _ => ?_⟩
    · cases ht
      exact hclock
    · rw [hp] at hj
      exact hj
  | claim i now left row hp hrow =>
    have hclock : now.InRange := h.clock i now (by rw [hp]; rfl)
    refine reclaimable_goto h i _ _ (fun t ht => ?_) fun id r hr hs => ?_
    · cases ht
      exact hclock
    · rw [get?_claim store hrow, Option.map_eq_some_iff] at hr
      obtain ⟨old, hold, rfl⟩ := hr
      have hid : old.id = id := (NotificationTable.get?_eq_some.mp hold).2
      by_cases hsel : old.id = row.id
      · -- the claimed row: its claim is fresh, and the dispatcher holds the job
        rw [if_pos hsel]
        refine .inr ⟨⟨now, hclock, rfl⟩, fun hlast => ⟨row.claimedJob, rfl, ?_, ?_⟩⟩
        · exact hsel.symm.trans hid
        · have hrow' := (firstDue_eq_some hrow).1
          rw [← hsel, hid, hold] at hrow'
          cases hrow'
          exact hlast
      · rw [if_neg hsel] at hs ⊢
        refine .inl ⟨hold, fun _ job hj => ?_⟩
        rw [hp] at hj
        cases hj
  | report i now left job answer p hp hnext =>
    have hclock : ∀ t ∈ p.now?, t.InRange := by
      have hnow : now.InRange := h.clock i now (by rw [hp]; rfl)
      rcases hnext with ⟨rfl, _⟩ | ⟨rfl, _⟩
      · intro t ht
        cases ht
        exact hnow
      · nofun
    refine reclaimable_goto h i p _ hclock fun id r hr hs => ?_
    obtain ⟨hold, hpanic⟩ := NotificationDispatcher.inFlight_of_outcome hr hs
    refine .inl ⟨hold, fun _ job' hj hid hlast => ?_⟩
    rw [hp] at hj
    cases hj
    -- a record of the last attempt does not panic
    have hlt := (hpanic hid.symm).1
    rw [fleet.bound_eq i] at hlt
    omega

/-- **Over every run of recoverable steps**, rows in flight for the last time are held. -/
theorem reclaimable_run {as : List (WorkerAction ι)}
    (h : (workers store fleet).Along (Workers.Recoverable fleet) (workers store fleet).init as) :
    ((workers store fleet).run as).Reclaimable fleet :=
  Machine.invariant_along (M := workers store fleet) (I := Workers.Reclaimable fleet)
    (P := Workers.Recoverable fleet)
    { clock := fun _ _ h => by cases h
      claimed := fun _ _ h => by cases h
      held := fun _ _ h => by cases h }
    (fun _ _ _ hI hP hs => reclaimable_step hI hP (step_cases hs)) h

end Recoverable

/-! ## 2. A call of `deliver_due` -/

section Loop

variable [Formats] (store : ServerEventStore) (d : NotificationDispatcher)
  (send : NotificationJob → SendResult) (now : DateTime)

/-- The row is due for the dispatcher. -/
def NotificationDispatcher.dueNow (r : NotificationRow) : Bool :=
  r.due d.bound now.toRfc3339 (staleBefore now).toRfc3339

variable {store d send now} {db : Db} {row : NotificationRow}
  {f : NotificationRow → NotificationRow} {hf : ∀ r, (f r).fixed = r.fixed}

/-- The rows after a claim and its record: one row is rewritten. -/
theorem rows_recorded (h : db.firstDue d.bound now = some row) :
    ((d.claimed store now db).updateNotifications (NotificationRow.isClaimed row.id) f
      hf).notifications.rows =
      db.notifications.rows.map fun r => if r.id = row.id then f (r.claim now) else r := by
  have hclaim : (d.claimed store now db).notifications.rows =
      db.notifications.rows.map fun r => if r.hasId row.id then r.claim now else r := by
    rw [NotificationDispatcher.claimed, perform_claim, h]
    rfl
  refine (NotificationTable.rows_updateWhere _ _ f hf).trans ?_
  rw [hclaim, List.map_map]
  refine List.map_congr_left fun r _ => ?_
  rw [Function.comp_apply]
  by_cases hid : r.id = row.id
  · have hclaimed : (r.claim now).isClaimed row.id = true := isClaimed_iff.mpr ⟨hid, rfl⟩
    simp only [if_pos (hasId_iff.mpr hid), if_pos hclaimed, if_pos hid]
  · have hout : ¬ r.isClaimed row.id = true := fun he => hid (isClaimed_iff.mp he).1
    simp only [if_neg fun he => hid (hasId_iff.mp he), if_neg hout, if_neg hid]

theorem get?_recorded (h : db.firstDue d.bound now = some row) (id : Nat) :
    ((d.claimed store now db).updateNotifications (NotificationRow.isClaimed row.id) f
      hf).notifications.get? id =
      (db.notifications.get? id).map fun r => if r.id = row.id then f (r.claim now) else r := by
  have hids : ∀ r : NotificationRow, (if r.id = row.id then f (r.claim now) else r).id = r.id := by
    intro r
    split
    · exact congrArg Prod.fst (hf (r.claim now))
    · rfl
  unfold NotificationTable.get?
  rw [rows_recorded h, List.find?_map]
  refine congrArg (Option.map _) (congrArg (fun q => db.notifications.rows.find? q) ?_)
  funext r
  simp only [Function.comp_apply, hids]

/-- The claims a call can still make, if a row with `a` attempts is worth `cost a` of them. -/
def NotificationDispatcher.claimsLeft (d : NotificationDispatcher) (now : DateTime)
    (cost : Nat → Nat) (db : Db) : Nat :=
  (db.notifications.rows.map fun r => if d.dueNow now r then cost r.attempts else 0).sum

/-- What a cost has to meet: a claim costs something, and a row that is due again is worth less. -/
structure Costs (d : NotificationDispatcher) (send : NotificationJob → SendResult)
    (now : DateTime) (cost : Nat → Nat) : Prop where
  pos : ∀ a, a < d.bound → 0 < cost a
  again : ∀ (job : NotificationJob) (a : Nat) (e : SendError), job.attempts = a + 1 →
    d.retriesAtOnce now job = true → send job = .error e → failureIsRetryable e = true →
    cost (a + 1) < cost a

omit [Formats] in
theorem claimsLeft_le {cost : Nat → Nat} {b : Nat} (h : ∀ a, cost a ≤ b) :
    d.claimsLeft now cost db ≤ db.notifications.rows.length * b := by
  unfold NotificationDispatcher.claimsLeft
  have hle := List.sum_le_card_nsmul
    (db.notifications.rows.map fun r => if d.dueNow now r then cost r.attempts else 0) b (by
      intro x hx
      obtain ⟨r, _, rfl⟩ := List.mem_map.mp hx
      split
      · exact h r.attempts
      · exact Nat.zero_le b)
  rw [List.length_map] at hle
  exact hle

variable (store) (hf) in
/-- **A claim with its record uses up what the call has left.** -/
theorem claimsLeft_recorded {cost : Nat → Nat} (hc : Costs d send now cost)
    (h : db.firstDue d.bound now = some row)
    (hrec : d.Records now row.claimedJob (d.attempt send row.claimedJob) f) :
    d.claimsLeft now cost ((d.claimed store now db).updateNotifications
      (NotificationRow.isClaimed row.id) f hf) < d.claimsLeft now cost db := by
  obtain ⟨hget, hdue⟩ := firstDue_eq_some h
  have hrow : row ∈ db.notifications.rows := (NotificationTable.get?_eq_some.mp hget).1
  have hbefore : (if d.dueNow now row then cost row.attempts else 0) = cost row.attempts :=
    if_pos hdue
  have hafter : (if d.dueNow now (f (row.claim now)) then cost (f (row.claim now)).attempts
      else 0) < cost row.attempts := by
    split
    · rename_i hagain
      obtain ⟨hatt, hretry, e, hans, he⟩ := hrec.due_again rfl hagain
      rw [hatt]
      exact hc.again row.claimedJob row.attempts e rfl hretry
        (NotificationDispatcher.send_of_attempt hans) he
    · exact hc.pos _ (due_iff.mp hdue).1
  unfold NotificationDispatcher.claimsLeft
  rw [rows_recorded h, List.map_map]
  refine List.sum_lt_sum _ _ (fun r hr => ?_) ⟨row, hrow, ?_⟩
  · rw [Function.comp_apply]
    by_cases hid : r.id = row.id
    · have hsame : r = row := by
        have hgr := NotificationTable.get?_of_mem hr
        rw [hid, hget] at hgr
        exact (Option.some.inj hgr).symm
      subst hsame
      rw [if_pos rfl, hbefore]
      exact Nat.le_of_lt hafter
    · rw [if_neg hid]
  · rw [Function.comp_apply, if_pos rfl, hbefore]
    exact hafter

/-- Every failure that is tried again has a retry time. -/
def NotificationDispatcher.HasRetryTimes (d : NotificationDispatcher)
    (send : NotificationJob → SendResult) (now : DateTime) : Prop :=
  ∀ job e, send job = .error e → failureIsRetryable e = true → job.attempts < d.bound →
    (retryTime now job.attempts d.retryDelaySeconds.toNat).isSome

variable (store) in
/-- **A call whose failures have retry times returns.** -/
theorem returns_of_loop (htimes : d.HasRetryTimes send now) (left delivered : Nat) (db : Db) :
    ∃ n db', d.deliverLoop store send now left delivered db = (.ok n, db') := by
  induction left generalizing delivered db with
  | zero => exact ⟨delivered, db, rfl⟩
  | succ left ih =>
    cases hd : db.firstDue d.bound now with
    | none =>
      exact ⟨delivered, db,
        NotificationDispatcher.deliverLoop_none store send now left delivered db hd⟩
    | some row =>
      rcases NotificationDispatcher.deliverLoop_some store send now left delivered db hd with
        ⟨f, hf, _, _, hloop⟩ | ⟨hpanic, _⟩
      · rw [hloop]
        exact ih _ _
      · -- the record that panics is the one of a failure without a retry time
        obtain ⟨e, hans, hretry, hlt, hnone⟩ :=
          NotificationDispatcher.retryTime_of_panic (congrArg Prod.fst hpanic)
        have hsome := htimes row.claimedJob e (NotificationDispatcher.send_of_attempt hans) hretry
          hlt
        rw [hnone] at hsome
        cases hsome

/-- The row is due, sent or failed. -/
def NotificationDispatcher.Handled (d : NotificationDispatcher) (now : DateTime)
    (r : NotificationRow) : Prop := d.dueNow now r = true ∨ r.status = .sent ∨ r.status = .failed

/-- **A call with enough limit settles every due row.** -/
theorem settled_of_loop {cost : Nat → Nat} (hc : Costs d send now cost) {left delivered n : Nat}
    {db' : Db} (hleft : d.claimsLeft now cost db ≤ left)
    (h : d.deliverLoop store send now left delivered db = (.ok n, db')) {id : Nat}
    (hr : ∃ r, db.notifications.get? id = some r ∧ d.Handled now r) :
    ∃ r, db'.notifications.get? id = some r ∧ (r.status = .sent ∨ r.status = .failed) := by
  induction left generalizing delivered db with
  | zero =>
    cases h
    obtain ⟨r, hget, hdue | hs⟩ := hr
    · -- a due row would be worth a claim
      have hmem := (NotificationTable.get?_eq_some.mp hget).1
      have hle := List.single_le_sum (fun x _ => Nat.zero_le x) _ (List.mem_map_of_mem
        (f := fun r => if d.dueNow now r then cost r.attempts else 0) hmem)
      have hpos := hc.pos _ (due_iff.mp hdue).1
      rw [if_pos hdue] at hle
      unfold NotificationDispatcher.claimsLeft at hleft
      omega
    · exact ⟨r, hget, hs⟩
  | succ left ih =>
    cases hd : db.firstDue d.bound now with
    | none =>
      rw [NotificationDispatcher.deliverLoop_none store send now left delivered db hd] at h
      cases h
      obtain ⟨r, hget, hdue | hs⟩ := hr
      · have hnot := List.find?_eq_none.mp hd r (NotificationTable.get?_eq_some.mp hget).1
        exact absurd hdue hnot
      · exact ⟨r, hget, hs⟩
    | some row =>
      rcases NotificationDispatcher.deliverLoop_some store send now left delivered db hd with
        ⟨f, hf, hrec, hok, hloop⟩ | ⟨_, hloop⟩
      · rw [hloop, hok] at h
        refine ih ?_ h ?_
        · have hlt := claimsLeft_recorded store hf hc hd hrec
          exact Nat.le_of_lt_succ (Nat.lt_of_lt_of_le hlt hleft)
        · obtain ⟨r, hget, hhandled⟩ := hr
          refine ⟨if r.id = row.id then f (r.claim now) else r,
            (get?_recorded hd id).trans (congrArg _ hget), ?_⟩
          split
          · exact .inr (hrec.settled _)
          · exact hhandled
      · rw [hloop] at h
        cases h

omit [Formats] in
/-- Where no failure is due again at once, a job costs one claim. -/
theorem costs_one (h : ∀ job e, send job = .error e → failureIsRetryable e = true →
    d.retriesAtOnce now job = false) : Costs d send now fun _ => 1 where
  pos := fun _ _ => Nat.one_pos
  again := fun job _ e _ hretry hsend he => by
    rw [h job e hsend he] at hretry
    cases hretry

omit [Formats] in
/-- A job never costs more claims than it has attempts left. -/
theorem costs_attempts : Costs d send now fun a => d.bound - a where
  pos := fun _ ha => Nat.sub_pos_of_lt ha
  again := fun job a e ha hretry _ _ => by
    have hlt : job.attempts < d.bound :=
      of_decide_eq_true (Bool.and_eq_true_iff.mp hretry).1
    omega

end Loop

/-! ## 3. Stale claims -/

/-- **No job stays in flight**, in runs whose steps are recoverable. At any state such a run
    reaches, no dispatcher being at a last attempt, a further call of `deliver_due` whose failures
    have retry times, with a limit for every job, and either no failure of it due again at once or
    a limit for every attempt, returns and ends every job in flight since five minutes or more as
    sent or failed. -/
theorem reclaimed_of_run [Formats] {ι : Type} [DecidableEq ι] (store : ServerEventStore)
    (fleet : Fleet ι) (as : List (WorkerAction ι))
    (hsteps : (workers store fleet).Along (Workers.Recoverable fleet) (workers store fleet).init as)
    (hquiet : ∀ j, ((workers store fleet).run as).Recoverable fleet (.crash j))
    (i : ι) (send : NotificationJob → SendResult) (now : DateTime) (limit : Nat)
    (hnow : now.InRange)
    (hlimit : ((workers store fleet).run as).db.notifications.rows.length ≤ limit)
    (hretry : (∀ job e, send job = .error e → failureIsRetryable e = true →
        (fleet.dispatcher i).retriesAtOnce now job = false) ∨
      ((workers store fleet).run as).db.notifications.rows.length * fleet.bound ≤ limit)
    (htimes : (fleet.dispatcher i).HasRetryTimes send now) :
    ∃ n db, (fleet.dispatcher i).deliverDue store send now limit
        ((workers store fleet).run as).db = (.ok n, db) ∧
      ∀ r ∈ ((workers store fleet).run as).db.notifications.rows, r.status = .inFlight →
        ∃ t : DateTime, t.InRange ∧ r.claimedAt = some t.toRfc3339 ∧
          (t ≤ staleBefore now → ∃ r' ∈ db.notifications.rows,
            r'.id = r.id ∧ (r'.status = .sent ∨ r'.status = .failed)) := by
  obtain ⟨n, db, hcall⟩ := returns_of_loop store htimes limit 0
    ((workers store fleet).run as).db
  refine ⟨n, db, hcall, ?_⟩
  intro r hr hflight
  have hget := NotificationTable.get?_of_mem hr
  have hinv := reclaimable_run hsteps
  have hsound : r.Sound fleet.bound := rowsSound_run as r.id r hget
  obtain ⟨t, ht, hclaimed⟩ := hinv.claimed r.id r hget hflight
  refine ⟨t, ht, hclaimed, fun hstale => ?_⟩
  -- nobody is at the last attempt of the job, so attempts are left and the row is due
  have hleft : r.attempts < fleet.bound := by
    refine Nat.lt_of_le_of_ne hsound.bounded fun hlast => ?_
    obtain ⟨j, job, hjob, hid, hlast'⟩ := hinv.held r.id r hget hflight hlast
    exact not_atLast (hquiet j job hjob hlast') (by rw [hid]; exact hget) hflight hlast
  have hdue : (fleet.dispatcher i).dueNow now r = true := by
    refine due_iff.mpr ⟨?_, .inr (.inr ⟨hflight, _, hclaimed, (stale_iff ht hnow).mpr hstale⟩)⟩
    rw [fleet.bound_eq]
    exact hleft
  have hrun : ∃ cost, Costs (fleet.dispatcher i) send now cost ∧
      (fleet.dispatcher i).claimsLeft now cost ((workers store fleet).run as).db ≤ limit := by
    rcases hretry with hretry | hretry
    · exact ⟨_, costs_one hretry, Nat.le_trans (claimsLeft_le fun _ => Nat.le_refl 1)
        (by rwa [Nat.mul_one])⟩
    · exact ⟨_, costs_attempts, Nat.le_trans (claimsLeft_le fun a => Nat.sub_le _ a)
        (by rwa [fleet.bound_eq])⟩
  obtain ⟨cost, hcost, hle⟩ := hrun
  obtain ⟨r', hr', hs⟩ := settled_of_loop hcost hle hcall ⟨r, hget, .inl hdue⟩
  obtain ⟨hmem, hid⟩ := NotificationTable.get?_eq_some.mp hr'
  exact ⟨r', hmem, hid, hs⟩

section Crash

/-- A dispatcher that has crashed is at no attempt. -/
theorem recoverable_after_crash {ι : Type} [DecidableEq ι] [Formats] {store : ServerEventStore}
    {fleet : Fleet ι} (as : List (WorkerAction ι)) (i : ι) :
    ((workers store fleet).run (as ++ [.crash i])).Recoverable fleet (.crash i) := by
  have hstep : (workers store fleet).step ((workers store fleet).run as) (.crash i) =
      some (((workers store fleet).run as).goto i .idle) := rfl
  intro job hj
  rw [Machine.run_snoc, Machine.act_of_step hstep, Workers.goto_phase,
    Function.update_self] at hj
  cases hj

/-- Ten minutes after the claim of the sample crash. -/
def afterCrash : DateTime := ⟨1767226260000000000⟩

/-- The retry times of the sample dispatcher are in January 2026. -/
theorem hasRetryTimes_down : (Sample.dispatcher 3 (by decide)).HasRetryTimes
    (fun _ => Sample.unavailable) afterCrash := by
  have htimes : ∀ attempts < 3, (retryTime afterCrash attempts 30).isSome := by decide +kernel
  exact fun job _ _ _ hlt => htimes job.attempts hlt

/-- The theorem at a crash before the last attempt, with a channel that is down: the next call
    returns, and the job is failed. -/
theorem reclaimed_of_run_second :
    let fleet := Sample.worker 3 (by decide)
    let s := (@workers Unit _ Sample.formats Sample.telegramStore fleet).run Sample.crash
    ∃ n db, @NotificationDispatcher.deliverDue (fleet.dispatcher ()) Sample.formats
        Sample.telegramStore (fun _ => Sample.unavailable) afterCrash 100 s.db = (.ok n, db) ∧
      ∃ r ∈ s.db.notifications.rows, r.status = .inFlight ∧
        ∃ r' ∈ db.notifications.rows, r'.id = r.id ∧
          (r'.status = .sent ∨ r'.status = .failed) := by
  let _ : Formats := Sample.formats
  intro fleet s
  have hrow : ∃ r ∈ s.db.notifications.rows, r.status = .inFlight ∧
      r.claimedAt = some (DateTime.mk 1767225660000000000).toRfc3339 := by decide +kernel
  obtain ⟨r, hr, hs, hclaimed⟩ := hrow
  -- the limit is large enough for every attempt of the one job
  obtain ⟨n, db, hcall, hsettled⟩ := reclaimed_of_run Sample.telegramStore fleet Sample.crash
    (by decide +kernel) (fun _ => recoverable_after_crash Sample.crash.dropLast ()) ()
    (fun _ => Sample.unavailable) afterCrash 100 (by decide) (by decide +kernel)
    (.inr (by decide +kernel)) hasRetryTimes_down
  obtain ⟨t, ht, hclaimed', hr'⟩ := hsettled r hr hs
  refine ⟨n, db, hcall, r, hr, hs, hr' ?_⟩
  have htext := Option.some.inj (hclaimed'.symm.trans hclaimed)
  have hle : t ≤ ⟨1767225660000000000⟩ :=
    (DateTime.text_le_iff ht (by decide)).mp (le_of_eq htext)
  exact Int.le_trans hle (by decide)

/-- **A crash at the last attempt strands the job**: with one attempt allowed, every dispatcher
    idle and the claim ten minutes old, a further call with any limit and any answers returns
    and leaves the job in flight. -/
theorem stranded_at_last_attempt :
    let s := (@workers Unit _ Sample.formats Sample.telegramStore
      (Sample.worker 1 (by decide))).run Sample.crash
    let claimed : DateTime := ⟨1767225660000000000⟩
    (∀ j, s.phase j = .idle) ∧ claimed ≤ staleBefore afterCrash ∧
    (∃ r ∈ s.db.notifications.rows, r.status = .inFlight ∧ r.claimedAt = some claimed.toRfc3339) ∧
    ∀ send limit, @NotificationDispatcher.deliverDue (Sample.dispatcher 1 (by decide))
      Sample.formats Sample.telegramStore send afterCrash limit s.db = (.ok 0, s.db) := by
  let _ : Formats := Sample.formats
  intro s claimed
  refine ⟨fun _ => rfl, by decide, by decide +kernel, fun send limit => ?_⟩
  have hnone : s.db.firstDue 1 afterCrash = none := by decide +kernel
  cases limit with
  | zero => rfl
  | succ limit =>
    exact NotificationDispatcher.deliverLoop_none Sample.telegramStore send afterCrash limit 0 s.db
      hnone

/-- Two jobs, each claimed by a process that dies. -/
def twoCrashes : List (WorkerAction Unit) :=
  [.accept (Sample.call (Sample.event Sample.id1 "2026-01-01T00:00:00Z" .firing .warning)),
    .accept (Sample.call (Sample.event Sample.id2 "2026-01-01T00:01:00Z" .info .warning)),
    .deliver () ⟨1767225660000000000⟩ 100, .claim (), .crash (),
    .deliver () ⟨1767225720000000000⟩ 100, .claim (), .crash ()]

-- without a delay the retries of the first job use up the limit, and the second stays in flight
example :
    let fleet : Fleet Unit :=
      ⟨3, fun _ => ⟨["telegram"], 3, 0, Sample.telegram_ne_nil, by decide⟩, fun _ => rfl⟩
    let s := (@workers Unit _ Sample.formats Sample.telegramStore fleet).run twoCrashes
    let limit := s.db.notifications.rows.length
    ((@NotificationDispatcher.deliverDue (fleet.dispatcher ()) Sample.formats Sample.telegramStore
      (fun _ => Sample.unavailable) afterCrash limit s.db).2.notifications.rows.map (·.status)) =
      [.failed, .inFlight] := by
  decide +kernel

end Crash

end Beacon
