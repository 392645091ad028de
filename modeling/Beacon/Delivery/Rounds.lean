/-
  File:      Beacon/Delivery/Rounds.lean
  Subject:   One call of `deliver_due`, from the rows due at its start to the rows it leaves.

  The loop asks for the first due row again after every job, with the clock of its start. So the
  jobs it attempts are the due rows in id order, one attempt each, as long as no row it has
  recorded is due again: a failure that is to be retried has a retry time whose text is after the
  text of `now`. The last job of the limit may be due again, since nothing asks.

  * `NotificationDispatcher.attempts` -- the jobs a call attempts;
  * `dueRows_recorded` -- a claim with its record takes the first row off the due ones, or puts it
    back;
  * `round_iff_timely` -- **when a call is one round over the due rows**;
  * `timely_iff_years` -- without an overflow, that is: retry times in years up to 9999;
  * `second_attempt_in_round` -- a delay that leaves them has a job attempted twice.
-/
import Beacon.Delivery.Backoff

namespace Beacon

open Foundation

namespace NotificationDispatcher

variable (d : NotificationDispatcher)

/-! ## 1. The jobs of a call -/

/-- The rows due for a call at `now`, in id order. -/
def dueRows (now : DateTime) (db : Db) : List NotificationRow :=
  db.notifications.rows.filter (d.dueNow now)

/-- The jobs the loop of `deliver_due` attempts, one after the other. -/
def attempts [Formats] (store : ServerEventStore) (send : NotificationJob → SendResult)
    (now : DateTime) : Nat → Db → List NotificationJob
  | 0, _ => []
  | left + 1, db =>
    match (Op.claim now d.bound).perform store db with
    | (.ok (.claimed (some job)), db) =>
      match (d.outcome now job (d.attempt send job)).perform store db with
      | (.error _, _) => [job]
      | (.ok _, db) => job :: attempts store send now left db
    | _ => []

/-- The flag an answer leaves in the row. -/
def flag : Option SendResult → Bool
  | some (.error e) => failureIsRetryable e
  | _ => false

/-- The send fails, is to be retried, and attempts are left. -/
def failsForNow (send : NotificationJob → SendResult) (job : NotificationJob) : Bool :=
  flag (d.attempt send job) && job.attempts < d.bound

/-- What becomes of the row of an attempted job. -/
structure Settled (answer : Option SendResult) (before after : NotificationRow) : Prop where
  counted : after.attempts = before.attempts + 1
  status : (answer = some (.ok ()) ∧ after.status = .sent) ∨
    (answer ≠ some (.ok ()) ∧ after.status = .failed ∧ after.retryable = flag answer)

/-- A call of `deliver_due` is one round: it attempts the first due rows up to the limit, each once
    and in id order, settles each of them, leaves every other row as it is, and returns how many
    became sent. -/
structure Round [Formats] (store : ServerEventStore) (send : NotificationJob → SendResult)
    (now : DateTime) (limit : Nat) (db : Db) : Prop where
  attempted : d.attempts store send now limit db =
    ((d.dueRows now db).take limit).map NotificationRow.claimedJob
  returned : (d.deliverDue store send now limit db).1 =
    .ok (((d.dueRows now db).take limit).countP fun row =>
      ((d.deliverDue store send now limit db).2.notifications.get? row.id).any (·.status = .sent))
  settled : ∀ row ∈ (d.dueRows now db).take limit, ∃ row',
    (d.deliverDue store send now limit db).2.notifications.get? row.id = some row' ∧
      Settled (d.attempt send row.claimedJob) row row'
  untouched : ∀ row ∈ db.notifications.rows, row ∉ (d.dueRows now db).take limit →
    (d.deliverDue store send now limit db).2.notifications.get? row.id = some row

/-- Of the first due rows up to the limit, each that fails for now has a retry time, after `now`
    unless it is the last of the limit. -/
def Timely (send : NotificationJob → SendResult) (now : DateTime) (limit : Nat)
    (due : List NotificationRow) : Prop :=
  ∀ i row, due[i]? = some row → i < limit → d.failsForNow send row.claimedJob = true →
    ∃ next, retryTime now row.claimedJob.attempts d.retryDelaySeconds.toNat = some next ∧
      (i + 1 < limit → now.toRfc3339 < next)

/-! ## 2. One job -/

/-- How an answer is written into the claimed row; `none` where the retry time panics. -/
def written (now : DateTime) (job : NotificationJob) :
    Option SendResult → Option (NotificationRow → NotificationRow)
  | none => (d.failureUpdate now job "notification channel is not configured" false).nextAttemptAt.map
      fun next => NotificationRow.fail next "notification channel is not configured" false
  | some (.ok ()) => some (NotificationRow.complete now)
  | some (.error e) => (d.failureUpdate now job e.toString (failureIsRetryable e)).nextAttemptAt.map
      fun next => NotificationRow.fail next e.toString (failureIsRetryable e)

variable {d} {now : DateTime} {job : NotificationJob} {answer : Option SendResult}
  {f : NotificationRow → NotificationRow}

theorem written_cases (h : d.written now job answer = some f) :
    (answer = some (.ok ()) ∧ f = NotificationRow.complete now) ∨
      ∃ error next, answer ≠ some (.ok ()) ∧ f = NotificationRow.fail next error (flag answer) ∧
        (d.failureUpdate now job error (flag answer)).nextAttemptAt = some next := by
  unfold written at h
  rcases answer with _ | e | _
  · obtain ⟨next, hnext, hf⟩ := Option.map_eq_some_iff.mp h
    exact .inr ⟨_, next, (by intro h; cases h), hf.symm, hnext⟩
  · obtain ⟨next, hnext, hf⟩ := Option.map_eq_some_iff.mp h
    exact .inr ⟨_, next, (by intro h; cases h), hf.symm, hnext⟩
  · exact .inl ⟨rfl, (Option.some.inj h).symm⟩

theorem fixed_written (h : d.written now job answer = some f) (r : NotificationRow) :
    (f r).fixed = r.fixed := by
  rcases written_cases h with ⟨_, rfl⟩ | ⟨_, _, _, rfl, _⟩ <;> rfl

theorem id_written (h : d.written now job answer = some f) (r : NotificationRow) :
    (f (r.claim now)).id = r.id := congrArg Prod.fst (fixed_written h (r.claim now))

/-- **A written row is settled.** -/
theorem settled_written (h : d.written now job answer = some f) (r : NotificationRow) :
    Settled answer r (f (r.claim now)) := by
  rcases written_cases h with ⟨ha, rfl⟩ | ⟨_, _, ha, rfl, _⟩
  · exact ⟨rfl, .inl ⟨ha, rfl⟩⟩
  · exact ⟨rfl, .inr ⟨ha, rfl, rfl⟩⟩

/-- The `next_attempt_at` of a failure that is not retried is `now`. -/
theorem nextAttemptAt_of_final {error : String} {retryable : Bool}
    (h : ¬ (retryable = true ∧ job.attempts < d.bound)) :
    (d.failureUpdate now job error retryable).nextAttemptAt = some now.toRfc3339 := by
  refine if_pos ?_
  rw [Bool.or_eq_true, Bool.not_eq_true', decide_eq_true_eq]
  cases retryable with
  | false => exact .inl rfl
  | true => exact .inr (Nat.not_lt.mp fun hlt => h ⟨rfl, hlt⟩)

/-- The `next_attempt_at` of a failure that is retried is the retry time. -/
theorem nextAttemptAt_of_retried {error : String} (h : job.attempts < d.bound) :
    (d.failureUpdate now job error true).nextAttemptAt =
      retryTime now job.attempts d.retryDelaySeconds.toNat := by
  refine if_neg fun hfinal => ?_
  rcases Bool.or_eq_true_iff.mp hfinal with hretry | hge
  · cases hretry
  · exact Nat.not_le.mpr h (of_decide_eq_true hge)

theorem failsForNow_iff {send : NotificationJob → SendResult} : d.failsForNow send job = true ↔
    flag (d.attempt send job) = true ∧ job.attempts < d.bound := by
  unfold failsForNow
  rw [Bool.and_eq_true, decide_eq_true_eq]

/-- The text a failure writes, if there is one. -/
theorem nextAttemptAt_cases (send : NotificationJob → SendResult) (now : DateTime)
    (error : String) :
    (d.failsForNow send job = true ∧
      (d.failureUpdate now job error (flag (d.attempt send job))).nextAttemptAt =
        retryTime now job.attempts d.retryDelaySeconds.toNat) ∨
    (d.failsForNow send job = false ∧
      (d.failureUpdate now job error (flag (d.attempt send job))).nextAttemptAt =
        some now.toRfc3339) := by
  cases h : d.failsForNow send job with
  | true =>
    obtain ⟨hflag, hlt⟩ := failsForNow_iff.mp h
    rw [hflag]
    exact .inl ⟨rfl, nextAttemptAt_of_retried hlt⟩
  | false =>
    refine .inr ⟨rfl, nextAttemptAt_of_final fun hretry => ?_⟩
    rw [failsForNow_iff.mpr hretry] at h
    cases h

/-- **Nothing is written where a retry time panics.** -/
theorem written_eq_none {send : NotificationJob → SendResult}
    (h : d.written now job (d.attempt send job) = none) : d.failsForNow send job = true ∧
      retryTime now job.attempts d.retryDelaySeconds.toNat = none := by
  have hpanic : ∃ error, (d.failureUpdate now job error
      (flag (d.attempt send job))).nextAttemptAt = none := by
    generalize d.attempt send job = answer at h ⊢
    unfold written at h
    rcases answer with _ | e | _
    · exact ⟨_, Option.map_eq_none_iff.mp h⟩
    · exact ⟨_, Option.map_eq_none_iff.mp h⟩
    · cases h
  obtain ⟨error, hnone⟩ := hpanic
  rcases nextAttemptAt_cases send now error with ⟨hfails, htime⟩ | ⟨_, htime⟩
  · exact ⟨hfails, htime.symm.trans hnone⟩
  · rw [hnone] at htime
    cases htime

/-- A failure for now that is written has a retry time. -/
theorem retryTime_of_written {send : NotificationJob → SendResult}
    (h : d.written now job (d.attempt send job) = some f) (hfails : d.failsForNow send job = true) :
    ∃ next, retryTime now job.attempts d.retryDelaySeconds.toNat = some next := by
  obtain ⟨hflag, hlt⟩ := failsForNow_iff.mp hfails
  rcases written_cases h with ⟨ha, _⟩ | ⟨error, next, _, _, hnext⟩
  · rw [ha] at hflag
    cases hflag
  · rw [hflag, nextAttemptAt_of_retried hlt] at hnext
    exact ⟨next, hnext⟩

/-- **A written row is due again** after a failure for now whose retry time is not after `now`. -/
theorem dueNow_written {send : NotificationJob → SendResult} {row : NotificationRow}
    (h : d.written now row.claimedJob (d.attempt send row.claimedJob) = some f) :
    d.dueNow now (f (row.claim now)) = true ↔ d.failsForNow send row.claimedJob = true ∧
      ∃ next, retryTime now row.claimedJob.attempts d.retryDelaySeconds.toNat = some next ∧
        next ≤ now.toRfc3339 := by
  unfold dueNow
  rw [due_iff, failsForNow_iff]
  rcases written_cases h with ⟨ha, rfl⟩ | ⟨error, next, _, rfl, hnext⟩
  · constructor
    · rintro ⟨_, hs | ⟨hs, _⟩ | ⟨hs, _⟩⟩ <;> cases hs
    · rintro ⟨⟨hflag, _⟩, _⟩
      rw [ha] at hflag
      cases hflag
  · constructor
    · rintro ⟨hlt, hs | ⟨_, hflag, hle⟩ | ⟨hs, _⟩⟩
      · cases hs
      · have hflag' : flag (d.attempt send row.claimedJob) = true := hflag
        rw [hflag', nextAttemptAt_of_retried hlt] at hnext
        exact ⟨⟨hflag, hlt⟩, next, hnext, hle⟩
      · cases hs
    · rintro ⟨⟨hflag, hlt⟩, next', hnext', hle⟩
      rw [hflag, nextAttemptAt_of_retried hlt, hnext'] at hnext
      cases hnext
      exact ⟨hlt, .inr (.inl ⟨rfl, hflag, hle⟩)⟩

section Step

variable [Formats] {store : ServerEventStore} {send : NotificationJob → SendResult}
  {left delivered : Nat} {db : Db} {row : NotificationRow}

/-- The tables after a claim of the row and its record. -/
def recorded (d : NotificationDispatcher) (store : ServerEventStore) (now : DateTime) (db : Db)
    (row : NotificationRow) (f : NotificationRow → NotificationRow)
    (hf : ∀ r, (f r).fixed = r.fixed) : Db :=
  (d.claimed store now db).updateNotifications (NotificationRow.isClaimed row.id) f hf

theorem perform_written (store : ServerEventStore) (db : Db) (h : d.written now job answer = some f) :
    (d.outcome now job answer).perform store db =
      (.ok .updated, db.updateNotifications (NotificationRow.isClaimed job.id) f
        (fixed_written h)) := by
  unfold written at h
  rcases answer with _ | e | _
  · obtain ⟨next, hnext, rfl⟩ := Option.map_eq_some_iff.mp h
    rw [outcome, perform_fail, hnext]
    rfl
  · obtain ⟨next, hnext, rfl⟩ := Option.map_eq_some_iff.mp h
    rw [outcome, perform_fail, hnext]
    rfl
  · cases h
    exact perform_complete store db job.id now

theorem perform_unwritten (store : ServerEventStore) (db : Db) (h : d.written now job answer = none) :
    (d.outcome now job answer).perform store db = (.error (.raised .panicked), db) := by
  unfold written at h
  rcases answer with _ | e | _
  · rw [outcome, perform_fail, Option.map_eq_none_iff.mp h]
  · rw [outcome, perform_fail, Option.map_eq_none_iff.mp h]
  · cases h

variable (store) (left) (delivered) in
/-- **One job of the loop**, if its answer is written. -/
theorem loop_written (hd : db.firstDue d.bound now = some row)
    (h : d.written now row.claimedJob (d.attempt send row.claimedJob) = some f) :
    let db' := d.recorded store now db row f (fixed_written h)
    d.attempts store send now (left + 1) db =
        row.claimedJob :: d.attempts store send now left db' ∧
      d.deliverLoop store send now (left + 1) delivered db =
        d.deliverLoop store send now left
          (if delivers (d.attempt send row.claimedJob) then delivered + 1 else delivered) db' := by
  intro db'
  have hclaim : (Op.claim now d.bound).perform store db =
      (.ok (.claimed (some row.claimedJob)), d.claimed store now db) := by
    rw [claimed, perform_claim, hd]
  have hrec := perform_written store (d.claimed store now db) h
  constructor
  · rw [attempts, hclaim]
    simp only [hrec]
    rfl
  · rw [deliverLoop, hclaim]
    simp only [hrec]
    rfl

/-- One job of the loop, if its retry time panics. -/
theorem loop_unwritten (hd : db.firstDue d.bound now = some row)
    (h : d.written now row.claimedJob (d.attempt send row.claimedJob) = none) :
    (d.deliverLoop store send now (left + 1) delivered db).1 = .error (.raised .panicked) := by
  have hclaim : (Op.claim now d.bound).perform store db =
      (.ok (.claimed (some row.claimedJob)), d.claimed store now db) := by
    rw [claimed, perform_claim, hd]
  rw [deliverLoop, hclaim]
  simp only [perform_unwritten store (d.claimed store now db) h]

variable (store) in
/-- **A claim with its record** takes the first row off the due ones, or puts it back. -/
theorem dueRows_recorded (hd : db.firstDue d.bound now = some row) :
    ∃ rest, d.dueRows now db = row :: rest ∧ (∀ r ∈ rest, r.id ≠ row.id) ∧
      ∀ f hf, d.dueRows now (d.recorded store now db row f hf) =
        if d.dueNow now (f (row.claim now)) then f (row.claim now) :: rest else rest := by
  obtain ⟨hdue, first, last, hrows, hfirst⟩ := List.find?_eq_some_iff_append.mp hd
  have hsorted : (first ++ row :: last).Pairwise fun r s : NotificationRow => r.id < s.id := by
    have hids := db.notifications.ids_sorted
    rw [hrows, List.pairwise_map] at hids
    exact hids
  obtain ⟨_, hlast, hbefore⟩ := List.pairwise_append.mp hsorted
  have hne_first : ∀ r ∈ first, r.id ≠ row.id := fun r hr =>
    Nat.ne_of_lt (hbefore r hr row List.mem_cons_self)
  have hne_last : ∀ r ∈ last, r.id ≠ row.id := fun r hr =>
    Nat.ne_of_gt ((List.pairwise_cons.mp hlast).1 r hr)
  have hnone : first.filter (d.dueNow now) = [] := by
    refine List.filter_eq_nil_iff.mpr fun r hr => ?_
    have hnot := hfirst r hr
    rw [Bool.not_eq_true'] at hnot
    exact Bool.eq_false_iff.mp hnot
  refine ⟨last.filter (d.dueNow now), ?_, fun r hr => hne_last r (List.mem_filter.mp hr).1, ?_⟩
  · rw [dueRows, hrows, List.filter_append, hnone, List.nil_append]
    exact List.filter_cons_of_pos hdue
  · intro f hf
    have hkeep : ∀ l : List NotificationRow, (∀ r ∈ l, r.id ≠ row.id) →
        (l.map fun r => if r.id = row.id then f (r.claim now) else r) = l := by
      intro l hl
      refine (List.map_congr_left fun r hr => ?_).trans l.map_id
      exact if_neg (hl r hr)
    have hmap : (d.recorded store now db row f hf).notifications.rows =
        first ++ f (row.claim now) :: last := by
      rw [recorded, rows_recorded hd, hrows, List.map_append, List.map_cons, hkeep first hne_first,
        hkeep last hne_last, if_pos rfl]
    rw [dueRows, hmap, List.filter_append, hnone, List.nil_append, List.filter_cons]

omit [Formats] in
theorem dueRows_of_none (hd : db.firstDue d.bound now = none) : d.dueRows now db = [] :=
  List.filter_eq_nil_iff.mpr fun r hr => List.find?_eq_none.mp hd r hr

omit [Formats] in
theorem timely_cons {rest : List NotificationRow} :
    d.Timely send now (left + 1) (row :: rest) ↔
      (d.failsForNow send row.claimedJob = true →
        ∃ next, retryTime now row.claimedJob.attempts d.retryDelaySeconds.toNat = some next ∧
          (0 < left → now.toRfc3339 < next)) ∧ d.Timely send now left rest := by
  constructor
  · intro h
    constructor
    · intro hfails
      obtain ⟨next, hnext, hafter⟩ := h 0 row rfl (Nat.succ_pos left) hfails
      exact ⟨next, hnext, fun hleft => hafter (Nat.succ_lt_succ hleft)⟩
    · intro i r hr hi hfails
      obtain ⟨next, hnext, hafter⟩ := h (i + 1) r hr (Nat.succ_lt_succ hi) hfails
      exact ⟨next, hnext, fun hlt => hafter (Nat.succ_lt_succ hlt)⟩
  · rintro ⟨hrow, hrest⟩ (_ | i) r hr hi hfails
    · cases hr
      obtain ⟨next, hnext, hafter⟩ := hrow hfails
      exact ⟨next, hnext, fun hlt => hafter (Nat.lt_of_succ_lt_succ hlt)⟩
    · obtain ⟨next, hnext, hafter⟩ := hrest i r hr (Nat.lt_of_succ_lt_succ hi) hfails
      exact ⟨next, hnext, fun hlt => hafter (Nat.lt_of_succ_lt_succ hlt)⟩

variable (store) (send) (left) (delivered) in
theorem attempts_nil (hdue : d.dueRows now db = []) :
    d.attempts store send now left db = [] ∧
      d.deliverLoop store send now left delivered db = (.ok delivered, db) := by
  have hnone : db.firstDue d.bound now = none :=
    List.find?_eq_none.mpr (List.filter_eq_nil_iff.mp hdue)
  cases left with
  | zero => exact ⟨rfl, rfl⟩
  | succ left =>
    refine ⟨?_, deliverLoop_none store send now left delivered db hnone⟩
    rw [attempts, perform_claim, hnone]

omit [Formats] in
/-- The first of the due rows is the one a claim takes. -/
theorem firstDue_of_dueRows {rest : List NotificationRow} (h : d.dueRows now db = row :: rest) :
    db.firstDue d.bound now = some row := by
  have hhead : (d.dueRows now db).head? = db.firstDue d.bound now := List.head?_filter
  rw [← hhead, h, List.head?_cons]

variable (store) (send) (left) in
/-- The job of the first due row is attempted. -/
theorem attempts_of_firstDue (hd : db.firstDue d.bound now = some row) :
    ∃ jobs, d.attempts store send now (left + 1) db = row.claimedJob :: jobs := by
  have hclaim : (Op.claim now d.bound).perform store db =
      (.ok (.claimed (some row.claimedJob)), d.claimed store now db) := by
    rw [claimed, perform_claim, hd]
  rw [attempts, hclaim]
  dsimp only
  split
  · exact ⟨[], rfl⟩
  · exact ⟨_, rfl⟩

/-! ## 3. When a call is a round -/

/-- **A call that attempts the due rows once has timely failures.** By induction on the limit; a
    row that is due again would be attempted next. -/
theorem timely_of_attempts (hattempts : d.attempts store send now left db =
      ((d.dueRows now db).take left).map NotificationRow.claimedJob)
    (hreturns : ∃ n, (d.deliverLoop store send now left delivered db).1 = .ok n) :
    d.Timely send now left (d.dueRows now db) := by
  induction left generalizing delivered db with
  | zero => exact fun i _ _ hi => absurd hi (Nat.not_lt_zero i)
  | succ left ih =>
    cases hd : db.firstDue d.bound now with
    | none =>
      rw [dueRows_of_none hd]
      exact fun i _ hi => by cases hi
    | some row =>
      obtain ⟨rest, hdue, hids, hafter⟩ := dueRows_recorded store hd
      cases hw : d.written now row.claimedJob (d.attempt send row.claimedJob) with
      | none =>
        obtain ⟨n, hn⟩ := hreturns
        rw [loop_unwritten hd hw] at hn
        cases hn
      | some f =>
        obtain ⟨hlist, hloop⟩ := loop_written store left delivered hd hw
        rw [hlist, hdue, List.take_succ_cons, List.map_cons] at hattempts
        rw [hloop] at hreturns
        have htail := (List.cons.inj hattempts).2
        have hnext := hafter f (fixed_written hw)
        rw [hdue, timely_cons]
        by_cases hagain : d.dueNow now (f (row.claim now)) = true
        · rw [if_pos hagain] at hnext
          obtain ⟨hfails, next, htime, hle⟩ := (dueNow_written hw).mp hagain
          cases left with
          | zero =>
            exact ⟨fun _ => ⟨next, htime, fun h => absurd h (Nat.lt_irrefl 0)⟩,
              fun i _ _ hi => absurd hi (Nat.not_lt_zero i)⟩
          | succ left =>
            -- the row is attempted again, but no further one has its id
            obtain ⟨jobs, hjobs⟩ := attempts_of_firstDue store send left
              (firstDue_of_dueRows hnext)
            rw [hjobs] at htail
            obtain ⟨r, hr, hjob⟩ := List.mem_map.mp (htail ▸ List.mem_cons_self)
            have hid : r.id = (f (row.claim now)).id := congrArg NotificationJob.id hjob
            rw [id_written hw] at hid
            exact absurd hid (hids r (List.mem_of_mem_take hr))
        · rw [if_neg hagain] at hnext
          refine ⟨fun hfails => ?_, ?_⟩
          · obtain ⟨next, htime⟩ := retryTime_of_written hw hfails
            refine ⟨next, htime, fun _ => not_le.mp fun hle => hagain ?_⟩
            exact (dueNow_written hw).mpr ⟨hfails, next, htime, hle⟩
          · rw [← hnext]
            refine ih ?_ hreturns
            rw [hnext]
            exact htail

omit [Formats] in
/-- **The recorded row is not among those that are left to attempt**: where it is due again, the
    limit is reached. -/
theorem left_of_timely {rest : List NotificationRow}
    (h : d.Timely send now (left + 1) (row :: rest))
    (hw : d.written now row.claimedJob (d.attempt send row.claimedJob) = some f) :
    let due := if d.dueNow now (f (row.claim now)) then f (row.claim now) :: rest else rest
    due.take left = rest.take left ∧ d.Timely send now left due := by
  intro due
  obtain ⟨hrow, hrest⟩ := timely_cons.mp h
  by_cases hagain : d.dueNow now (f (row.claim now)) = true
  · obtain ⟨hfails, next, htime, hle⟩ := (dueNow_written hw).mp hagain
    obtain ⟨next', htime', hlt⟩ := hrow hfails
    rw [htime] at htime'
    cases htime'
    have hzero : left = 0 := Nat.eq_zero_of_not_pos fun hpos => not_lt.mpr hle (hlt hpos)
    subst hzero
    exact ⟨rfl, fun i _ _ hi => absurd hi (Nat.not_lt_zero i)⟩
  · rw [show due = rest from if_neg hagain]
    exact ⟨rfl, hrest⟩

variable (store) (delivered) in
/-- **The loop over due rows whose failures are timely.** By induction on the limit: what is left
    to attempt is never what was attempted. -/
theorem loop_of_timely (h : d.Timely send now left (d.dueRows now db)) :
    let due := (d.dueRows now db).take left
    let result := d.deliverLoop store send now left delivered db
    d.attempts store send now left db = due.map NotificationRow.claimedJob ∧
      result.1 =
        .ok (delivered + due.countP fun row => delivers (d.attempt send row.claimedJob)) ∧
      (∀ row ∈ due, ∃ row', result.2.notifications.get? row.id = some row' ∧
        Settled (d.attempt send row.claimedJob) row row') ∧
      ∀ row ∈ db.notifications.rows, row ∉ due →
        result.2.notifications.get? row.id = some row := by
  induction left generalizing delivered db with
  | zero =>
    refine ⟨rfl, rfl, fun row hr => (List.not_mem_nil hr).elim, fun row hr _ => ?_⟩
    exact NotificationTable.get?_of_mem hr
  | succ left ih =>
    cases hd : db.firstDue d.bound now with
    | none =>
      obtain ⟨hlist, hloop⟩ := attempts_nil store send (left + 1) delivered
        (dueRows_of_none hd)
      intro due result
      have hdue : due = [] := congrArg (List.take (left + 1)) (dueRows_of_none hd)
      rw [hdue, hlist, show result = (.ok delivered, db) from hloop]
      refine ⟨rfl, rfl, fun row hr => (List.not_mem_nil hr).elim, fun row hr _ => ?_⟩
      exact NotificationTable.get?_of_mem hr
    | some row =>
      obtain ⟨rest, hdue, hids, hafter⟩ := dueRows_recorded store hd
      rw [hdue] at h ⊢
      cases hw : d.written now row.claimedJob (d.attempt send row.claimedJob) with
      | none =>
        obtain ⟨hfails, htime⟩ := written_eq_none hw
        obtain ⟨next, hnext, _⟩ := (timely_cons.mp h).1 hfails
        rw [htime] at hnext
        cases hnext
      | some f =>
        obtain ⟨hlist, hloop⟩ := loop_written store left delivered hd hw
        let db' := d.recorded store now db row f (fixed_written hw)
        have hrows : db'.notifications.rows =
            db.notifications.rows.map fun r => if r.id = row.id then f (r.claim now) else r :=
          rows_recorded hd
        have hleft : (d.dueRows now db').take left = rest.take left ∧
            d.Timely send now left (d.dueRows now db') := by
          rw [hafter f (fixed_written hw)]
          exact left_of_timely h hw
        obtain ⟨hattempts, hreturned, hsettled, huntouched⟩ := @ih
          (if delivers (d.attempt send row.claimedJob) then delivered + 1 else delivered) db' hleft.2
        rw [hleft.1] at hattempts hreturned hsettled huntouched
        have hmem : f (row.claim now) ∈ db'.notifications.rows := by
          rw [hrows]
          refine List.mem_map.mpr ⟨row, List.mem_of_find?_eq_some hd, if_pos rfl⟩
        intro due result
        have hresult : result = d.deliverLoop store send now left _ db' := hloop
        rw [hresult]
        refine ⟨by rw [hlist, hattempts]; rfl, ?_, ?_, ?_⟩
        · refine hreturned.trans (congrArg Except.ok ?_)
          rw [show due = row :: rest.take left from rfl, List.countP_cons]
          split <;> omega
        · intro r hr
          rcases List.mem_cons.mp hr with rfl | hr
          · refine ⟨f (r.claim now), ?_, settled_written hw r⟩
            rw [← id_written hw r]
            refine huntouched _ hmem fun hin => ?_
            exact hids _ (List.mem_of_mem_take hin) (id_written hw r)
          · exact hsettled r hr
        · intro r hr hout
          have hne : r.id ≠ row.id := by
            intro hid
            have hget := NotificationTable.get?_of_mem hr
            rw [hid, (firstDue_eq_some hd).1] at hget
            cases hget
            exact hout List.mem_cons_self
          refine huntouched r ?_ fun hin => hout (List.mem_cons_of_mem _ hin)
          rw [hrows]
          exact List.mem_map.mpr ⟨r, hr, if_neg hne⟩

omit [Formats] in
theorem delivers_iff {answer : Option SendResult} : delivers answer = true ↔
    answer = some (.ok ()) := by
  rcases answer with _ | _ | _ <;> simp [delivers]

/-- **A call is one round over the due rows** exactly if the failures among the first of them, up
    to the limit, are timely. -/
theorem round_iff_timely (d : NotificationDispatcher) (store : ServerEventStore)
    (send : NotificationJob → SendResult) (now : DateTime) (limit : Nat) (db : Db) :
    d.Round store send now limit db ↔ d.Timely send now limit (d.dueRows now db) := by
  constructor
  · exact fun h => timely_of_attempts h.attempted ⟨_, h.returned⟩
  · intro h
    obtain ⟨hattempted, hreturned, hsettled, huntouched⟩ :=
      loop_of_timely store 0 h
    refine ⟨hattempted, hreturned.trans ?_, hsettled, huntouched⟩
    rw [Nat.zero_add]
    refine congrArg Except.ok (List.countP_congr fun row hr => ?_)
    obtain ⟨row', hget, hrow⟩ := hsettled row hr
    have hget' : (d.deliverDue store send now limit db).2.notifications.get? row.id = some row' :=
      hget
    rw [hget', Option.any_some, decide_eq_true_eq, delivers_iff]
    rcases hrow.status with ⟨ha, hs⟩ | ⟨ha, hs, _⟩
    · exact iff_of_true ha hs
    · refine iff_of_false ha fun hsent => ?_
      rw [hs] at hsent
      cases hsent

end Step

/-- **Where the arithmetic of the retry times does not overflow**, and the delay is a second at
    least, failures are timely exactly if the retry times of all but the last job of the limit
    stay in years up to 9999. -/
theorem timely_iff_years {send : NotificationJob → SendResult} {limit : Nat}
    {due : List NotificationRow} (hnow : now.InRange) (hdelay : 0 < d.retryDelaySeconds.toNat)
    (hfits : ∀ k, k < d.bound → retryTime now k d.retryDelaySeconds.toNat =
      some (d.retryAt now k).toRfc3339) :
    d.Timely send now limit due ↔ ∀ i row, due[i]? = some row → i + 1 < limit →
      d.failsForNow send row.claimedJob = true →
      (d.retryAt now row.claimedJob.attempts).InRange := by
  have hlater : ∀ k, now < d.retryAt now k := by
    intro k
    have hpos : 0 < d.retryDelaySeconds.toNat * 2 ^ min (k - 1) 10 :=
      Nat.mul_pos hdelay (Nat.pow_pos (by decide))
    rw [DateTime.lt_iff]
    show now.nanos < now.nanos + ((d.retryDelaySeconds.toNat * 2 ^ min (k - 1) 10 : Nat) : Int) *
      1000000000
    omega
  constructor
  · intro h i row hrow hi hfails
    obtain ⟨next, htime, hafter⟩ := h i row hrow (Nat.lt_of_succ_lt hi) hfails
    rw [hfits _ (failsForNow_iff.mp hfails).2] at htime
    cases htime
    by_contra hout
    exact lt_asymm (hafter hi) (DateTime.text_lt_of_signed hout hnow)
  · intro h i row hrow hi hfails
    refine ⟨_, hfits _ (failsForNow_iff.mp hfails).2, fun hnext => ?_⟩
    exact DateTime.text_lt hnow (h i row hrow hnext hfails) (hlater _)

end NotificationDispatcher

namespace Sample

/-- The tables after a firing event that goes to one channel. -/
def queued : Db := ((@Op.perform formats telegramStore
  (.accept (call (event id1 "2026-01-01T00:00:00Z" .firing .critical))) Db.empty)).2

end Sample

/-- **A delay of a trillion seconds makes a call attempt its job twice**: the first retry time is
    an instant of the year 33714, and its text sorts before the one of now. -/
theorem second_attempt_in_round :
    let d := (Sample.delayed 1000000000000).dispatcher ()
    let t : DateTime := ⟨1767225660000000000⟩
    let send := fun _ => .error (.temporary "Telegram returned HTTP 500 Internal Server Error")
    (∀ k, k < d.bound → (retryTime t k d.retryDelaySeconds.toNat).isSome) ∧
      ((@NotificationDispatcher.attempts d Sample.formats Sample.telegramStore send t 100
        Sample.queued).map fun job => (job.id, job.attempts)) = [(1, 1), (1, 2)] ∧
      ¬ @NotificationDispatcher.Round d Sample.formats Sample.telegramStore send t 100
        Sample.queued := by
  intro d t send
  have hattempts : ((@NotificationDispatcher.attempts d Sample.formats Sample.telegramStore send t
      100 Sample.queued).map fun job => (job.id, job.attempts)) = [(1, 1), (1, 2)] := by
    decide +kernel
  refine ⟨by decide, hattempts, ?_⟩
  rintro ⟨hround, _, _, _⟩
  have hlen := congrArg List.length hattempts
  rw [List.length_map, hround, List.length_map] at hlen
  exact absurd hlen (by decide +kernel)

end Beacon
