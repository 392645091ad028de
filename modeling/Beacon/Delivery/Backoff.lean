/-
  File:      Beacon/Delivery/Backoff.lean
  Subject:   The time between two attempts of a job.

  A retryable failure of attempt `k` at `t` writes `t + b * 2^min(k-1, 10)` seconds into
  `next_attempt_at`, a claim at `t` writes `t` into `claimed_at`, and the WHERE clause compares
  both as texts. The row is left alone until it is claimed again, so the comparison the next claim
  passed speaks about these two texts.

  The spacing needs the retry time in years up to 9999. The text of a later year starts with a
  plus sign, which sorts before every digit: such a job is due again at once.

  * `retryTime_of_inRange` -- within these years the arithmetic neither saturates nor wraps;
  * `spaced_of_run` -- **the spacing of the attempts**, in runs whose retry times stay there;
  * `claimed_before_backoff` -- a delay that leaves them is no delay.
-/
import Beacon.Delivery.Reclaim
import Beacon.Delivery.Worker

namespace Beacon

open Foundation

/-- The instant the failure of attempt `k` at `t` is to be retried at. -/
def NotificationDispatcher.retryAt (d : NotificationDispatcher) (t : DateTime) (k : Nat) :
    DateTime := t.addSeconds ((d.retryDelaySeconds.toNat * 2 ^ min (k - 1) 10 : Nat) : Int)

/-- **Within years 0 to 9999** the retry time is the sum. -/
theorem retryTime_of_inRange {d : NotificationDispatcher} {t : DateTime} {k : Nat}
    (ht : t.InRange) (hr : (d.retryAt t k).InRange) :
    retryTime t k d.retryDelaySeconds.toNat = some (d.retryAt t k).toRfc3339 := by
  have hlow := (DateTime.nanos_of_inRange ht).1
  have hhigh := (DateTime.nanos_of_inRange hr).2
  unfold retryTime retryInstant retryDelay
  unfold NotificationDispatcher.retryAt at hr hhigh ⊢
  generalize d.retryDelaySeconds.toNat * 2 ^ min (k - 1) 10 = delay at hr hhigh ⊢
  have hsum : t.nanos + (delay : Int) * 1000000000 < 253402300800000000000 := hhigh
  have hcast : asI64 (min delay (2 ^ 64 - 1)) = delay := by
    have hmin : min delay (2 ^ 64 - 1) = delay := by omega
    rw [hmin]
    exact if_pos (by omega)
  have hyears : chronoYears (t.addSeconds delay) = true := by
    obtain ⟨h0, h9⟩ := hr
    unfold chronoYears
    rw [Bool.and_eq_true, decide_eq_true_eq, decide_eq_true_eq]
    omega
  have hadd : chronoAddSeconds t delay = some (t.addSeconds delay) :=
    if_pos ⟨by omega, hyears⟩
  rw [hcast, hadd, Option.map_some]

/-! ## 2. Runs whose retry times stay in range -/

/-- The failure a report is to record as retryable with attempts left: its instant and the
    attempt. -/
def Phase.retries (maxAttempts : Nat) : Phase → Option (DateTime × Nat)
  | .reporting now _ job (some (.error e)) =>
    if failureIsRetryable e && job.attempts < maxAttempts then some (now, job.attempts) else none
  | _ => none

/-- The steps under the condition: clocks read years 0 to 9999, and so do retry times. -/
def Workers.Dated (fleet : Fleet Unit) (s : Workers Unit) : WorkerAction Unit → Prop
  | .deliver _ now _ => now.InRange
  | .report i => ∀ p ∈ (s.phase i).retries fleet.bound,
      ((fleet.dispatcher i).retryAt p.1 p.2).InRange
  | _ => True

instance (fleet : Fleet Unit) (s : Workers Unit) : ∀ a, Decidable (s.Dated fleet a)
  | .accept _ | .claim _ | .send _ _ | .crash _ => isTrue trivial
  | .deliver _ now _ => inferInstanceAs (Decidable now.InRange)
  | .report i => inferInstanceAs (Decidable (∀ p ∈ (s.phase i).retries fleet.bound,
      ((fleet.dispatcher i).retryAt p.1 p.2).InRange))

/-- The clock of the call in hand reads years 0 to 9999. -/
def Workers.Clocked (s : Workers Unit) : Prop := ∀ now ∈ (s.phase ()).now?, now.InRange

/-- What has become of attempt `k`, claimed at `t`, as long as no further one is counted. -/
def NotificationRow.Tried (d : NotificationDispatcher) (t : DateTime) (k : Nat)
    (r : NotificationRow) : Prop :=
  r.attempts = k → (r.status = .inFlight ∧ r.claimedAt = some t.toRfc3339) ∨ r.status = .sent ∨
    (r.status = .failed ∧ (r.retryable = true → k < d.bound →
      (d.retryAt t k).InRange ∧ r.nextAttemptAt = (d.retryAt t k).toRfc3339))

/-- Attempt `k` of job `id` was claimed at `t`. -/
structure Workers.Trail (d : NotificationDispatcher) (id k : Nat) (t : DateTime)
    (s : Workers Unit) : Prop where
  held : ∀ now job, (s.phase ()).Holds now job → job.id = id → job.attempts = k → now = t
  row : ∃ r, s.db.notifications.get? id = some r ∧ k ≤ r.attempts ∧ r.Tried d t k

namespace NotificationDispatcher

variable {d : NotificationDispatcher} {now : DateTime} {job : NotificationJob}

/-- A failure a dispatcher records is the one of its job. -/
theorem outcome_eq_fail {answer : Option SendResult} {id : Nat}
    {update : NotificationFailureUpdate} (h : d.outcome now job answer = .fail id update) :
    id = job.id ∧ ∃ error retryable, update = d.failureUpdate now job error retryable ∧
      (retryable = true → ∃ e, answer = some (.error e) ∧ failureIsRetryable e = true) := by
  rcases answer with _ | e | _
  · cases h
    exact ⟨rfl, _, false, rfl, fun h => by cases h⟩
  · cases h
    exact ⟨rfl, _, _, rfl, fun h => ⟨e, rfl, h⟩⟩
  · cases h

/-- The text a retryable failure writes, if its retry time is in range. -/
theorem nextAttemptAt_failure {error : String} (hnow : now.InRange)
    (hlt : job.attempts < d.bound) (hr : (d.retryAt now job.attempts).InRange) :
    (d.failureUpdate now job error true).nextAttemptAt =
      some (d.retryAt now job.attempts).toRfc3339 := by
  rw [NotificationFailureUpdate.nextAttemptAt, if_neg]
  · exact retryTime_of_inRange hnow hr
  · rw [Bool.or_eq_true, not_or]
    exact ⟨Bool.false_ne_true, fun hge => absurd (of_decide_eq_true hge) (Nat.not_le_of_lt hlt)⟩

end NotificationDispatcher

section Runs

variable [Formats] {store : ServerEventStore} {fleet : Fleet Unit} {s s' : Workers Unit}
  {a : WorkerAction Unit}

theorem clocked_step (h : s.Clocked) (ha : s.Dated fleet a) (hs : s.Step store fleet a s') :
    s'.Clocked := by
  have hnow : ∀ {t p}, s.phase () = p → p.now? = some t → t.InRange := fun hp ht =>
    h _ (by rw [hp]; exact ht)
  cases hs with
  | accept call => exact h
  | start i now limit hp => rintro t ⟨⟩; exact ha
  | finish i now left hp hn => rintro t ⟨⟩
  | crash i => rintro t ⟨⟩
  | claim i now left row hp hrow => rintro t ⟨⟩; exact hnow hp rfl
  | send i now left job answer result hp hr => rintro t ⟨⟩; exact hnow hp rfl
  | report i now left job answer p hp hnext =>
    rcases hnext with ⟨rfl, _⟩ | ⟨rfl, _⟩
    · rintro t ⟨⟩
      exact hnow hp rfl
    · rintro t ⟨⟩

omit [Formats] in
/-- A retryable failure with attempts left is recorded with a retry time in range. -/
theorem retryAt_of_dated {now : DateTime} {left : Nat} {job : NotificationJob} {e : SendError}
    (ha : s.Dated fleet (.report ()))
    (hp : s.phase () = .reporting now left job (some (.error e)))
    (he : failureIsRetryable e = true) (hlt : job.attempts < fleet.bound) :
    ((fleet.dispatcher ()).retryAt now job.attempts).InRange := by
  refine ha (now, job.attempts) ?_
  rw [hp]
  exact if_pos (Bool.and_eq_true_iff.mpr ⟨he, decide_eq_true hlt⟩)

theorem trail_step {id k : Nat} {t : DateTime} (hheld : s.Held) (hclock : s.Clocked)
    (ha : s.Dated fleet a) (h : s.Trail (fleet.dispatcher ()) id k t)
    (hs : s.Step store fleet a s') : s'.Trail (fleet.dispatcher ()) id k t := by
  obtain ⟨r, hr, hk, htried⟩ := h.row
  cases hs with
  | accept call =>
    obtain ⟨r', hr', hstep⟩ := row_step store (.accept call) hr
    cases hstep
    exact ⟨h.held, r, hr', hk, htried⟩
  | start i now limit hp => exact ⟨fun _ _ hp => hp.elim, h.row⟩
  | finish i now left hp hn => exact ⟨fun _ _ hp => hp.elim, h.row⟩
  | crash i => exact ⟨fun _ _ hp => hp.elim, h.row⟩
  | send i now left job answer result hp hres =>
    refine ⟨?_, h.row⟩
    rintro now' job' ⟨rfl, rfl⟩
    exact h.held now' job' (by rw [hp]; exact ⟨rfl, rfl⟩)
  | claim i now left row hp hrow =>
    obtain ⟨r', hr', hstep⟩ := row_step store (.claim now fleet.bound) hr
    refine ⟨?_, r', hr', Nat.le_trans hk hstep.attempts_le, ?_⟩
    · -- the new attempt is a further one
      rintro now' job' ⟨rfl, rfl⟩ hid hatt
      have hget := (firstDue_eq_some hrow).1
      rw [show row.id = id from hid, hr] at hget
      cases hget
      have hatt' : r.attempts + 1 = k := hatt
      omega
    · cases hstep with
      | same => exact htried
      | claim =>
        intro hatt
        have hatt' : r.attempts + 1 = k := hatt
        omega
  | report i now left job answer p hp hnext =>
    have hold : (s.phase ()).Holds now job := by rw [hp]; exact ⟨rfl, rfl⟩
    refine ⟨?_, ?_⟩
    · intro now' job' hj
      rcases hnext with ⟨rfl, _⟩ | ⟨rfl, _⟩ <;> exact hj.elim
    obtain ⟨r', hr', hstep⟩ := row_step store ((fleet.dispatcher ()).outcome now job answer) hr
    refine ⟨r', hr', Nat.le_trans hk hstep.attempts_le, ?_⟩
    generalize hop : (fleet.dispatcher ()).outcome now job answer = op at hstep
    cases hstep with
    | same => exact htried
    | claim now' bound _ hdue => rcases answer with _ | e | _ <;> cases hop
    | complete now' _ hs => exact fun _ => .inr (.inl rfl)
    | fail update next _ hs hwritten =>
      intro hatt
      refine .inr (.inr ⟨rfl, fun hretry hlt => ?_⟩)
      obtain ⟨hid, error, retryable, rfl, hcause⟩ :=
        NotificationDispatcher.outcome_eq_fail hop
      -- the row in flight is the one of the job in hand, claimed at `now`
      obtain ⟨r₀, hr₀, _, hatt₀, _⟩ := hheld now job hold
      have hrid : r.id = id := (NotificationTable.get?_eq_some.mp hr).2
      rw [← hid, hrid, hr] at hr₀
      cases hr₀
      have hkjob : job.attempts = k := hatt₀.symm.trans hatt
      obtain rfl : now = t := h.held now job hold (hid.symm.trans hrid) hkjob
      have hretry' : retryable = true := hretry
      obtain ⟨e, rfl, he⟩ := hcause hretry'
      subst hretry'
      subst hkjob
      rw [fleet.bound_eq] at hlt
      have hnow : now.InRange := hclock now (by rw [hp]; rfl)
      have hretryAt := retryAt_of_dated ha hp he hlt
      rw [NotificationDispatcher.nextAttemptAt_failure hnow (by rw [fleet.bound_eq]; exact hlt)
        hretryAt] at hwritten
      exact ⟨hretryAt, (Option.some.inj hwritten).symm⟩

/-- A claim starts a trail. -/
theorem trail_claim {now : DateTime} {left : Nat} {row : NotificationRow}
    (hp : s.phase () = .claiming now (left + 1)) (hrow : s.db.firstDue fleet.bound now = some row)
    (hs : s.Step store fleet (.claim ()) s') :
    s'.Trail (fleet.dispatcher ()) row.id (row.attempts + 1) now := by
  cases hs with
  | finish i now' left' hp' hn =>
    rw [hp] at hp'
    cases hp'
    rcases hn with hn | hn
    · cases hn
    · rw [hrow] at hn
      cases hn
  | claim i now' left' row' hp' hrow' =>
    rw [hp] at hp'
    cases hp'
    rw [hrow] at hrow'
    cases hrow'
    have hget := get?_claim store hrow row.id
    rw [(firstDue_eq_some hrow).1, Option.map_some, if_pos rfl] at hget
    exact ⟨fun _ _ hj _ _ => hj.1, row.claim now, hget, Nat.le_refl _,
      fun _ => .inl ⟨rfl, rfl⟩⟩

variable {as : List (WorkerAction Unit)}

theorem clocked_run (h : (workers store fleet).Along (Workers.Dated fleet)
    (workers store fleet).init as) : ((workers store fleet).run as).Clocked :=
  Machine.invariant_along (M := workers store fleet) (I := Workers.Clocked) (by rintro t ⟨⟩)
    (fun _ _ _ hI hP h => clocked_step hI hP (step_cases h)) h

/-- **A trail is kept** from where it starts on. -/
theorem trail_run {id k : Nat} {t : DateTime} (hheld : s.Held) (hclock : s.Clocked)
    (h : s.Trail (fleet.dispatcher ()) id k t)
    (has : (workers store fleet).Along (Workers.Dated fleet) s as) :
    ((workers store fleet).runFrom s as).Trail (fleet.dispatcher ()) id k t := by
  have hI := Machine.runFrom_invariant_along (M := workers store fleet)
    (I := fun s => s.Held ∧ s.Clocked ∧ s.Trail (fleet.dispatcher ()) id k t)
    (fun s a s' hI hP hs => ⟨held_step hI.1 (step_cases hs), clocked_step hI.2.1 hP (step_cases hs),
      trail_step hI.1 hI.2.1 hP hI.2.2 (step_cases hs)⟩) ⟨hheld, hclock, h⟩ has
  exact hI.2.2

omit [Formats] in
/-- The row of a tried attempt is due after the time of the attempt only. -/
theorem spaced_of_tried {d : NotificationDispatcher} {t now : DateTime} {r : NotificationRow}
    (h : r.Tried d t r.attempts) (hpos : r.status ≠ .pending) (ht : t.InRange)
    (hnow : now.InRange)
    (hdue : r.due d.bound now.toRfc3339 (staleBefore now).toRfc3339 = true) :
    (r.status = .inFlight ∧ t.addSeconds 300 ≤ now) ∨
      (r.status = .failed ∧ d.retryAt t r.attempts ≤ now) := by
  obtain ⟨hlt, hcase⟩ := due_iff.mp hdue
  rcases hcase with hs | ⟨hs, hretry, hnext⟩ | ⟨hs, text, hclaimed, hle⟩
  · exact absurd hs hpos
  · rcases h rfl with ⟨hf, _⟩ | hf | ⟨_, htext⟩
    · rw [hs] at hf
      cases hf
    · rw [hs] at hf
      cases hf
    · obtain ⟨hr, he⟩ := htext hretry hlt
      rw [he] at hnext
      exact .inr ⟨hs, (DateTime.text_le_iff hr hnow).mp hnext⟩
  · rcases h rfl with ⟨_, he⟩ | hf | ⟨hf, _⟩
    · rw [hclaimed] at he
      cases he
      exact .inl ⟨hs, le_staleBefore.mp ((stale_iff ht hnow).mp hle)⟩
    · rw [hs] at hf
      cases hf
    · rw [hs] at hf
      cases hf

/-- The row after the report of a retryable failure with attempts left. -/
theorem reported_step {now : DateTime} {left : Nat} {job : NotificationJob} {e : SendError}
    (hheld : s.Held) (hclock : s.Clocked) (ha : s.Dated fleet (.report ()))
    (hp : s.phase () = .reporting now left job (some (.error e)))
    (he : failureIsRetryable e = true) (hlt : job.attempts < fleet.bound)
    (hs : s.Step store fleet (.report ()) s') :
    ∃ r, s'.db.notifications.get? job.id = some r ∧ r.status = .failed ∧
      r.attempts = job.attempts ∧ r.Tried (fleet.dispatcher ()) now job.attempts := by
  obtain ⟨r, hr, hflight, hatt, _⟩ := hheld now job (by rw [hp]; exact ⟨rfl, rfl⟩)
  have hnow : now.InRange := hclock now (by rw [hp]; rfl)
  have hretryAt := retryAt_of_dated ha hp he hlt
  have hwritten : ((fleet.dispatcher ()).failureUpdate now job e.toString true).nextAttemptAt =
      some ((fleet.dispatcher ()).retryAt now job.attempts).toRfc3339 :=
    NotificationDispatcher.nextAttemptAt_failure hnow (by rw [fleet.bound_eq]; exact hlt) hretryAt
  cases hs with
  | report i now' left' job' answer p hp' hnext =>
    rw [hp] at hp'
    cases hp'
    rw [show (fleet.dispatcher ()).outcome now job (some (.error e)) = .fail job.id
      ((fleet.dispatcher ()).failureUpdate now job e.toString true) by rw [← he]; rfl,
      Workers.goto_db, perform_fail, hwritten]
    refine ⟨_, updated_row hr, ?_⟩
    rw [if_pos (isClaimed_iff.mpr ⟨(NotificationTable.get?_eq_some.mp hr).2, hflight⟩)]
    exact ⟨rfl, hatt, fun _ => .inr (.inr ⟨rfl, fun _ _ => ⟨hretryAt, rfl⟩⟩)⟩

/-- A row that was tried is not pending. -/
theorem ne_pending {fleet : Fleet Unit} {id : Nat} {r : NotificationRow}
    (hr : ((workers store fleet).run as).db.notifications.get? id = some r) (hpos : r.attempts ≠ 0) :
    r.status ≠ .pending := fun hs => hpos ((rowsSound_run as id r hr).pending hs)

end Runs

/-! ## 3. The spacing -/

/-- **The spacing of the attempts of a job**, in runs whose clocks and retry times read years 0 to
    9999, with crashes at any point: if a retryable failure of attempt `k` was reported at `t`,
    the next claim of the job is not before `t + b * 2^min(k-1, 10)` seconds; if attempt `k` was
    claimed at `t`, the next claim either finds the job still in flight and is not before five
    minutes after `t`, or finds it failed and is not before that retry time. -/
theorem spaced_of_run [Formats] (store : ServerEventStore) (fleet : Fleet Unit)
    (before after : List (WorkerAction Unit)) (a : WorkerAction Unit)
    (hdated : (workers store fleet).Along (Workers.Dated fleet) (workers store fleet).init
      (before ++ a :: after)) :
    let d := fleet.dispatcher ()
    let s := (workers store fleet).run before
    let s' := (workers store fleet).run (before ++ a :: after)
    ∀ next left' row', s'.phase () = .claiming next (left' + 1) →
      s'.db.firstDue fleet.bound next = some row' →
      (∀ t left job e, a = .report () → s.phase () = .reporting t left job (some (.error e)) →
        failureIsRetryable e = true → row'.id = job.id → row'.attempts = job.attempts →
        d.retryAt t job.attempts ≤ next) ∧
      (∀ t left row, a = .claim () → s.phase () = .claiming t (left + 1) →
        s.db.firstDue fleet.bound t = some row → row'.id = row.id →
        row'.attempts = row.attempts + 1 →
        (row'.status = .inFlight ∧ t.addSeconds 300 ≤ next) ∨
          (row'.status = .failed ∧ d.retryAt t row'.attempts ≤ next)) := by
  intro d s s' next left' row' hp' hrow'
  obtain ⟨hbefore, hact, hafter⟩ : (workers store fleet).Along (Workers.Dated fleet)
      (workers store fleet).init before ∧ s.Dated fleet a ∧ (workers store fleet).Along
        (Workers.Dated fleet) ((workers store fleet).act s a) after :=
    Machine.along_append.mp hdated
  have hheld : s.Held := held_run store fleet before
  have hclock : s.Clocked := clocked_run hbefore
  have hnext : next.InRange := clocked_run hdated next (by rw [hp']; rfl)
  obtain ⟨hget', hdue'⟩ := firstDue_eq_some hrow'
  rw [← fleet.bound_eq ()] at hdue'
  constructor
  · rintro t left job e rfl hp he hid hatt
    have hlt : job.attempts < fleet.bound := by
      rw [← fleet.bound_eq (), ← hatt]
      exact (due_iff.mp hdue').1
    obtain ⟨s₁, hs₁⟩ : ∃ s₁, (workers store fleet).step s (.report ()) = some s₁ := by
      simp only [workers, Workers.step, hp]
      split <;> exact ⟨_, rfl⟩
    obtain ⟨r, hr, hfailed, hatt₁, htried⟩ :=
      reported_step hheld hclock hact hp he hlt (step_cases hs₁)
    -- nobody claims the job in between, so the row is as the report left it
    have hrun : (workers store fleet).run (before ++ [.report ()]) = s₁ := by
      rw [Machine.run_snoc, Machine.act_of_step hs₁]
    rw [← hrun] at hr
    obtain ⟨r', hr', hlater⟩ := later_run_row (before ++ [.report ()]) after hr
    rw [List.append_assoc, List.singleton_append, ← hid, hget'] at hr'
    cases hr'
    rcases hlater.2 (hatt.trans hatt₁.symm) with rfl | ⟨hflight, _⟩
    · have hpos : row'.status ≠ .pending := by rw [hfailed]; exact JobStatus.noConfusion
      rw [← hatt] at htried
      rcases spaced_of_tried htried hpos (hclock t (by rw [hp]; rfl)) hnext hdue' with
        ⟨hflight, _⟩ | ⟨_, hle⟩
      · rw [hfailed] at hflight
        cases hflight
      · rwa [hatt] at hle
    · rw [hfailed] at hflight
      cases hflight
  · rintro t left row rfl hp hrow hid hatt
    obtain ⟨s₁, hs₁⟩ : ∃ s₁, (workers store fleet).step s (.claim ()) = some s₁ := by
      simp only [workers, Workers.step, hp]
      split <;> exact ⟨_, rfl⟩
    have htrail := trail_claim hp hrow (step_cases hs₁)
    rw [Machine.act_of_step hs₁] at hafter
    have hclock₁ : s₁.Clocked := clocked_step hclock hact (step_cases hs₁)
    have hrun : s' = (workers store fleet).runFrom s₁ after := by
      rw [← Machine.act_of_step hs₁]
      exact Machine.run_append _ before (.claim () :: after)
    have htrail' := trail_run (held_step hheld (step_cases hs₁)) hclock₁ htrail hafter
    rw [← hrun] at htrail'
    obtain ⟨r, hr, _, htried⟩ := htrail'.row
    rw [← hid, hget'] at hr
    cases hr
    rw [← hatt] at htried
    exact spaced_of_tried htried (ne_pending hget' (by omega)) (hclock t (by rw [hp]; rfl)) hnext
      hdue'

namespace Sample

/-- The one worker of a server with two attempts and the delay `seconds`. -/
def delayed (seconds : UInt64) : Fleet Unit :=
  ⟨2, fun _ => ⟨["telegram"], 2, seconds, telegram_ne_nil, by decide⟩, fun _ => rfl⟩

/-- An alert is accepted and sent, and the channel fails. -/
def failed : List (WorkerAction Unit) :=
  [.accept (call (event id1 "2026-01-01T00:00:00Z" .firing .warning)),
    .deliver () ⟨1767225660000000000⟩ 100, .claim (), .send () unavailable]

end Sample

deriving instance DecidableEq for Phase

theorem retries_eq_some {maxAttempts k : Nat} {p : Phase} {t : DateTime}
    (h : p.retries maxAttempts = some (t, k)) : ∃ left job e,
      p = .reporting t left job (some (.error e)) ∧ failureIsRetryable e = true ∧
        job.attempts = k := by
  unfold Phase.retries at h
  split at h
  · rename_i now left job e
    split at h
    · rename_i hcond
      cases h
      exact ⟨left, job, e, rfl, (Bool.and_eq_true_iff.mp hcond).1, rfl⟩
    · cases h
  · cases h

/-- The theorem at a delay of 30 seconds and a call a minute later. -/
theorem spaced_of_run_minute :
    let M := @workers Unit _ Sample.formats Sample.telegramStore (Sample.delayed 30)
    let s := M.run (Sample.failed ++ [.report (), .claim (), .deliver () ⟨1767225720000000000⟩ 100])
    ∃ row, s.db.firstDue 2 ⟨1767225720000000000⟩ = some row ∧ row.attempts = 1 ∧
      ((Sample.delayed 30).dispatcher ()).retryAt ⟨1767225660000000000⟩ 1 ≤
        ⟨1767225720000000000⟩ := by
  intro M s
  have hrow : (s.db.firstDue 2 ⟨1767225720000000000⟩).map (fun r => (r.id, r.attempts)) =
      some (1, 1) := by decide +kernel
  obtain ⟨row, hrow, hcols⟩ := Option.map_eq_some_iff.mp hrow
  have hid : row.id = 1 := congrArg Prod.fst hcols
  have hatt : row.attempts = 1 := congrArg Prod.snd hcols
  obtain ⟨left, job, e, hp, he, hjob⟩ := @retries_eq_some 2 1
    ((M.run Sample.failed).phase ()) ⟨1767225660000000000⟩ (by decide +kernel)
  have hjid : job.id = 1 := by
    have hheld : ((M.run Sample.failed).phase ()).job?.map (·.id) = some 1 := by decide +kernel
    rw [hp] at hheld
    exact Option.some.inj hheld
  have hspaced := @spaced_of_run Sample.formats Sample.telegramStore (Sample.delayed 30)
    Sample.failed [.claim (), .deliver () ⟨1767225720000000000⟩ 100] (.report ())
    (by decide +kernel) ⟨1767225720000000000⟩ 99 row (by decide +kernel) hrow
  have hle := hspaced.1 _ left job e rfl hp he (hid.trans hjid.symm) (hatt.trans hjob.symm)
  rw [hjob] at hle
  exact ⟨row, hrow, hatt, hle⟩

/-- **A delay of a trillion seconds is none**: the retry time is an instant of the year 33714, its
    text sorts before the one of now, and the job is due again in the same call. -/
theorem claimed_before_backoff :
    let M := @workers Unit _ Sample.formats Sample.telegramStore (Sample.delayed 1000000000000)
    let d := (Sample.delayed 1000000000000).dispatcher ()
    let t : DateTime := ⟨1767225660000000000⟩
    let s := M.run Sample.failed
    let s' := M.run (Sample.failed ++ [.report ()])
    t.InRange ∧ retryInstant t 1 d.retryDelaySeconds.toNat = some (d.retryAt t 1) ∧
    ∃ left job e left' row', s.phase () = .reporting t left job (some (.error e)) ∧
      failureIsRetryable e = true ∧ job.attempts = 1 ∧ s'.phase () = .claiming t (left' + 1) ∧
      s'.db.firstDue 2 t = some row' ∧ row'.id = job.id ∧ row'.attempts = job.attempts ∧
      ¬ d.retryAt t job.attempts ≤ t := by
  intro M d t s s'
  obtain ⟨left, job, e, hp, he, hjob⟩ := @retries_eq_some 2 1 (s.phase ()) t
    (by decide +kernel)
  have hrow : (s'.db.firstDue 2 t).map (fun r => (some r.id, r.attempts)) =
      some ((s.phase ()).job?.map (·.id), 1) := by decide +kernel
  obtain ⟨row', hrow, hcols⟩ := Option.map_eq_some_iff.mp hrow
  have hid : some row'.id = some job.id := by
    have h := congrArg Prod.fst hcols
    rwa [hp] at h
  have hatt : row'.attempts = 1 := congrArg Prod.snd hcols
  refine ⟨by decide, by decide +kernel, left, job, e, 98, row', hp, he, hjob, by decide +kernel,
    hrow, Option.some.inj hid, hatt.trans hjob.symm, ?_⟩
  rw [hjob]
  decide +kernel

end Beacon
