/-
  File:      Beacon/Delivery/Overtaking.lean
  Subject:   The order in which the messages of one alert reach a channel.

  A claim takes the due row with the smallest id, so a job is handed out before an earlier one
  only while the earlier one waits: it failed and its retry time is still to come. That is how the
  queue is meant to work -- a job in backoff does not hold up the others -- and it lets a recovery
  message overtake the retried message of the alert.

  * `accounted_run` -- without crashes a row in flight is the one in hand, or the thread has ended;
  * `clear_step` -- rows ahead of a job stay settled;
  * `overtaken_while_waiting` -- **the order of the messages sent**: ids grow, but for jobs claimed
    while an earlier one waited;
  * `recovery_overtakes` -- a firing message sent after the recovery message.
-/
import Beacon.Delivery.Claims
import Beacon.Delivery.Worker
import Beacon.Server.Routing

namespace Beacon

open Foundation

/-! ## 1. Rows in flight -/

/-- A row in flight is the one in hand, or the thread of the worker has ended. -/
def Workers.Accounted (s : Workers Unit) : Prop :=
  ∀ id r, s.db.notifications.get? id = some r → r.status = .inFlight →
    (∃ now job, (s.phase ()).Holds now job ∧ job.id = id) ∨ s.phase () = .ended

/-- **A worker that claims has no row in flight.** -/
theorem Workers.Accounted.none_in_flight {s : Workers Unit} {now : DateTime} {left : Nat}
    (h : s.Accounted) (hp : s.phase () = .claiming now left) {r : NotificationRow}
    (hr : r ∈ s.db.notifications.rows) : r.status ≠ .inFlight := by
  intro hf
  rcases h r.id r (NotificationTable.get?_of_mem hr) hf with ⟨now', job, hj, _⟩ | hend
  · rw [hp] at hj
    exact hj
  · rw [hp] at hend
    cases hend

section Rows

variable [Formats] {store : ServerEventStore} {fleet : Fleet Unit} {s s' : Workers Unit}
  {a : WorkerAction Unit}

theorem accounted_step (h : s.Accounted) (ha : a ≠ .crash ()) (hs : s.Step store fleet a s') :
    s'.Accounted := by
  cases hs with
  | accept call =>
    intro id r hr hf
    rcases row_origin store (.accept call) hr with ⟨r', hr', hstep⟩ | ⟨m, at', rfl⟩
    · cases hstep
      exact h id r hr' hf
    · cases hf
  | start i now limit hp =>
    intro id r hr hf
    rcases h id r hr hf with ⟨now', job, hj, _⟩ | hend
    · rw [hp] at hj
      exact hj.elim
    · rw [hp] at hend
      cases hend
  | finish i now left hp hn =>
    exact fun id r hr hf =>
      absurd hf (h.none_in_flight hp (NotificationTable.get?_eq_some.mp hr).1)
  | crash i => exact absurd rfl ha
  | send i now left job answer result hp hres =>
    intro id r hr hf
    rcases h id r hr hf with ⟨now', job', hj, hid⟩ | hend
    · rw [hp] at hj
      exact .inl ⟨now', job', hj, hid⟩
    · rw [hp] at hend
      cases hend
  | claim i now left row hp hrow =>
    intro id r hr hf
    have hr' := (get?_claim store hrow id).symm.trans hr
    obtain ⟨old, hold, rfl⟩ := Option.map_eq_some_iff.mp hr'
    obtain ⟨hmem, hold'⟩ := NotificationTable.get?_eq_some.mp hold
    by_cases hid : old.id = row.id
    · exact .inl ⟨now, row.claimedJob, ⟨rfl, rfl⟩, hid.symm.trans hold'⟩
    · rw [if_neg hid] at hf
      exact absurd hf (h.none_in_flight hp hmem)
  | report i now left job answer p hp hnext =>
    intro id r hr hf
    obtain ⟨hbefore, hpanic⟩ := NotificationDispatcher.inFlight_of_outcome hr hf
    rcases h id r hbefore hf with ⟨now', job', hj, hid⟩ | hend
    · -- the row of the job: its report panicked, and the thread ends
      rw [hp] at hj
      obtain rfl : job' = job := hj.2
      rcases hnext with ⟨_, hok⟩ | ⟨rfl, _⟩
      · rw [(hpanic hid.symm).2] at hok
        cases hok
      · refine .inr ?_
        rw [Workers.goto_phase, Function.update_self]
    · rw [hp] at hend
      cases hend

variable (store) (fleet) in
/-- **Without crashes rows in flight are accounted for.** -/
theorem accounted_run {as : List (WorkerAction Unit)} (h : ∀ a ∈ as, a ≠ .crash ()) :
    ((workers store fleet).run as).Accounted := by
  have hcalm : (workers store fleet).Along (fun _ a => a ≠ .crash ())
      (workers store fleet).init as :=
    Machine.along_of_prefixes fun before a after e => h a (by rw [e]; simp)
  exact Machine.invariant_along (M := workers store fleet) (I := Workers.Accounted)
    (fun _ _ h => by cases h)
    (fun _ _ _ hI ha hs => accounted_step hI ha (step_cases hs)) hcalm

/-! ## 2. The rows ahead of a job -/

variable (store) in
/-- A fresh job has a larger id than the jobs before it. -/
theorem old_lt_fresh {db : Db} (op : Op) {r r' : NotificationRow} (hr : r ∈ db.notifications.rows)
    (hr' : r' ∈ (op.perform store db).2.notifications.rows)
    (hnew : db.notifications.get? r'.id = none) : r.id < r'.id := by
  obtain ⟨added, hadded⟩ := fixed_perform store db op
  have hsorted := (op.perform store db).2.notifications.ids_sorted
  have hmem : r'.fixed ∈ (op.perform store db).2.notifications.rows.map NotificationRow.fixed :=
    List.mem_map_of_mem hr'
  rw [← hadded] at hsorted hmem
  rcases List.mem_append.mp hmem with hold | hin
  · obtain ⟨r₀, hr₀, he⟩ := List.mem_map.mp hold
    have hid : r₀.id = r'.id := congrArg Prod.fst he
    have hget := NotificationTable.get?_of_mem hr₀
    rw [hid, hnew] at hget
    cases hget
  · exact (List.pairwise_append.mp hsorted).2.2 r.fixed (List.mem_map_of_mem hr) r'.fixed hin

/-- Messages of one alert to one channel. -/
def NotificationRow.SameLine (r : NotificationRow) (job : NotificationJob) : Prop :=
  r.fingerprint = job.fingerprint ∧ r.channel = job.channel

/-- Each earlier row of the job's alert and channel is settled, or `O` tells of it. -/
def Workers.Clear (fleet : Fleet Unit) (O : NotificationJob → Nat → Prop) (job : NotificationJob)
    (s : Workers Unit) : Prop :=
  ∀ r ∈ s.db.notifications.rows, r.id < job.id → r.SameLine job →
    r.Terminal fleet.bound ∨ O job r.id

/-- **Rows ahead of a job stay settled.** -/
theorem clear_step {O : NotificationJob → Nat → Prop} {job : NotificationJob}
    (h : s.Clear fleet O job) (hjob : ∃ r ∈ s.db.notifications.rows, r.id = job.id)
    (hs : s.Step store fleet a s') : s'.Clear fleet O job := by
  intro r' hr' hlt hline
  rcases step_db hs with hdb | ⟨op, hop, hdb⟩
  · rw [hdb] at hr'
    exact h r' hr' hlt hline
  · rw [hdb] at hr'
    cases hold : s.db.notifications.get? r'.id with
    | none =>
      obtain ⟨r₀, hr₀, hid⟩ := hjob
      have hlt' := old_lt_fresh store op hr₀ hr' hold
      rw [hid] at hlt'
      exact absurd hlt (Nat.lt_asymm hlt')
    | some r =>
      obtain ⟨r'', hget, hstep⟩ := row_step store op hold
      rw [NotificationTable.get?_of_mem hr'] at hget
      cases hget
      obtain ⟨hmem, _⟩ := NotificationTable.get?_eq_some.mp hold
      obtain ⟨hid, hmsg⟩ := Prod.mk.inj hstep.fixed
      have hline' : r.SameLine job := by
        unfold NotificationRow.SameLine at hline ⊢
        rw [← hmsg]
        exact hline
      rcases h r hmem (by rw [← hid]; exact hlt) hline' with hterm | hO
      · exact .inl (by rw [hstep.terminal hop hterm]; exact hterm)
      · exact .inr (by rw [hid]; exact hO)

/-! ## 3. The order of the messages sent -/

/-- The row has failed, has attempts left, and its retry time is still to come at `now`. -/
def NotificationRow.Waiting (d : NotificationDispatcher) (now : DateTime) (r : NotificationRow) :
    Prop :=
  r.attempts < d.bound ∧ r.status = .failed ∧ r.retryable = true ∧
    now.toRfc3339 < r.nextAttemptAt

omit [Formats] in
/-- A row ahead of the one a claim takes is settled or waits. -/
theorem ahead_of_claim {d : NotificationDispatcher} {now : DateTime} {row r : NotificationRow}
    {db : Db} (hrow : db.firstDue d.bound now = some row) (hr : r ∈ db.notifications.rows)
    (hlt : r.id < row.id) (hsound : r.Sound d.bound)
    (hidle : r.status ≠ .inFlight) :
    r.Terminal d.bound ∨ r.Waiting d now := by
  have hdue : ¬ r.due d.bound now.toRfc3339 (staleBefore now).toRfc3339 = true := fun hdue =>
    Nat.not_le_of_lt hlt (firstDue_least hrow hr hdue)
  rw [due_iff, not_and] at hdue
  rcases Nat.lt_or_eq_of_le hsound.bounded with hleft | hlast
  · have hdue' := hdue hleft
    rw [not_or, not_or] at hdue'
    obtain ⟨hpending, hfailed, _⟩ := hdue'
    cases hs : r.status with
    | pending => exact absurd hs hpending
    | sent => exact .inl (.inl hs)
    | failed =>
      cases hretry : r.retryable with
      | false => exact .inl (.inr (.inl ⟨hs, hretry⟩))
      | true => exact .inr ⟨hleft, hs, hretry, not_le.mp fun h => hfailed ⟨hs, hretry, h⟩⟩
    | inFlight => exact absurd hs hidle
  · cases hs : r.status with
    | pending =>
      have hpos : 0 < d.bound := d.attempts_pos
      rw [← hlast, hsound.pending hs] at hpos
      exact absurd hpos (Nat.lt_irrefl 0)
    | sent => exact .inl (.inl hs)
    | failed => exact .inl (.inr (.inr ⟨hs, hlast⟩))
    | inFlight => exact absurd hs hidle

/-- The steps of a run without crashes in which `O` tells of the rows that wait at a claim. -/
def Workers.Orderly (fleet : Fleet Unit) (O : NotificationJob → Nat → Prop) (s : Workers Unit) :
    WorkerAction Unit → Prop
  | .claim _ => ∀ now left row, s.phase () = .claiming now (left + 1) →
      s.db.firstDue fleet.bound now = some row → ∀ r ∈ s.db.notifications.rows,
        r.Waiting (fleet.dispatcher ()) now → O row.claimedJob r.id
  | .crash _ => False
  | _ => True

/-- The job has been sent with success: its row says so, or the report is to come. -/
def Workers.Delivered (s : Workers Unit) (job : NotificationJob) : Prop :=
  ∃ r, s.db.notifications.get? job.id = some r ∧
    (r.status = .sent ∨ ∃ now left, s.phase () = .reporting now left job (some (.ok ())))

/-- `a` was not sent out of order after `b`, or `O` tells of it. -/
def SendCall.Before (O : NotificationJob → Nat → Prop) (b a : SendCall) : Prop :=
  b.result = .ok () → a.result = .ok () → b.job.fingerprint = a.job.fingerprint →
    b.job.channel = a.job.channel → b.job.id < a.job.id ∨ O b.job a.job.id

/-- The messages sent are in order, and so is the one in hand. -/
structure Workers.Ordered (fleet : Fleet Unit) (O : NotificationJob → Nat → Prop)
    (s : Workers Unit) : Prop where
  held : ∀ now job, (s.phase ()).Holds now job → s.Clear fleet O job
  sent : ∀ b ∈ s.sends, b.result = .ok () → s.Clear fleet O b.job ∧ s.Delivered b.job
  order : s.sends.Pairwise (SendCall.Before O)

theorem delivered_step {job : NotificationJob} (hheld : s.Held) (h : s.Delivered job)
    (ha : a ≠ .crash ()) (hs : s.Step store fleet a s') : s'.Delivered job := by
  obtain ⟨r, hr, hsent | ⟨now, left, hp⟩⟩ := h
  · rcases step_db hs with hdb | ⟨op, hop, hdb⟩
    · exact ⟨r, by rw [hdb]; exact hr, .inl hsent⟩
    · obtain ⟨r', hr', hstep⟩ := row_step store op hr
      obtain rfl := hstep.terminal hop (.inl hsent)
      exact ⟨r', by rw [hdb]; exact hr', .inl hsent⟩
  · cases hs with
    | accept call =>
      obtain ⟨r', hr', hstep⟩ := row_step store (.accept call) hr
      exact ⟨r', hr', .inr ⟨now, left, hp⟩⟩
    | start i now' limit hp' => rw [hp] at hp'; cases hp'
    | finish i now' left' hp' hn => rw [hp] at hp'; cases hp'
    | claim i now' left' row hp' hrow => rw [hp] at hp'; cases hp'
    | send i now' left' job' answer result hp' hres => rw [hp] at hp'; cases hp'
    | crash i => exact absurd rfl ha
    | report i now' left' job' answer p hp' hnext =>
      rw [hp] at hp'
      cases hp'
      obtain ⟨r₀, hr₀, hflight, _⟩ := hheld now job (by rw [hp]; exact ⟨rfl, rfl⟩)
      rw [hr] at hr₀
      cases hr₀
      refine ⟨r.complete now, ?_, .inl rfl⟩
      have hid : r.id = job.id := (NotificationTable.get?_eq_some.mp hr).2
      rw [Workers.goto_db, show (fleet.dispatcher ()).outcome now job (some (.ok ())) =
        .complete job.id now from rfl, perform_complete]
      refine (updated_row hr).trans (congrArg some (if_pos ?_))
      exact isClaimed_iff.mpr ⟨hid, hflight⟩

omit [Formats] in
theorem Workers.Delivered.row {job : NotificationJob} (h : s.Delivered job) :
    ∃ r ∈ s.db.notifications.rows, r.id = job.id := by
  obtain ⟨r, hr, _⟩ := h
  exact ⟨r, NotificationTable.get?_eq_some.mp hr⟩

theorem ordered_step {O : NotificationJob → Nat → Prop} (hheld : s.Held)
    (hsound : s.RowsSound fleet) (hacc : s.Accounted) (h : s.Ordered fleet O)
    (ha : s.Orderly fleet O a) (hs : s.Step store fleet a s') : s'.Ordered fleet O := by
  have hcalm : a ≠ .crash () := by
    rintro rfl
    exact ha
  have hrow : ∀ now job, (s.phase ()).Holds now job →
      ∃ r ∈ s.db.notifications.rows, r.id = job.id := by
    intro now job hj
    obtain ⟨r, hr, _⟩ := hheld now job hj
    exact ⟨r, NotificationTable.get?_eq_some.mp hr⟩
  have hsent : ∀ b ∈ s.sends, b.result = .ok () → s'.Clear fleet O b.job ∧ s'.Delivered b.job :=
    fun b hb hok => ⟨clear_step (h.sent b hb hok).1 (h.sent b hb hok).2.row hs,
      delivered_step hheld (h.sent b hb hok).2 hcalm hs⟩
  have hs' := hs
  cases hs with
  | accept call =>
    exact ⟨fun now job hj => clear_step (h.held now job hj) (hrow now job hj) hs', hsent, h.order⟩
  | start i now limit hp => exact ⟨fun _ _ hj => hj.elim, hsent, h.order⟩
  | finish i now left hp hn => exact ⟨fun _ _ hj => hj.elim, hsent, h.order⟩
  | crash i => exact absurd rfl hcalm
  | report i now left job answer p hp hnext =>
    refine ⟨fun _ _ hj => ?_, hsent, h.order⟩
    rcases hnext with ⟨rfl, _⟩ | ⟨rfl, _⟩ <;> exact hj.elim
  | claim i now left row hp hfirst =>
    refine ⟨?_, hsent, h.order⟩
    rintro now' job ⟨rfl, rfl⟩
    have hclear : s.Clear fleet O row.claimedJob := by
      intro r hr hlt _
      have hr' := hsound r.id r (NotificationTable.get?_of_mem hr)
      have hfirst' := hfirst
      rw [← fleet.bound_eq ()] at hr' hfirst'
      rcases ahead_of_claim hfirst' hr hlt hr' (hacc.none_in_flight hp hr) with hterm | hwait
      · rw [fleet.bound_eq] at hterm
        exact .inl hterm
      · exact .inr (ha now' left row hp hfirst r hr hwait)
    exact clear_step hclear ⟨row, List.mem_of_find?_eq_some hfirst, rfl⟩ hs'
  | send i now left job answer result hp hres =>
    have hold : (s.phase ()).Holds now job := by rw [hp]; exact ⟨rfl, rfl⟩
    have hclear := clear_step (h.held now job hold) (hrow now job hold) hs'
    refine ⟨?_, ?_, ?_⟩
    · rintro now' job' ⟨rfl, rfl⟩
      exact hclear
    · intro b hb hok
      rcases List.mem_append.mp hb with hb | hb
      · exact hsent b hb hok
      · obtain ⟨answer', rfl⟩ : ∃ answer', result = some answer' := by
          cases result with
          | none => cases hb
          | some answer' => exact ⟨answer', rfl⟩
        obtain rfl := List.mem_singleton.mp hb
        obtain rfl : answer' = .ok () := hok
        obtain ⟨r, hr, _⟩ := hheld now job hold
        exact ⟨hclear, r, hr, .inr ⟨now, left, rfl⟩⟩
    · cases result with
      | none => exact (List.append_nil s.sends).symm ▸ h.order
      | some answer' =>
        refine List.pairwise_append.mpr ⟨h.order, List.pairwise_singleton _ _, ?_⟩
        intro b hb a hin hok _ hfp hch
        obtain rfl := List.mem_singleton.mp hin
        obtain ⟨hbclear, r₁, hr₁, hdone⟩ := h.sent b hb hok
        obtain ⟨r, hr, hflight, _, _, hmsg⟩ := hheld now job hold
        rcases Nat.lt_trichotomy b.job.id job.id with hlt | heq | hgt
        · exact .inl hlt
        · -- the job in hand is in flight, not sent
          rw [heq, hr] at hr₁
          cases hr₁
          rcases hdone with hst | ⟨_, _, hp'⟩
          · rw [hflight] at hst
            cases hst
          · rw [hp] at hp'
            cases hp'
        · have hid : r.id = job.id := (NotificationTable.get?_eq_some.mp hr).2
          have hline : r.SameLine b.job :=
            ⟨(congrArg Message.fingerprint hmsg).trans hfp.symm,
              (congrArg Message.channel hmsg).trans hch.symm⟩
          rcases hbclear r (NotificationTable.get?_eq_some.mp hr).1 (by rw [hid]; exact hgt) hline
            with hterm | hO
          · rcases hterm with hst | ⟨hst, _⟩ | ⟨hst, _⟩ <;> rw [hflight] at hst <;> cases hst
          · rw [hid] at hO
            exact .inr hO

end Rows

/-- The job of a claim of the run `as` went ahead of the earlier job `id`, which waited. -/
def Overtook [Formats] (store : ServerEventStore) (fleet : Fleet Unit)
    (as : List (WorkerAction Unit)) (job : NotificationJob) (id : Nat) : Prop :=
  ∃ before after now left row r, as = before ++ .claim () :: after ∧
    ((workers store fleet).run before).phase () = .claiming now (left + 1) ∧
    ((workers store fleet).run before).db.firstDue fleet.bound now = some row ∧
    row.claimedJob = job ∧ r ∈ ((workers store fleet).run before).db.notifications.rows ∧
    r.id = id ∧ r.Waiting (fleet.dispatcher ()) now

/-- **The order of the messages sent**, in every run of the one worker without crashes, whatever
    the channel answers: of two messages of one alert sent with success to one channel, the
    earlier sent has the smaller job id, or, when its job was claimed, the other job was waiting
    for its retry time. -/
theorem overtaken_while_waiting [Formats] (store : ServerEventStore) (fleet : Fleet Unit)
    (as : List (WorkerAction Unit)) (hcalm : ∀ a ∈ as, a ≠ .crash ()) :
    ((workers store fleet).run as).sends.Pairwise fun b a =>
      b.result = .ok () → a.result = .ok () → b.job.fingerprint = a.job.fingerprint →
        b.job.channel = a.job.channel →
        b.job.id < a.job.id ∨ Overtook store fleet as b.job a.job.id := by
  have horderly : (workers store fleet).Along
      (fun s a => a ≠ .crash () ∧ s.Orderly fleet (Overtook store fleet as) a)
      (workers store fleet).init as := by
    refine Machine.along_of_prefixes fun before a after e => ⟨hcalm a (by rw [e]; simp), ?_⟩
    cases a with
    | claim i =>
      exact fun now left row hp hrow r hr hwait =>
        ⟨before, after, now, left, row, r, e, hp, hrow, rfl, hr, rfl, hwait⟩
    | crash i => exact absurd rfl (hcalm (.crash i) (by rw [e]; simp))
    | _ => exact trivial
  have hI := Machine.invariant_along (M := workers store fleet)
    (I := fun s => s.Held ∧ s.RowsSound fleet ∧ s.Accounted ∧
      s.Ordered fleet (Overtook store fleet as))
    ⟨held_run store fleet [], rowsSound_run [],
      accounted_run store fleet fun _ h => absurd h List.not_mem_nil,
      fun _ _ h => h.elim, fun _ h => absurd h List.not_mem_nil, List.Pairwise.nil⟩
    (fun s a s' hI ha hs =>
      have hstep := step_cases hs
      ⟨held_step hI.1 hstep, rowsSound_step hstep hI.2.1, accounted_step hI.2.2.1 ha.1 hstep,
        ordered_step hI.1 hI.2.1 hI.2.2.1 hI.2.2.2 ha.2 hstep⟩) horderly
  exact hI.2.2.2.order

namespace Sample

/-- An alert fires and recovers; the channel fails once, for the firing message. -/
def overtaken : List (WorkerAction Unit) :=
  [.accept (call (event id1 "2026-01-01T00:00:00Z" .firing .warning)),
    .accept (call (event id2 "2026-01-01T00:01:00Z" .resolved .warning)),
    .deliver () ⟨1767225720000000000⟩ 100,
    .claim (), .send () unavailable, .report (), .claim (), .send () (.ok ()), .report (), .claim (),
    .deliver () ⟨1767225780000000000⟩ 100, .claim (), .send () (.ok ())]

end Sample

/-- The theorem at a run in which a job fails once: the second job went ahead of it. -/
theorem overtaken_while_waiting_once :
    let s := (@workers Unit _ Sample.formats Sample.telegramStore
      (Sample.worker 2 (by decide))).run Sample.overtaken
    ∃ b ∈ s.sends, ∃ a ∈ s.sends, b.job.id = 2 ∧ a.job.id = 1 ∧
      @Overtook Sample.formats Sample.telegramStore (Sample.worker 2 (by decide))
        Sample.overtaken b.job a.job.id := by
  intro s
  have hordered := @overtaken_while_waiting Sample.formats Sample.telegramStore
    (Sample.worker 2 (by decide)) Sample.overtaken (by simp [Sample.overtaken])
  obtain ⟨first, b, a, hsends⟩ := List.length_eq_three.mp
    (show s.sends.length = 3 by decide +kernel)
  have hcols : s.sends.map (fun c => (c.job.id, c.result)) =
      [(1, Sample.unavailable), (2, .ok ()), (1, .ok ())] := by decide +kernel
  have hline : s.sends.map (fun c => (c.job.fingerprint, c.job.channel)) =
      List.replicate 3 ("backup/restic/age", "telegram") := by decide +kernel
  rw [hsends] at hcols hline
  simp only [List.map_cons, List.map_nil, List.replicate, List.cons.injEq, Prod.mk.injEq,
    and_true] at hcols hline
  have hmem : b ∈ s.sends ∧ a ∈ s.sends := by rw [hsends]; simp
  refine ⟨b, hmem.1, a, hmem.2, hcols.2.1.1, hcols.2.2.1, ?_⟩
  have hpair := List.pairwise_pair.mp (List.pairwise_cons.mp (hsends ▸ hordered)).2
  refine (hpair hcols.2.1.2 hcols.2.2.2 (hline.2.1.1.trans hline.2.2.1.symm)
    (hline.2.1.2.trans hline.2.2.2.symm)).resolve_left ?_
  rw [hcols.2.1.1, hcols.2.2.1]
  decide

/-- **The recovery message overtakes**: one temporary failure, and the firing message is sent a
    minute after the recovery message of the same alert. -/
theorem recovery_overtakes :
    let s := (@workers Unit _ Sample.formats Sample.telegramStore
      (Sample.worker 2 (by decide))).run Sample.overtaken
    (s.sends.filter fun c => c.result = .ok ()).map (fun c => (c.job.id, c.job.eventId)) =
      [(2, Sample.id2), (1, Sample.id1)] ∧
    ¬ s.sends.Pairwise fun b a => b.result = .ok () → a.result = .ok () →
      b.job.fingerprint = a.job.fingerprint → b.job.channel = a.job.channel →
      b.job.id < a.job.id := by
  decide +kernel

end Beacon
