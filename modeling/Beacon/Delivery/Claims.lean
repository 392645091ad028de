/-
  File:      Beacon/Delivery/Claims.lean
  Subject:   Which job `claim_notification` takes.

  The WHERE clause compares timestamps as texts. The store writes them itself, as `to_rfc3339` of
  instants, and within years 0 to 9999 the texts are ordered as the instants are, whatever number
  of fractional digits each has. So the query says about instants what it says about texts.

  * `stale_iff`, `due_iff_eligible` -- the clause, read as instants;
  * `claim_takes_first` -- **a claim takes the eligible row with the smallest id**, and changes
    this row only.
-/
import Beacon.Delivery.Rows

namespace Beacon

open Foundation

/-- The timestamps of the row are texts the store writes, of readings in range. -/
structure NotificationRow.Stamped (r : NotificationRow) : Prop where
  next : ∃ t : DateTime, t.InRange ∧ r.nextAttemptAt = t.toRfc3339
  claimed : ∀ text ∈ r.claimedAt, ∃ t : DateTime, t.InRange ∧ text = t.toRfc3339

/-- What a row has to be to be claimed at `now`: pending, or failed and its next attempt not after
    `now`, or in flight since five minutes, and attempts are left. -/
def NotificationRow.Eligible (maxAttempts : Nat) (now : DateTime) (r : NotificationRow) : Prop :=
  r.attempts < maxAttempts ∧
    (r.status = .pending ∨
      (r.status = .failed ∧ r.retryable = true ∧
        ∃ t : DateTime, t.InRange ∧ r.nextAttemptAt = t.toRfc3339 ∧ t ≤ now) ∨
      (r.status = .inFlight ∧
        ∃ t : DateTime, t.InRange ∧ r.claimedAt = some t.toRfc3339 ∧ t.addSeconds 300 ≤ now))

theorem le_staleBefore {t now : DateTime} : t ≤ staleBefore now ↔ t.addSeconds 300 ≤ now := by
  show t.nanos ≤ now.nanos + -300 * 1000000000 ↔ t.nanos + 300 * 1000000000 ≤ now.nanos
  omega

/-- Comparing texts tells stale claims, although the instant of five minutes ago may be out of
    range. -/
theorem stale_iff {t now : DateTime} (ht : t.InRange) (hnow : now.InRange) :
    t.toRfc3339 ≤ (staleBefore now).toRfc3339 ↔ t ≤ staleBefore now := by
  by_cases hs : (staleBefore now).InRange
  · exact DateTime.text_le_iff ht hs
  · have hback : staleBefore now ≤ now := by
      show now.nanos + -300 * 1000000000 ≤ now.nanos
      omega
    constructor
    · exact fun h => absurd h (not_le.mpr (DateTime.text_lt_of_signed hs ht))
    · exact fun h => absurd (DateTime.inRange_between ht hnow h hback) hs

/-- **The WHERE clause, read as instants.** -/
theorem due_iff_eligible {maxAttempts : Nat} {now : DateTime} {r : NotificationRow}
    (hnow : now.InRange) (hr : r.Stamped) :
    r.due maxAttempts now.toRfc3339 (staleBefore now).toRfc3339 = true ↔
      r.Eligible maxAttempts now := by
  have hnext : r.nextAttemptAt ≤ now.toRfc3339 ↔
      ∃ t : DateTime, t.InRange ∧ r.nextAttemptAt = t.toRfc3339 ∧ t ≤ now := by
    constructor
    · intro h
      obtain ⟨t, ht, he⟩ := hr.next
      rw [he] at h
      exact ⟨t, ht, he, (DateTime.text_le_iff ht hnow).mp h⟩
    · rintro ⟨t, ht, he, hle⟩
      rw [he]
      exact (DateTime.text_le_iff ht hnow).mpr hle
  have hclaimed : (∃ text, r.claimedAt = some text ∧ text ≤ (staleBefore now).toRfc3339) ↔
      ∃ t : DateTime, t.InRange ∧ r.claimedAt = some t.toRfc3339 ∧ t.addSeconds 300 ≤ now := by
    constructor
    · rintro ⟨text, he, h⟩
      obtain ⟨t, ht, rfl⟩ := hr.claimed text he
      exact ⟨t, ht, he, le_staleBefore.mp ((stale_iff ht hnow).mp h)⟩
    · rintro ⟨t, ht, he, hle⟩
      exact ⟨t.toRfc3339, he, (stale_iff ht hnow).mpr (le_staleBefore.mpr hle)⟩
  rw [due_iff, NotificationRow.Eligible, hnext, hclaimed]

/-- The first due row is the one with the smallest id. -/
theorem firstDue_least {db : Db} {maxAttempts : Nat} {now : DateTime} {row r : NotificationRow}
    (h : db.firstDue maxAttempts now = some row) (hr : r ∈ db.notifications.rows)
    (hdue : r.due maxAttempts now.toRfc3339 (staleBefore now).toRfc3339 = true) :
    row.id ≤ r.id := by
  obtain ⟨before, after, hrows, hnone⟩ := (List.find?_eq_some_iff_append.mp h).2
  have hsorted := db.notifications.ids_sorted
  rw [List.pairwise_map] at hsorted
  rw [hrows] at hr hsorted
  rcases List.mem_append.mp hr with hin | hin
  · have hno := hnone r hin
    rw [hdue] at hno
    cases hno
  · rcases List.mem_cons.mp hin with rfl | hin
    · exact Nat.le_refl _
    · exact Nat.le_of_lt ((List.pairwise_cons.mp (List.pairwise_append.mp hsorted).2.1).1 r hin)

/-- **Which row a claim takes.** On a table with timestamps the store wrote, a claim answers with
    no job just where no row is eligible, and then changes nothing; otherwise it answers with the
    job of the eligible row with the smallest id and sets its status, its attempts and its
    `claimed_at`; every other row, the last id given out and the other tables stay as they are. -/
theorem claim_takes_first [Formats] (store : ServerEventStore) (db : Db) (now : DateTime)
    (maxAttempts : Nat) (hnow : now.InRange) (hstamped : ∀ r ∈ db.notifications.rows, r.Stamped) :
    let after := (Op.claim now maxAttempts).perform store db
    (after.1 = .ok (.claimed none) ↔
      ∀ r ∈ db.notifications.rows, ¬ r.Eligible maxAttempts now) ∧
    (after.1 = .ok (.claimed none) → after.2 = db) ∧
    (after.1 ≠ .ok (.claimed none) →
      ∃ row ∈ db.notifications.rows, row.Eligible maxAttempts now ∧
        (∀ r ∈ db.notifications.rows, r.Eligible maxAttempts now → row.id ≤ r.id) ∧
        after.1 = .ok (.claimed (some row.claimedJob)) ∧
        after.2.notifications.rows = db.notifications.rows.map (fun r =>
          if r.id = row.id then
            { r with status := .inFlight, attempts := r.attempts + 1
                     claimedAt := some now.toRfc3339 }
          else r) ∧
        after.2.notifications.seq = db.notifications.seq ∧
        after.2.events = db.events ∧ after.2.alerts = db.alerts) := by
  intro after
  have hperf := perform_claim store db now maxAttempts
  have helig : ∀ r ∈ db.notifications.rows,
      r.due maxAttempts now.toRfc3339 (staleBefore now).toRfc3339 = true ↔
        r.Eligible maxAttempts now := fun r hr => due_iff_eligible hnow (hstamped r hr)
  cases hd : db.firstDue maxAttempts now with
  | none =>
    rw [hd] at hperf
    have hnone : after.1 = .ok (.claimed none) := congrArg Prod.fst hperf
    refine ⟨⟨fun _ r hr he => ?_, fun _ => hnone⟩, fun _ => congrArg Prod.snd hperf,
      fun h => absurd hnone h⟩
    exact List.find?_eq_none.mp hd r hr ((helig r hr).mpr he)
  | some row =>
    rw [hd] at hperf
    have hans : after.1 = .ok (.claimed (some row.claimedJob)) := congrArg Prod.fst hperf
    have hdb : after.2 = db.updateNotifications (NotificationRow.hasId row.id)
        (NotificationRow.claim now) fun _ => rfl := congrArg Prod.snd hperf
    have hrow : row ∈ db.notifications.rows := List.mem_of_find?_eq_some hd
    have he : row.Eligible maxAttempts now := (helig row hrow).mp (firstDue_eq_some hd).2
    have hsome : after.1 ≠ .ok (.claimed none) := by
      rw [hans]
      intro h
      cases h
    refine ⟨⟨fun h => absurd h hsome, fun h => absurd he (h row hrow)⟩,
      fun h => absurd h hsome, fun _ => ⟨row, hrow, he, fun r hr h => ?_, hans, ?_, ?_, ?_, ?_⟩⟩
    · exact firstDue_least hd hr ((helig r hr).mpr h)
    · rw [hdb]
      refine (NotificationTable.rows_updateWhere _ _ (NotificationRow.claim now)
        fun _ => rfl).trans (List.map_congr_left fun r _ => ?_)
      simp only [NotificationRow.hasId, decide_eq_true_eq]
      rfl
    all_goals
      rw [hdb]
      rfl

namespace Sample

/-- Three jobs are queued; the first one fails and the second is in flight. The fractions of their
    timestamps have three and six digits. -/
def backlog : Db :=
  let ops : List Op :=
    [.accept (call (event id1 "2026-01-01T00:00:00Z" .firing .critical)),
      .accept (call (event id2 "2026-01-01T00:01:00Z" .resolved .critical)),
      .accept (call (event id3 "2026-01-01T00:02:00Z" .info .critical)),
      .claim ⟨1767225660250000000⟩ 5,
      .fail 1 ⟨1, "Telegram returned HTTP 500 Internal Server Error", 5, 300, true,
        ⟨1767225660250000000⟩⟩,
      .claim ⟨1767225660250001000⟩ 5]
  ops.foldl (fun db op => (@Op.perform formats telegramStore op db).2) Db.empty

theorem backlog_stamped : ∀ r ∈ backlog.notifications.rows, r.Stamped := by
  let stamps : List DateTime :=
    [⟨1767225601000000000⟩, ⟨1767225660250001000⟩, ⟨1767225960250000000⟩]
  have hrange : ∀ t ∈ stamps, t.InRange := by decide
  have htexts : ∀ r ∈ backlog.notifications.rows,
      (∃ t ∈ stamps, r.nextAttemptAt = t.toRfc3339) ∧
        ∀ text ∈ r.claimedAt, ∃ t ∈ stamps, text = t.toRfc3339 := by decide +kernel
  intro r hr
  obtain ⟨⟨t, ht, hnext⟩, hclaimed⟩ := htexts r hr
  exact
    { next := ⟨t, hrange t ht, hnext⟩
      claimed := fun text h =>
        let ⟨t', ht', htext⟩ := hclaimed text h
        ⟨t', hrange t' ht', htext⟩ }

end Sample

/-- The theorem at a reading of nine digits, a nanosecond before the second job is stale: the claim
    takes the first job, which has failed. -/
theorem claim_takes_first_backlog :
    let now : DateTime := ⟨1767225960250000999⟩
    now.toRfc3339 = "2026-01-01T00:06:00.250000999+00:00" ∧
    Sample.backlog.notifications.rows.map (fun r =>
        (r.id, r.status, r.nextAttemptAt, r.claimedAt)) =
      [(1, .failed, "2026-01-01T00:06:00.250+00:00", none),
        (2, .inFlight, "2026-01-01T00:00:01+00:00", some "2026-01-01T00:01:00.250001+00:00"),
        (3, .pending, "2026-01-01T00:00:01+00:00", none)] ∧
    ∃ row ∈ Sample.backlog.notifications.rows, row.id = 1 ∧ row.Eligible 5 now ∧
      (@Op.perform Sample.formats Sample.telegramStore (.claim now 5) Sample.backlog).1 =
        .ok (.claimed (some row.claimedJob)) := by
  intro now
  refine ⟨by decide +kernel, by decide +kernel, ?_⟩
  obtain ⟨hnone, _, hsome⟩ := @claim_takes_first Sample.formats Sample.telegramStore Sample.backlog
    now 5 (by decide) Sample.backlog_stamped
  have hdue : ∃ r ∈ Sample.backlog.notifications.rows, r.id = 1 ∧
      r.due 5 now.toRfc3339 (staleBefore now).toRfc3339 = true := by decide +kernel
  have hids : ∀ r ∈ Sample.backlog.notifications.rows, 1 ≤ r.id := by decide +kernel
  obtain ⟨r, hr, hid, hdue⟩ := hdue
  have helig : r.Eligible 5 now :=
    (due_iff_eligible (by decide) (Sample.backlog_stamped r hr)).mp hdue
  obtain ⟨row, hrow, he, hleast, hans, _⟩ := hsome fun h => hnone.mp h r hr helig
  have hle := hleast r hr helig
  have hpos := hids row hrow
  exact ⟨row, hrow, by omega, he, hans⟩

end Beacon
