/-
  File:      Beacon/Delivery/Fates.lean
  Subject:   Calls of `deliver_due` one after the other, and what they make of each job.

  A job on its own is a small machine: it waits with its attempts so far, an answer takes it to
  sent, to lost, or back to waiting with one attempt more. The table of the jobs and the loops over
  it refine one such machine for each job, with the answers of its own sends, as long as the calls
  are far enough apart for every retry time to pass and the limit is enough for the jobs that wait.
  After as many calls as attempts are allowed no job waits any more.

  * `Fate.next`, `Fate.after` -- a job on its own;
  * `fate_of_call` -- one call is one attempt of every job that waits;
  * `ready_after` -- what waits after a call is due again when the retry times have come;
  * `fates_of_rounds` -- **the queue refines its jobs**, and comes to an end.
-/
import Beacon.Delivery.Rounds

namespace Beacon

open Foundation

/-! ## 1. A job on its own -/

inductive Fate where
  | waiting (attempts : Nat)
  | sent
  | lost
  deriving DecidableEq

namespace Fate

/-- One attempt with its answer. -/
def next (bound : Nat) (answer : Option SendResult) : Fate → Fate
  | .waiting attempts =>
    if NotificationDispatcher.delivers answer then .sent
    else if NotificationDispatcher.flag answer && attempts + 1 < bound then .waiting (attempts + 1)
    else .lost
  | fate => fate

def waits : Fate → Bool
  | .waiting _ => true
  | _ => false

/-- The attempts with these answers, one after the other. -/
def after (bound : Nat) (fate : Fate) (answers : List (Option SendResult)) : Fate :=
  answers.foldl (fun fate answer => fate.next bound answer) fate

/-- A job that does not wait is not attempted. -/
theorem after_of_not_waits {bound : Nat} {fate : Fate} (h : fate.waits = false)
    (answers : List (Option SendResult)) : fate.after bound answers = fate := by
  induction answers with
  | nil => rfl
  | cons answer answers ih =>
    cases fate with
    | waiting attempts => cases h
    | sent => exact ih
    | lost => exact ih

/-- **A job that still waits** was attempted with every answer, and less often than is allowed. -/
theorem waits_after {bound : Nat} {fate : Fate} {answers : List (Option SendResult)}
    (hne : answers ≠ []) (h : (fate.after bound answers).waits = true) :
    ∃ attempts, fate = .waiting attempts ∧ attempts + answers.length < bound := by
  induction answers generalizing fate with
  | nil => exact absurd rfl hne
  | cons answer answers ih =>
    cases fate with
    | sent =>
      rw [after_of_not_waits rfl] at h
      cases h
    | lost =>
      rw [after_of_not_waits rfl] at h
      cases h
    | waiting attempts =>
      refine ⟨attempts, rfl, ?_⟩
      have hstep : ((next bound answer (waiting attempts)).after bound answers).waits = true := h
      rw [next] at hstep
      split at hstep
      · rw [after_of_not_waits rfl] at hstep
        cases hstep
      · split at hstep
        · rename_i hretry
          have hlt : attempts + 1 < bound := of_decide_eq_true (Bool.and_eq_true_iff.mp hretry).2
          rw [List.length_cons]
          cases answers with
          | nil => exact hlt
          | cons a l =>
            obtain ⟨_, heq, hbound⟩ := ih (List.cons_ne_nil a l) hstep
            cases heq
            omega
        · rw [after_of_not_waits rfl] at hstep
          cases hstep

end Fate

/-- What a row says of its job. -/
def NotificationRow.fate (bound : Nat) (r : NotificationRow) : Fate :=
  match r.status with
  | .sent => .sent
  | .failed => if r.retryable && r.attempts < bound then .waiting r.attempts else .lost
  | _ => .waiting r.attempts

namespace NotificationDispatcher

variable {d : NotificationDispatcher} {now : DateTime} {f : NotificationRow → NotificationRow}

/-- What is due waits. -/
theorem fate_of_due {r : NotificationRow} (h : d.dueNow now r = true) :
    r.fate d.bound = .waiting r.attempts := by
  obtain ⟨hlt, hs | ⟨hs, hretry, _⟩ | ⟨hs, _⟩⟩ := due_iff.mp h
  · simp only [NotificationRow.fate, hs]
  · simp only [NotificationRow.fate, hs, hretry, Bool.true_and, decide_eq_true hlt, if_true]
  · simp only [NotificationRow.fate, hs]

/-- **A settled row** has the fate of its job after one attempt. -/
theorem fate_of_settled {answer : Option SendResult} {r r' : NotificationRow}
    (h : Settled answer r r') (hr : r.fate d.bound = .waiting r.attempts) :
    r'.fate d.bound = (r.fate d.bound).next d.bound answer := by
  rw [hr, Fate.next]
  rcases h.status with ⟨ha, hs⟩ | ⟨ha, hs, hflag⟩
  · rw [if_pos (delivers_iff.mpr ha)]
    simp only [NotificationRow.fate, hs]
  · rw [if_neg fun hd => ha (delivers_iff.mp hd)]
    simp only [NotificationRow.fate, hs, hflag, h.counted]

/-! ## 2. One call -/

/-- The call is made in a time whose retry times are all in years up to 9999. -/
structure Dated (d : NotificationDispatcher) (now : DateTime) : Prop where
  inRange : now.InRange
  retries : ∀ k, k < d.bound → (d.retryAt now k).InRange

theorem Dated.fits (h : d.Dated now) {k : Nat} (hk : k < d.bound) :
    retryTime now k d.retryDelaySeconds.toNat = some (d.retryAt now k).toRfc3339 :=
  retryTime_of_inRange h.inRange (h.retries k hk)

/-- A row that waits after a call at `now` carries the retry time of its last attempt. -/
def Stamped (d : NotificationDispatcher) (now : DateTime) (r : NotificationRow) : Prop :=
  r.status = .failed → r.retryable = true → r.attempts < d.bound →
    retryTime now r.attempts d.retryDelaySeconds.toNat = some r.nextAttemptAt

theorem stamped_written {answer : Option SendResult} {r row : NotificationRow}
    (h : d.written now row.claimedJob answer = some f) (ha : r.attempts = row.attempts) :
    d.Stamped now (f (r.claim now)) := by
  intro hs hretry hlt
  rcases written_cases h with ⟨_, rfl⟩ | ⟨error, next, _, rfl, hnext⟩
  · cases hs
  · have hflag : flag answer = true := hretry
    have hcount : (r.claim now).attempts = row.claimedJob.attempts := congrArg (· + 1) ha
    have hbound : row.claimedJob.attempts < d.bound := by
      rw [← hcount]
      exact hlt
    rw [hflag, nextAttemptAt_of_retried hbound] at hnext
    show retryTime now (r.claim now).attempts _ = some next
    rw [hcount]
    exact hnext

section Calls

variable [Formats] {store : ServerEventStore} {send : NotificationJob → SendResult}
  {left delivered limit : Nat} {db : Db}

variable (store) (delivered) in
/-- **The rows after a call** are the rows from before it, and what is not among those carries the
    retry times of the call. -/
theorem rows_of_timely (h : d.Timely send now left (d.dueRows now db)) :
    let after := (d.deliverLoop store send now left delivered db).2
    after.notifications.rows.map NotificationRow.fixed =
        db.notifications.rows.map NotificationRow.fixed ∧
      ∀ r ∈ after.notifications.rows, r ∈ db.notifications.rows ∨ d.Stamped now r := by
  induction left generalizing delivered db with
  | zero => exact ⟨rfl, fun r hr => .inl hr⟩
  | succ left ih =>
    cases hd : db.firstDue d.bound now with
    | none =>
      rw [(attempts_nil store send (left + 1) delivered (dueRows_of_none hd)).2]
      exact ⟨rfl, fun r hr => .inl hr⟩
    | some row =>
      obtain ⟨rest, hdue, _, hafter⟩ := dueRows_recorded store hd
      rw [hdue] at h
      cases hw : d.written now row.claimedJob (d.attempt send row.claimedJob) with
      | none =>
        obtain ⟨hfails, htime⟩ := written_eq_none hw
        obtain ⟨next, hnext, _⟩ := (timely_cons.mp h).1 hfails
        rw [htime] at hnext
        cases hnext
      | some f =>
        have hleft : d.Timely send now left
            (d.dueRows now (d.recorded store now db row f (fixed_written hw))) := by
          rw [hafter f (fixed_written hw)]
          exact (left_of_timely h hw).2
        have hrows : (d.recorded store now db row f (fixed_written hw)).notifications.rows =
            db.notifications.rows.map fun r => if r.id = row.id then f (r.claim now) else r :=
          rows_recorded hd
        rw [(loop_written store left delivered hd hw).2]
        obtain ⟨hfixed, hstamped⟩ := ih
          (if delivers (d.attempt send row.claimedJob) then delivered + 1 else delivered) hleft
        refine ⟨hfixed.trans ?_, fun r hr => ?_⟩
        · rw [hrows, List.map_map]
          refine List.map_congr_left fun r _ => ?_
          rw [Function.comp_apply]
          split
          · exact fixed_written hw (r.claim now)
          · rfl
        rcases hstamped r hr with hr | hr
        · rw [hrows] at hr
          obtain ⟨old, hold, rfl⟩ := List.mem_map.mp hr
          by_cases hid : old.id = row.id
          · have hsame : old = row := by
              have hget := NotificationTable.get?_of_mem hold
              rw [hid, (firstDue_eq_some hd).1] at hget
              exact (Option.some.inj hget).symm
            rw [if_pos hid]
            exact .inr (stamped_written hw (congrArg NotificationRow.attempts hsame))
          · rw [if_neg hid]
            exact .inl hold
        · exact .inr hr

/-- The rows whose jobs wait. -/
def waitingRows (d : NotificationDispatcher) (db : Db) : List NotificationRow :=
  db.notifications.rows.filter fun r => (r.fate d.bound).waits

/-- Every job that waits is due. -/
def Ready (d : NotificationDispatcher) (now : DateTime) (db : Db) : Prop :=
  ∀ r ∈ db.notifications.rows, (r.fate d.bound).waits = true → d.dueNow now r = true

/-- A call that may attempt every job that waits. -/
structure Call (d : NotificationDispatcher) (now : DateTime) (limit : Nat) (db : Db) : Prop where
  delay : 0 < d.retryDelaySeconds.toNat
  dated : d.Dated now
  ready : d.Ready now db
  limit : (d.waitingRows db).length ≤ limit

omit [Formats] in
theorem Call.timely (h : d.Call now limit db) (send : NotificationJob → SendResult) :
    d.Timely send now limit (d.dueRows now db) :=
  (timely_iff_years h.dated.inRange h.delay fun _ hk => h.dated.fits hk).mpr
    fun _ _ _ _ hfails => h.dated.retries _ (failsForNow_iff.mp hfails).2

omit [Formats] in
/-- The limit is enough for the due rows, which are those that wait. -/
theorem Call.take_dueRows (h : d.Call now limit db) :
    (d.dueRows now db).take limit = d.waitingRows db := by
  have hsame : d.dueRows now db = d.waitingRows db := by
    refine List.filter_congr fun r hr => ?_
    rw [Bool.eq_iff_iff]
    refine ⟨fun hdue => ?_, h.ready r hr⟩
    rw [fate_of_due hdue]
    rfl
  rw [hsame]
  exact List.take_of_length_le h.limit

variable (store) in
/-- **What a call does with a row**: one attempt if its job waits, else nothing. -/
theorem row_of_call (h : d.Call now limit db) (send : NotificationJob → SendResult)
    {row : NotificationRow} (hrow : row ∈ db.notifications.rows) :
    ∃ row', (d.deliverDue store send now limit db).2.notifications.get? row.id = some row' ∧
      (((row.fate d.bound).waits = true ∧ Settled (d.attempt send row.claimedJob) row row' ∧
          d.Stamped now row') ∨
        ((row.fate d.bound).waits = false ∧ row' = row)) := by
  obtain ⟨_, _, hsettled, huntouched⟩ := loop_of_timely store 0 (h.timely send)
  rw [h.take_dueRows] at hsettled huntouched
  cases hw : (row.fate d.bound).waits with
  | false =>
    refine ⟨row, huntouched row hrow fun hin => ?_, .inr ⟨rfl, rfl⟩⟩
    rw [(List.mem_filter.mp hin).2] at hw
    cases hw
  | true =>
    obtain ⟨row', hget, hone⟩ := hsettled row (List.mem_filter.mpr ⟨hrow, hw⟩)
    refine ⟨row', hget, .inl ⟨rfl, hone, ?_⟩⟩
    obtain ⟨hmem, hid⟩ := NotificationTable.get?_eq_some.mp hget
    rcases (rows_of_timely store 0 (h.timely send)).2 row' hmem with hold | hstamped
    · -- the row has one attempt more, so it is not the one from before the call
      have hsame : row' = row := by
        have hget' := NotificationTable.get?_of_mem hold
        rw [hid, NotificationTable.get?_of_mem hrow] at hget'
        exact (Option.some.inj hget').symm
      have hcount := hone.counted
      rw [hsame] at hcount
      omega
    · exact hstamped

omit [Formats] in
theorem waits_of_settled {answer : Option SendResult} {row row' : NotificationRow}
    (h : Settled answer row row') (hw : (row'.fate d.bound).waits = true) :
    row'.status = .failed ∧ row'.retryable = true ∧ row'.attempts < d.bound := by
  rcases h.status with ⟨_, hs⟩ | ⟨_, hs, _⟩
  · simp only [NotificationRow.fate, hs, Fate.waits] at hw
    cases hw
  · refine ⟨hs, ?_⟩
    simp only [NotificationRow.fate, hs] at hw
    split at hw
    · rename_i hretry
      obtain ⟨hflag, hlt⟩ := Bool.and_eq_true_iff.mp hretry
      exact ⟨hflag, of_decide_eq_true hlt⟩
    · cases hw

variable (store) in
/-- A row after a call and the one it was. -/
theorem row_before (h : d.Call now limit db) (send : NotificationJob → SendResult)
    {row' : NotificationRow}
    (hrow : row' ∈ (d.deliverDue store send now limit db).2.notifications.rows) :
    ∃ row ∈ db.notifications.rows, row'.fixed = row.fixed ∧
      (d.deliverDue store send now limit db).2.notifications.get? row.id = some row' := by
  have hfixed := (rows_of_timely store 0 (h.timely send)).1
  have hmem : row'.fixed ∈ db.notifications.rows.map NotificationRow.fixed := by
    rw [← hfixed]
    exact List.mem_map_of_mem hrow
  obtain ⟨row, hin, hsame⟩ := List.mem_map.mp hmem
  refine ⟨row, hin, hsame.symm, ?_⟩
  have hid : row.id = row'.id := congrArg Prod.fst hsame
  rw [hid]
  exact NotificationTable.get?_of_mem hrow

variable (store) in
/-- **One call is one attempt** of each job that waits, with the answer to that job. -/
theorem fate_of_call (h : d.Call now limit db) (send : NotificationJob → SendResult)
    {row : NotificationRow} (hrow : row ∈ db.notifications.rows) :
    ∃ row', (d.deliverDue store send now limit db).2.notifications.get? row.id = some row' ∧
      row'.fixed = row.fixed ∧
      row'.fate d.bound = (row.fate d.bound).next d.bound (d.attempt send row.claimedJob) := by
  obtain ⟨row', hget, hcases⟩ := row_of_call store h send hrow
  obtain ⟨hmem, hid⟩ := NotificationTable.get?_eq_some.mp hget
  obtain ⟨old, hold, hfixed, _⟩ := row_before store h send hmem
  have hsame : old = row := by
    have hget' := NotificationTable.get?_of_mem hold
    have hold_id : row'.id = old.id := congrArg Prod.fst hfixed
    rw [← hold_id, hid, NotificationTable.get?_of_mem hrow] at hget'
    exact (Option.some.inj hget').symm
  rw [hsame] at hfixed
  refine ⟨row', hget, hfixed, ?_⟩
  rcases hcases with ⟨hw, hsettled, _⟩ | ⟨hw, rfl⟩
  · exact fate_of_settled hsettled
      (fate_of_due (h.ready row hrow hw))
  · exact (Fate.after_of_not_waits hw [d.attempt send row'.claimedJob]).symm

/-- **What waits after a call** waited before it, and carries the retry time of its last attempt. -/
theorem waits_of_call (h : d.Call now limit db) (send : NotificationJob → SendResult)
    {row' : NotificationRow}
    (hrow' : row' ∈ (d.deliverDue store send now limit db).2.notifications.rows)
    (hw' : (row'.fate d.bound).waits = true) :
    row'.status = .failed ∧ row'.retryable = true ∧ row'.attempts < d.bound ∧
      row'.nextAttemptAt = (d.retryAt now row'.attempts).toRfc3339 ∧
      ∃ row ∈ d.waitingRows db, row.id = row'.id := by
  obtain ⟨row, hrow, hfixed, hget⟩ := row_before store h send hrow'
  obtain ⟨found, hfound, hcases⟩ := row_of_call store h send hrow
  rw [hget] at hfound
  cases hfound
  rcases hcases with ⟨hw, hsettled, hstamped⟩ | ⟨hw, rfl⟩
  · obtain ⟨hs, hretry, hlt⟩ := waits_of_settled hsettled hw'
    have htime := hstamped hs hretry hlt
    rw [h.dated.fits hlt] at htime
    exact ⟨hs, hretry, hlt, (Option.some.inj htime).symm, row, List.mem_filter.mpr ⟨hrow, hw⟩,
      (congrArg Prod.fst hfixed).symm⟩
  · rw [hw] at hw'
    cases hw'

/-- What waits after a call is due again once the retry times have come. -/
theorem ready_after (h : d.Call now limit db) (send : NotificationJob → SendResult)
    {later : DateTime} (hlater : later.InRange) (hpast : ∀ k, k < d.bound → d.retryAt now k ≤ later) :
    d.Ready later (d.deliverDue store send now limit db).2 := by
  intro row' hrow' hw'
  obtain ⟨hs, hretry, hlt, htime, _⟩ := waits_of_call h send hrow' hw'
  refine due_iff.mpr ⟨hlt, .inr (.inl ⟨hs, hretry, ?_⟩)⟩
  rw [htime]
  exact (DateTime.text_le_iff (h.dated.retries _ hlt) hlater).mpr (hpast _ hlt)

/-- No more jobs wait after a call than before it. -/
theorem waiting_after (h : d.Call now limit db) (send : NotificationJob → SendResult) :
    (d.waitingRows (d.deliverDue store send now limit db).2).length ≤ limit := by
  refine Nat.le_trans ?_ h.limit
  have hids : ∀ db : Db, ((d.waitingRows db).map (·.id)).Nodup := fun db =>
    (List.filter_sublist.map _).nodup (by
      have hsorted := db.notifications.ids_sorted
      rw [List.pairwise_map] at hsorted
      exact List.pairwise_map.mpr (hsorted.imp fun hlt => Nat.ne_of_lt hlt))
  have hsub : (d.waitingRows (d.deliverDue store send now limit db).2).map (·.id) ⊆
      (d.waitingRows db).map (·.id) := by
    intro id hid
    obtain ⟨row', hrow', rfl⟩ := List.mem_map.mp hid
    obtain ⟨hin, hw'⟩ := List.mem_filter.mp hrow'
    obtain ⟨_, _, _, _, row, hrow, hsame⟩ := waits_of_call h send hin hw'
    exact List.mem_map.mpr ⟨row, hrow, hsame⟩
  have hle := ((hids _).subperm hsub).length_le
  rwa [List.length_map, List.length_map] at hle

/-! ## 3. Calls one after the other -/

/-- A call: its time, and what the channels answer to each job. -/
abbrev DeliveryRound := DateTime × (Nat → SendResult)

/-- The tables after calls of `deliver_due` one after the other. -/
def deliverRounds (d : NotificationDispatcher) (store : ServerEventStore) (limit : Nat) (db : Db)
    (rounds : List DeliveryRound) : Db :=
  rounds.foldl (fun db round => (d.deliverDue store (fun job => round.2 job.id) round.1 limit db).2)
    db

/-- The answers to the job of a row, one for each call. -/
def answersFor (d : NotificationDispatcher) (rounds : List DeliveryRound) (row : NotificationRow) :
    List (Option SendResult) :=
  rounds.map fun round => d.attempt (fun job => round.2 job.id) row.claimedJob

/-- Each call is made when the retry times of the one before it have come. -/
def Spaced (d : NotificationDispatcher) : List DeliveryRound → Prop
  | [] => True
  | [round] => d.Dated round.1
  | round :: later :: rounds => d.Dated round.1 ∧
      (∀ k, k < d.bound → d.retryAt round.1 k ≤ later.1) ∧ Spaced d (later :: rounds)

omit [Formats] in
theorem Spaced.dated {round : DeliveryRound} {rounds : List DeliveryRound}
    (h : d.Spaced (round :: rounds)) : d.Dated round.1 := by
  cases rounds with
  | nil => exact h
  | cons later rounds => exact h.1

omit [Formats] in
/-- The answers are those to the message, whatever becomes of the row. -/
theorem answersFor_of_fixed {row row' : NotificationRow} (h : row'.fixed = row.fixed)
    (rounds : List DeliveryRound) : d.answersFor rounds row' = d.answersFor rounds row := by
  have hid : row'.id = row.id := congrArg Prod.fst h
  have hchannel : row'.channel = row.channel := congrArg (fun f => f.2.channel) h
  refine List.map_congr_left fun round _ => ?_
  show (if d.configured row'.claimedJob then some (round.2 row'.id) else none) =
    if d.configured row.claimedJob then some (round.2 row.id) else none
  have hconfigured : d.configured row'.claimedJob = d.configured row.claimedJob := by
    show (d.channels.any fun name => name = row'.channel) =
      d.channels.any fun name => name = row.channel
    rw [hchannel]
  rw [hid, hconfigured]

variable (store) in
/-- What the calls make of each row, and which rows there are after them. -/
theorem rows_of_rounds (rounds : List DeliveryRound) (hdelay : 0 < d.retryDelaySeconds.toNat)
    (hspaced : d.Spaced rounds) (hready : ∀ round ∈ rounds.head?, d.Ready round.1 db)
    (hlimit : (d.waitingRows db).length ≤ limit) :
    let after := d.deliverRounds store limit db rounds
    (∀ row ∈ db.notifications.rows, ∃ row', after.notifications.get? row.id = some row' ∧
      row'.fixed = row.fixed ∧
      row'.fate d.bound = (row.fate d.bound).after d.bound (d.answersFor rounds row)) ∧
    ∀ row' ∈ after.notifications.rows, ∃ row ∈ db.notifications.rows, row.id = row'.id := by
  induction rounds generalizing db with
  | nil =>
    exact ⟨fun row hrow => ⟨row, NotificationTable.get?_of_mem hrow, rfl, rfl⟩,
      fun row hrow => ⟨row, hrow, rfl⟩⟩
  | cons round rounds ih =>
    have hcall : d.Call round.1 limit db :=
      ⟨hdelay, hspaced.dated, hready round rfl, hlimit⟩
    have hnext : d.Spaced rounds ∧
        (∀ later ∈ rounds.head?, d.Ready later.1
          (d.deliverDue store (fun job => round.2 job.id) round.1 limit db).2) := by
      cases rounds with
      | nil => exact ⟨trivial, fun _ h => by cases h⟩
      | cons later rounds =>
        obtain ⟨_, hpast, hrest⟩ := hspaced
        refine ⟨hrest, fun _ h => ?_⟩
        cases h
        exact ready_after hcall _ hrest.dated.inRange hpast
    obtain ⟨hrows, hbefore⟩ := ih hnext.1 hnext.2 (waiting_after hcall _)
    refine ⟨fun row hrow => ?_, fun row' hrow' => ?_⟩
    · obtain ⟨mid, hget, hfixed, hfate⟩ := fate_of_call store hcall _ hrow
      obtain ⟨hmem, hid⟩ := NotificationTable.get?_eq_some.mp hget
      obtain ⟨row', hget', hfixed', hfate'⟩ := hrows mid hmem
      rw [hid] at hget'
      refine ⟨row', hget', hfixed'.trans hfixed, hfate'.trans ?_⟩
      rw [answersFor_of_fixed hfixed, hfate]
      rfl
    · obtain ⟨mid, hmid, hid⟩ := hbefore row' hrow'
      obtain ⟨row, hrow, hfixed, _⟩ := row_before store hcall _ hmid
      exact ⟨row, hrow, (congrArg Prod.fst hfixed).symm.trans hid⟩

/-- **The queue refines its jobs.** Let the retry delay be a second or more, and calls of
    `deliver_due` be made one after the other, each when the retry times of the one before it have
    come, the first when every job that waits is due, all of these in years up to 9999, and with a
    limit that is enough for the jobs that wait; the channels may answer whatever they like to each
    job at each call. Then every row keeps its message, and has the fate of its job on its own,
    under the answers to it alone. After as many calls as attempts are allowed no job waits. -/
theorem fates_of_rounds (d : NotificationDispatcher) (store : ServerEventStore) (limit : Nat)
    (db : Db) (rounds : List DeliveryRound) (hdelay : 0 < d.retryDelaySeconds.toNat)
    (hspaced : d.Spaced rounds) (hready : ∀ round ∈ rounds.head?, d.Ready round.1 db)
    (hlimit : (d.waitingRows db).length ≤ limit) :
    let after := d.deliverRounds store limit db rounds
    (∀ row ∈ db.notifications.rows, ∃ row', after.notifications.get? row.id = some row' ∧
      row'.toMessage = row.toMessage ∧
      row'.fate d.bound = (row.fate d.bound).after d.bound (d.answersFor rounds row)) ∧
    (d.bound ≤ rounds.length → ∀ row ∈ after.notifications.rows,
      row.fate d.bound = .sent ∨ row.fate d.bound = .lost) := by
  obtain ⟨hrows, hbefore⟩ := rows_of_rounds store rounds hdelay hspaced hready hlimit
  refine ⟨fun row hrow => ?_, fun hle row' hrow' => ?_⟩
  · obtain ⟨row', hget, hfixed, hfate⟩ := hrows row hrow
    exact ⟨row', hget, congrArg Prod.snd hfixed, hfate⟩
  · obtain ⟨row, hrow, hid⟩ := hbefore row' hrow'
    obtain ⟨found, hget, _, hfate⟩ := hrows row hrow
    rw [hid, NotificationTable.get?_of_mem hrow'] at hget
    obtain rfl := Option.some.inj hget
    cases hend : row'.fate d.bound with
    | sent => exact .inl rfl
    | lost => exact .inr rfl
    | waiting attempts =>
      -- a job that still waits was attempted at every call
      have hne : d.answersFor rounds row ≠ [] := by
        have hpos : 0 < d.bound := d.attempts_pos
        rw [← List.length_pos_iff, answersFor, List.length_map]
        omega
      have hwaits : ((row.fate d.bound).after d.bound (d.answersFor rounds row)).waits = true := by
        rw [← hfate, hend]
        rfl
      obtain ⟨_, _, hlt⟩ := Fate.waits_after hne hwaits
      rw [answersFor, List.length_map] at hlt
      omega

end Calls

end NotificationDispatcher

namespace Sample

/-- A first call at which the channel fails, and a second one a minute later. -/
def retriedRounds : List NotificationDispatcher.DeliveryRound :=
  [(⟨1767225660000000000⟩, fun _ => unavailable), (⟨1767225720000000000⟩, fun _ => .ok ())]

end Sample

/-- The theorem at a job whose first attempt fails for now and whose second, a minute later, is
    answered: sent. -/
theorem fates_of_rounds_retried :
    let d := (Sample.delayed 30).dispatcher ()
    let after := @NotificationDispatcher.deliverRounds Sample.formats d Sample.telegramStore 100
      Sample.queued Sample.retriedRounds
    (∃ row, after.notifications.get? 1 = some row ∧ row.fate d.bound = .sent) ∧
      ∀ row ∈ after.notifications.rows, row.fate d.bound = .sent ∨ row.fate d.bound = .lost := by
  intro d
  have hspaced : d.Spaced Sample.retriedRounds :=
    ⟨⟨by decide +kernel, by decide +kernel⟩, by decide +kernel, by decide +kernel, by decide +kernel⟩
  have hdue : ∀ r ∈ Sample.queued.notifications.rows, (r.fate d.bound).waits = true →
      d.dueNow ⟨1767225660000000000⟩ r = true := by decide +kernel
  have hready : ∀ round ∈ Sample.retriedRounds.head?, d.Ready round.1 Sample.queued := by
    intro round hround
    cases hround
    exact hdue
  have hlimit : (d.waitingRows Sample.queued).length ≤ 100 := by decide +kernel
  have hcalls : d.bound ≤ Sample.retriedRounds.length := by decide +kernel
  have hqueued : ∃ row ∈ Sample.queued.notifications.rows, row.id = 1 ∧
      (row.fate d.bound).after d.bound (d.answersFor Sample.retriedRounds row) = .sent := by
    decide +kernel
  have hfates := @NotificationDispatcher.fates_of_rounds Sample.formats d
    Sample.telegramStore 100 Sample.queued Sample.retriedRounds (by decide) hspaced hready hlimit
  obtain ⟨row, hrow, hid, hsent⟩ := hqueued
  have hrow' := hfates.1 row hrow
  rw [hid] at hrow'
  obtain ⟨row', hget, _, hfate⟩ := hrow'
  exact ⟨⟨row', hget, hfate.trans hsent⟩, hfates.2 hcalls⟩

end Beacon
