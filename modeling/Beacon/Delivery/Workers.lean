/-
  File:      Beacon/Delivery/Workers.lean
  Subject:   Dispatchers that share one queue, with crashes.

  Any number of dispatchers run `deliver_due` on one store, each a program counter: claim, send,
  report, and again. Their steps interleave with each other and with `accept`; each claim,
  complete and fail is atomic. A dispatcher can crash before each of its steps, and is started
  again; a call of the store that fails ends `deliver_due` the same way. A report that panics ends
  the thread of its dispatcher: it delivers again after a restart of its process only. The calls
  of `channel.send` are kept in a log that no step reads.

  * `Workers.Step` -- what a step can do, guards included;
  * `ticketed_run` -- a claim draws a ticket (Foundation/Tickets.lean) and a send uses it;
  * `queue_of_run` -- **the queue over every run**: sends, attempts, the delivery columns and
    the terminal rows;
  * `deliverLoop_run` -- a call of `deliver_due` is a run of its dispatcher alone.
-/
import Beacon.Delivery.Dispatcher
import Beacon.Foundation.Machine
import Beacon.Foundation.Tickets

namespace Beacon

open Foundation

/-! ## 1. The machine -/

/-- Dispatchers that share one `max_attempts`. -/
structure Fleet (ι : Type) where
  maxAttempts : UInt32
  dispatcher : ι → NotificationDispatcher
  shared : ∀ i, (dispatcher i).maxAttempts = maxAttempts

def Fleet.bound {ι : Type} (fleet : Fleet ι) : Nat := fleet.maxAttempts.toNat

theorem Fleet.bound_eq {ι : Type} (fleet : Fleet ι) (i : ι) :
    (fleet.dispatcher i).bound = fleet.bound := congrArg UInt32.toNat (fleet.shared i)

/-- Where a dispatcher stands in `deliver_due`. -/
inductive Phase where
  | idle
  | claiming (now : DateTime) (left : Nat)
  | sending (now : DateTime) (left : Nat) (job : NotificationJob)
  | reporting (now : DateTime) (left : Nat) (job : NotificationJob) (answer : Option SendResult)
  | ended -- its thread is gone: a report panicked

/-- A call of `channel.send`. -/
structure SendCall where
  now : DateTime
  job : NotificationJob
  result : SendResult

structure Workers (ι : Type) where
  db : Db
  phase : ι → Phase
  sends : List SendCall

inductive WorkerAction (ι : Type) where
  | accept (call : AcceptCall)
  | deliver (i : ι) (now : DateTime) (limit : Nat)
  | claim (i : ι)
  | send (i : ι) (answer : SendResult)
  | report (i : ι)
  | crash (i : ι)

section Machine

variable {ι : Type} [DecidableEq ι]

def Workers.goto (s : Workers ι) (i : ι) (p : Phase) : Workers ι :=
  { s with phase := Function.update s.phase i p }

@[simp] theorem Workers.goto_db (s : Workers ι) (i : ι) (p : Phase) : (s.goto i p).db = s.db := rfl

@[simp] theorem Workers.goto_sends (s : Workers ι) (i : ι) (p : Phase) :
    (s.goto i p).sends = s.sends := rfl

@[simp] theorem Workers.goto_phase (s : Workers ι) (i : ι) (p : Phase) :
    (s.goto i p).phase = Function.update s.phase i p := rfl

/-- A dispatcher that moves leaves the others where they are. -/
theorem phase_goto {s : Workers ι} {i j : ι} {p q : Phase} (h : (s.goto j p).phase i = q) :
    s.phase i = q ∨ (j = i ∧ p = q) := by
  rw [Workers.goto_phase] at h
  by_cases hj : i = j
  · subst hj
    rw [Function.update_self] at h
    exact .inr ⟨rfl, h⟩
  · rw [Function.update_of_ne hj] at h
    exact .inl h

variable [Formats] (store : ServerEventStore) (fleet : Fleet ι)

/-- One step of the loop of `deliver_due`, or of its surroundings. -/
def Workers.step (s : Workers ι) : WorkerAction ι → Option (Workers ι)
  | .accept call => some { s with db := ((Op.accept call).perform store s.db).2 }
  | .deliver i now limit =>
    match s.phase i with
    | .idle => some (s.goto i (.claiming now limit))
    | _ => none
  | .claim i =>
    match s.phase i with
    | .claiming _ 0 => some (s.goto i .idle)
    | .claiming now (left + 1) =>
      match (Op.claim now (fleet.dispatcher i).bound).perform store s.db with
      | (.ok (.claimed (some job)), db) => some ({ s with db := db }.goto i (.sending now left job))
      | (_, db) => some ({ s with db := db }.goto i .idle)
    | _ => none
  | .send i answer =>
    match s.phase i with
    | .sending now left job =>
      let result := (fleet.dispatcher i).attempt (fun _ => answer) job
      some ({ s with sends := s.sends ++ (result.map (SendCall.mk now job)).toList }.goto i
        (.reporting now left job result))
    | _ => none
  | .report i =>
    match s.phase i with
    | .reporting now left job answer =>
      match ((fleet.dispatcher i).outcome now job answer).perform store s.db with
      | (.ok _, db) => some ({ s with db := db }.goto i (.claiming now left))
      -- a panic of `retry_time` ends the thread
      | (.error _, db) => some ({ s with db := db }.goto i .ended)
    | _ => none
  -- the process dies and is started again, or a call of the store fails
  | .crash i => some (s.goto i .idle)

/-- The dispatchers on an empty store. -/
def workers : Machine (Workers ι) (WorkerAction ι) where
  init := ⟨Db.empty, fun _ => .idle, []⟩
  step := Workers.step store fleet

/-- What a step can do. -/
inductive Workers.Step (s : Workers ι) : WorkerAction ι → Workers ι → Prop
  | accept (call : AcceptCall) :
      Step s (.accept call) { s with db := ((Op.accept call).perform store s.db).2 }
  | start (i : ι) (now : DateTime) (limit : Nat) (hp : s.phase i = .idle) :
      Step s (.deliver i now limit) (s.goto i (.claiming now limit))
  | finish (i : ι) (now : DateTime) (left : Nat) (hp : s.phase i = .claiming now left)
      (hn : left = 0 ∨ s.db.firstDue fleet.bound now = none) : Step s (.claim i) (s.goto i .idle)
  | claim (i : ι) (now : DateTime) (left : Nat) (row : NotificationRow)
      (hp : s.phase i = .claiming now (left + 1))
      (hrow : s.db.firstDue fleet.bound now = some row) :
      Step s (.claim i)
        ({ s with db := ((Op.claim now fleet.bound).perform store s.db).2 }.goto i
          (.sending now left row.claimedJob))
  | send (i : ι) (now : DateTime) (left : Nat) (job : NotificationJob) (answer : SendResult)
      (result : Option SendResult) (hp : s.phase i = .sending now left job)
      (hr : result = (fleet.dispatcher i).attempt (fun _ => answer) job) :
      Step s (.send i answer)
        ({ s with sends := s.sends ++ (result.map (SendCall.mk now job)).toList }.goto i
          (.reporting now left job result))
  | report (i : ι) (now : DateTime) (left : Nat) (job : NotificationJob)
      (answer : Option SendResult) (p : Phase)
      (hp : s.phase i = .reporting now left job answer)
      (hnext : (p = .claiming now left ∧
          (((fleet.dispatcher i).outcome now job answer).perform store s.db).1 = .ok .updated) ∨
        (p = .ended ∧ (((fleet.dispatcher i).outcome now job answer).perform store s.db).1 =
          .error (.raised .panicked))) :
      Step s (.report i)
        ({ s with db := (((fleet.dispatcher i).outcome now job answer).perform store s.db).2 }.goto i p)
  | crash (i : ι) : Step s (.crash i) (s.goto i .idle)

variable {store fleet}

theorem step_cases {s s' : Workers ι} {a : WorkerAction ι}
    (h : (workers store fleet).step s a = some s') : s.Step store fleet a s' := by
  have h' : s.step store fleet a = some s' := h
  cases a with
  | accept call => cases h'; exact .accept call
  | deliver i now limit =>
    simp only [Workers.step] at h'
    split at h'
    · rename_i hp
      cases h'
      exact .start i now limit hp
    · cases h'
  | claim i =>
    simp only [Workers.step, perform_claim, fleet.bound_eq] at h'
    split at h'
    · rename_i now hp
      cases h'
      exact .finish i now 0 hp (.inl rfl)
    · rename_i now left hp
      cases hd : s.db.firstDue fleet.bound now with
      | none =>
        rw [hd] at h'
        cases h'
        exact .finish i now _ hp (.inr hd)
      | some row =>
        have hperf := perform_claim store s.db now fleet.bound
        rw [hd] at h' hperf
        have hs : s.Step store fleet (.claim i) _ := .claim i now left row hp hd
        rw [hperf] at hs
        cases h'
        exact hs
    · cases h'
  | send i answer =>
    simp only [Workers.step] at h'
    split at h'
    · rename_i now left job hp
      cases h'
      exact .send i now left job answer _ hp rfl
    · cases h'
  | report i =>
    simp only [Workers.step] at h'
    split at h'
    · rename_i now left job answer hp
      rcases (fleet.dispatcher i).perform_outcome store now job answer s.db with
        ⟨f, hf, hrec, hok⟩ | ⟨hlt, herr⟩
      · have hs' : s.Step store fleet (.report i) _ :=
          .report i now left job answer (.claiming now left) hp (.inl ⟨rfl, by rw [hok]⟩)
        rw [hok] at h' hs'
        cases h'
        exact hs'
      · have hs' : s.Step store fleet (.report i) _ :=
          .report i now left job answer .ended hp (.inr ⟨rfl, by rw [herr]⟩)
        rw [herr] at h' hs'
        cases h'
        exact hs'
    · cases h'
  | crash i => cases h'; exact .crash i

end Machine

/-! ## 2. The rows -/

section Rows

variable {ι : Type} [DecidableEq ι] [Formats] {store : ServerEventStore} {fleet : Fleet ι}
  {s s' : Workers ι} {a : WorkerAction ι}

/-- A step makes at most one call of the store, a claim of it with the shared bound. -/
theorem step_db (h : s.Step store fleet a s') :
    s'.db = s.db ∨ ∃ op : Op, op.Within fleet.bound ∧ s'.db = (op.perform store s.db).2 := by
  cases h with
  | accept call => exact .inr ⟨.accept call, trivial, rfl⟩
  | claim i now left row hp hrow => exact .inr ⟨.claim now fleet.bound, rfl, rfl⟩
  | report i now left job answer p hp hnext =>
    exact .inr ⟨_, (fleet.dispatcher i).outcome_within _ now job answer, rfl⟩
  | _ => exact .inl rfl

/-- The delivery columns of every row are sound. -/
def Workers.RowsSound (fleet : Fleet ι) (s : Workers ι) : Prop :=
  ∀ id r, s.db.notifications.get? id = some r → r.Sound fleet.bound

theorem rowsSound_step (h : s.Step store fleet a s') (hs : s.RowsSound fleet) :
    s'.RowsSound fleet := by
  intro id r' hr'
  rcases step_db h with hdb | ⟨op, hop, hdb⟩ <;> rw [hdb] at hr'
  · exact hs id r' hr'
  · rcases row_origin store op hr' with ⟨r, hr, hstep⟩ | ⟨m, at', rfl⟩
    · exact hstep.sound hop (hs id r hr)
    · exact sound_newRow _ id m at'

theorem rowsSound_run (as : List (WorkerAction ι)) :
    ((workers store fleet).run as).RowsSound fleet :=
  Machine.invariant (M := workers store fleet) (I := Workers.RowsSound fleet)
    (fun _ _ h => by cases h) (fun _ _ _ hs h => rowsSound_step (step_cases h) hs) as

/-- The rows of a state in a later one: none is lost, attempts do not decrease, terminal rows are
    as they were. -/
def Workers.Later (fleet : Fleet ι) (s t : Workers ι) : Prop :=
  ∀ id r, s.db.notifications.get? id = some r → ∃ r', t.db.notifications.get? id = some r' ∧
    r.attempts ≤ r'.attempts ∧ (r.Terminal fleet.bound → r' = r)

theorem later_step (h : s.Step store fleet a s') : s.Later fleet s' := by
  intro id r hr
  rcases step_db h with hdb | ⟨op, hop, hdb⟩ <;> rw [hdb]
  · exact ⟨r, hr, Nat.le_refl _, fun _ => rfl⟩
  · obtain ⟨r', hr', hstep⟩ := row_step store op hr
    exact ⟨r', hr', hstep.attempts_le, hstep.terminal hop⟩

variable (store) (fleet) in
theorem later_run (as bs : List (WorkerAction ι)) :
    ((workers store fleet).run as).Later fleet ((workers store fleet).run (as ++ bs)) := by
  refine Machine.steady (M := workers store fleet) (I := fun _ => True) (R := Workers.Later fleet)
    trivial (fun _ _ _ _ _ => trivial) ?_ ?_ (fun _ _ _ _ h => later_step (step_cases h)) as bs
  · exact fun s id r hr => ⟨r, hr, Nat.le_refl _, fun _ => rfl⟩
  · intro s t u hst htu id r hr
    obtain ⟨r', hr', hle, hterm⟩ := hst id r hr
    obtain ⟨r'', hr'', hle', hterm'⟩ := htu id r' hr'
    refine ⟨r'', hr'', Nat.le_trans hle hle', fun ht => ?_⟩
    have he := hterm ht
    subst he
    exact hterm' ht

end Rows

/-! ## 3. The sends -/

/-- A claimed attempt: the job and which attempt it is. -/
def NotificationJob.ticket (job : NotificationJob) : Nat × Nat := (job.id, job.attempts)

/-- The attempt whose send is still to come. -/
def Phase.ticket? : Phase → Option (Nat × Nat)
  | .sending _ _ job => some job.ticket
  | _ => none

/-- The attempts column, by id. -/
def Db.attemptsOf (db : Db) (id : Nat) : Nat :=
  (db.notifications.get? id).elim 0 NotificationRow.attempts

theorem Db.attemptsOf_eq {db : Db} {id : Nat} {r : NotificationRow}
    (h : db.notifications.get? id = some r) : db.attemptsOf id = r.attempts := by
  rw [attemptsOf, h]
  rfl

section Sends

variable {ι : Type}

/-- The attempts of the state as tickets: drawn by claims, used by sends. -/
def Workers.Ticketed (s : Workers ι) : Prop :=
  Tickets s.db.attemptsOf (fun i => (s.phase i).ticket?) (s.sends.map fun c => c.job.ticket)

variable [Formats] {store : ServerEventStore}

theorem attemptsOf_perform (op : Op) (db : Db) (id : Nat) :
    db.attemptsOf id ≤ (op.perform store db).2.attemptsOf id := by
  cases h : db.notifications.get? id with
  | none => rw [Db.attemptsOf, h]; exact Nat.zero_le _
  | some r =>
    obtain ⟨r', hr', hstep⟩ := row_step store op h
    rw [Db.attemptsOf_eq h, Db.attemptsOf_eq hr']
    exact hstep.attempts_le

variable (store) in
/-- A claim counts the attempt it hands out. -/
theorem attemptsOf_claim {db : Db} {now : DateTime} {maxAttempts : Nat} {row : NotificationRow}
    (h : db.firstDue maxAttempts now = some row) :
    db.attemptsOf row.id = row.attempts ∧
      ((Op.claim now maxAttempts).perform store db).2.attemptsOf row.id = row.attempts + 1 := by
  obtain ⟨hget, _⟩ := firstDue_eq_some h
  refine ⟨Db.attemptsOf_eq hget, ?_⟩
  rw [perform_claim, h]
  have hrow : (db.updateNotifications (NotificationRow.hasId row.id) (NotificationRow.claim now)
      fun _ => rfl).notifications.get? row.id =
      some (if NotificationRow.hasId row.id row then row.claim now else row) := updated_row hget
  rw [if_pos (hasId_iff.mpr rfl)] at hrow
  exact Db.attemptsOf_eq hrow

variable [DecidableEq ι] {fleet : Fleet ι} {s s' : Workers ι} {a : WorkerAction ι}

omit [Formats] in
theorem ticket?_goto (s : Workers ι) (i : ι) (p : Phase) :
    (fun j => ((s.goto i p).phase j).ticket?) =
      Function.update (fun j => (s.phase j).ticket?) i p.ticket? :=
  Function.comp_update Phase.ticket? s.phase i p

theorem ticketed_step (h : s.Step store fleet a s') (hs : s.Ticketed) : s'.Ticketed := by
  cases h with
  | accept call => exact hs.grow (attemptsOf_perform _ s.db)
  | start i now limit hp =>
    unfold Workers.Ticketed
    rw [ticket?_goto]
    exact hs.drop i
  | finish i now left hp hn =>
    unfold Workers.Ticketed
    rw [ticket?_goto]
    exact hs.drop i
  | crash i =>
    unfold Workers.Ticketed
    rw [ticket?_goto]
    exact hs.drop i
  | claim i now left row hp hrow =>
    obtain ⟨hbefore, hafter⟩ := attemptsOf_claim store hrow
    unfold Workers.Ticketed
    rw [ticket?_goto]
    refine Tickets.draw hs i (k := row.id) (n := row.attempts + 1) ?_ ?_ (attemptsOf_perform _ s.db)
    · omega
    · exact Nat.le_of_eq hafter.symm
  | send i now left job answer result hp hr =>
    unfold Workers.Ticketed
    rw [ticket?_goto]
    cases result with
    | none =>
      simp only [Option.map_none, Option.toList_none, List.append_nil]
      exact hs.drop i
    | some answer' =>
      have hheld : (s.phase i).ticket? = some job.ticket := by rw [hp]; rfl
      simp only [Option.map_some, Option.toList_some, Workers.goto_sends, List.map_append,
        List.map_singleton]
      exact hs.use hheld
  | report i now left job answer p hp hnext =>
    have hgone : p.ticket? = none := by
      rcases hnext with ⟨rfl, _⟩ | ⟨rfl, _⟩ <;> rfl
    unfold Workers.Ticketed
    rw [ticket?_goto, hgone]
    exact (hs.drop i).grow (attemptsOf_perform _ s.db)

variable (store) (fleet)

/-- **A claimed attempt is sent at most once.** -/
theorem ticketed_run (as : List (WorkerAction ι)) : ((workers store fleet).run as).Ticketed :=
  Machine.invariant (M := workers store fleet) (I := Workers.Ticketed) (Tickets.start _)
    (fun _ _ _ hs h => ticketed_step (step_cases h) hs) as

/-- The calls of `channel.send` made for a job. -/
def Workers.sendsFor (s : Workers ι) (id : Nat) : List SendCall :=
  s.sends.filter fun c => c.job.id = id

theorem sendsFor_le (as : List (WorkerAction ι)) (id : Nat) :
    (((workers store fleet).run as).sendsFor id).length ≤
      ((workers store fleet).run as).db.attemptsOf id := by
  have h := (ticketed_run store fleet as).count_le id
  rw [List.filter_map, List.length_map] at h
  exact h

end Sends

/-- **The queue over every run.** In every state a run of any dispatchers with one `max_attempts`
    reaches, and for every job of the queue: the sends made for it are at most its attempts, these
    at most `max_attempts`, so that the attempt a claim counts fits a `u32`; a pending job has no
    attempts; `claimed_at` is set just in flight and `sent_at` just when sent; and in every later
    state the job has at least as many attempts, and is unchanged if it was sent, permanently
    failed or out of attempts. -/
theorem queue_of_run [Formats] {ι : Type} [DecidableEq ι] (store : ServerEventStore)
    (fleet : Fleet ι) (as : List (WorkerAction ι)) :
    let s := (workers store fleet).run as
    ∀ r ∈ s.db.notifications.rows,
      (s.sendsFor r.id).length ≤ r.attempts ∧ r.attempts ≤ fleet.bound ∧
      (∀ now, s.db.firstDue fleet.bound now = some r → r.attempts + 1 < 2 ^ 32) ∧
      (r.status = .pending → r.attempts = 0) ∧
      (r.claimedAt.isSome ↔ r.status = .inFlight) ∧
      (r.sentAt.isSome ↔ r.status = .sent) ∧
      ∀ bs, ∃ r' ∈ ((workers store fleet).run (as ++ bs)).db.notifications.rows,
        r'.id = r.id ∧ r.attempts ≤ r'.attempts ∧ (r.Terminal fleet.bound → r' = r) := by
  intro s r hr
  have hget : s.db.notifications.get? r.id = some r := NotificationTable.get?_of_mem hr
  have hsound : r.Sound fleet.bound := rowsSound_run as r.id r hget
  refine ⟨?_, hsound.bounded, ?_, hsound.pending, hsound.claimed, hsound.sent, ?_⟩
  · have hle := sendsFor_le store fleet as r.id
    rw [Db.attemptsOf_eq hget] at hle
    exact hle
  · intro now hdue
    obtain ⟨hlt, _⟩ := due_iff.mp (firstDue_eq_some hdue).2
    have hfits : fleet.bound < 2 ^ 32 := fleet.maxAttempts.toNat_lt
    omega
  · intro bs
    obtain ⟨r', hr', hle, hterm⟩ := later_run store fleet as bs r.id r hget
    obtain ⟨hmem, hid⟩ := NotificationTable.get?_eq_some.mp hr'
    exact ⟨r', hmem, hid, hle, hterm⟩

namespace Sample

theorem telegram_ne_nil : ["telegram"] ≠ [] := List.cons_ne_nil _ _

/-- A dispatcher of the channel `telegram`, with the default delay. -/
def dispatcher (maxAttempts : UInt32) (h : 0 < maxAttempts.toNat) : NotificationDispatcher :=
  ⟨["telegram"], maxAttempts, 30, telegram_ne_nil, h⟩

/-- The one worker of the server. -/
def worker (maxAttempts : UInt32) (h : 0 < maxAttempts.toNat) : Fleet Unit :=
  ⟨maxAttempts, fun _ => dispatcher maxAttempts h, fun _ => rfl⟩

/-- The answer of a channel that is down. -/
def unavailable : SendResult :=
  .error (.temporary "Telegram returned HTTP 500 Internal Server Error")

/-- An alert is accepted, its job is claimed, and the process dies. -/
def crash : List (WorkerAction Unit) :=
  [.accept (call (event id1 "2026-01-01T00:00:00Z" .firing .warning)),
    .deliver () ⟨1767225660000000000⟩ 100, .claim (), .crash ()]

end Sample

/-- The theorem at a crash between claim and send: the job is in flight, not sent. -/
theorem queue_of_run_crash :
    let s := (@workers Unit _ Sample.formats Sample.telegramStore
      (Sample.worker 2 (by decide))).run Sample.crash
    ∃ r ∈ s.db.notifications.rows, r.status = .inFlight ∧ r.claimedAt.isSome ∧
      (s.sendsFor r.id).length ≤ r.attempts ∧ r.attempts ≤ 2 := by
  intro s
  have hrow : ∃ r ∈ s.db.notifications.rows, r.status = .inFlight := by decide +kernel
  obtain ⟨r, hr, hs⟩ := hrow
  obtain ⟨hsends, hle, _, _, hclaimed, _⟩ :=
    @queue_of_run Sample.formats Unit _ Sample.telegramStore (Sample.worker 2 (by decide))
      Sample.crash r hr
  exact ⟨r, hr, hs, hclaimed.mpr hs, hsends, hle⟩

/-! ## 4. A call of `deliver_due` as a run -/

section Call

variable {ι : Type} [DecidableEq ι] [Formats] {store : ServerEventStore} {fleet : Fleet ι}

/-- The steps of the loop of one dispatcher. -/
def WorkerAction.OfLoop (i : ι) : WorkerAction ι → Prop
  | .claim j => j = i
  | .send j _ => j = i
  | .report j => j = i
  | _ => False

/-- **The loop is a run of its dispatcher alone**, without a crash; it leaves the dispatcher idle,
    or its thread has ended. -/
theorem deliverLoop_run (i : ι) (send : NotificationJob → SendResult) (now : DateTime)
    (left delivered : Nat) {s : Workers ι} (hp : s.phase i = .claiming now left) :
    ∃ as sends p, (∀ a ∈ as, WorkerAction.OfLoop i a) ∧ (p = .idle ∨ p = .ended) ∧
      (workers store fleet).runFrom s as =
        ⟨((fleet.dispatcher i).deliverLoop store send now left delivered s.db).2,
          Function.update s.phase i p, sends⟩ := by
  induction left generalizing delivered s with
  | zero =>
    have hstep : (workers store fleet).step s (.claim i) = some (s.goto i .idle) := by
      simp only [workers, Workers.step, hp]
    refine ⟨[.claim i], s.sends, .idle, by simp [WorkerAction.OfLoop], .inl rfl, ?_⟩
    rw [Machine.runFrom_cons, Machine.act_of_step hstep]
    rfl
  | succ left ih =>
    cases hd : s.db.firstDue (fleet.dispatcher i).bound now with
    | none =>
      have hstep : (workers store fleet).step s (.claim i) = some (s.goto i .idle) := by
        simp only [workers, Workers.step, hp, perform_claim, hd]
      refine ⟨[.claim i], s.sends, .idle, by simp [WorkerAction.OfLoop], .inl rfl, ?_⟩
      rw [NotificationDispatcher.deliverLoop_none store send now left delivered s.db hd,
        Machine.runFrom_cons, Machine.act_of_step hstep]
      rfl
    | some row =>
      let d := fleet.dispatcher i
      let answer := d.attempt send row.claimedJob
      let sends := s.sends ++ (answer.map (SendCall.mk now row.claimedJob)).toList
      let s₁ : Workers ι := { s with db := d.claimed store now s.db }.goto i
        (.sending now left row.claimedJob)
      let s₂ : Workers ι := { s₁ with sends := sends }.goto i
        (.reporting now left row.claimedJob answer)
      have hclaim : (workers store fleet).step s (.claim i) = some s₁ := by
        simp only [workers, Workers.step, hp, perform_claim, hd, s₁, NotificationDispatcher.claimed,
          d]
      have hsend : (workers store fleet).step s₁ (.send i (send row.claimedJob)) = some s₂ := by
        simp only [workers, Workers.step, s₁, s₂, Workers.goto_phase, Function.update_self]
        rfl
      have hrep : s₂.phase i = .reporting now left row.claimedJob answer := Function.update_self ..
      have hphase : ∀ p, Function.update s₂.phase i p = Function.update s.phase i p := fun p => by
        simp only [s₂, s₁, Workers.goto_phase, Function.update_idem]
      rcases NotificationDispatcher.deliverLoop_some store send now left delivered s.db hd with
        ⟨f, hf, hrec, hok, hloop⟩ | ⟨hpanic, hloop⟩
      · let db' := ((d.outcome now row.claimedJob answer).perform store
          (d.claimed store now s.db)).2
        have hreport : (workers store fleet).step s₂ (.report i) =
            some ({ s₂ with db := db' }.goto i (.claiming now left)) := by
          simp only [workers, Workers.step, hrep]
          rw [show s₂.db = d.claimed store now s.db from rfl, hok]
          simp only [db', d, answer, hok]
        obtain ⟨as, sends', q, hof, hq, hrun⟩ := ih
          (if NotificationDispatcher.delivers answer then delivered + 1 else delivered)
          (s := { s₂ with db := db' }.goto i (.claiming now left)) (Function.update_self ..)
        refine ⟨.claim i :: .send i (send row.claimedJob) :: .report i :: as, sends', q, ?_, hq,
          ?_⟩
        · simpa [WorkerAction.OfLoop] using hof
        · rw [Machine.runFrom_cons, Machine.act_of_step hclaim, Machine.runFrom_cons,
            Machine.act_of_step hsend, Machine.runFrom_cons, Machine.act_of_step hreport, hrun,
            hloop]
          refine congrArg (fun p => Workers.mk _ p _) ?_
          rw [← hphase]
          exact Function.update_idem ..
      · have hreport : (workers store fleet).step s₂ (.report i) =
            some ({ s₂ with db := d.claimed store now s.db }.goto i .ended) := by
          simp only [workers, Workers.step, hrep]
          rw [show s₂.db = d.claimed store now s.db from rfl, hpanic]
        refine ⟨[.claim i, .send i (send row.claimedJob), .report i], sends, .ended,
          by simp [WorkerAction.OfLoop], .inr rfl, ?_⟩
        rw [Machine.runFrom_cons, Machine.act_of_step hclaim, Machine.runFrom_cons,
          Machine.act_of_step hsend, Machine.runFrom_cons, Machine.act_of_step hreport, hloop]
        exact congrArg (fun p => Workers.mk _ p _) (hphase _)

end Call

end Beacon
