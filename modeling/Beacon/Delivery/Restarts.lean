/-
  File:      Beacon/Delivery/Restarts.lean
  Subject:   Servers that follow one another on one data directory.

  Any number of processes run `beacon-server run`, each with a configuration of its own, and any of
  them is killed at any moment. `open_with_policy_and_templates` takes the lock of the data
  directory or fails, and the lock is let go with the process, so they follow one another. A
  server works in two threads: requests call `accept`, and the worker goes through `deliver_due`.
  The calls of the store are kept in a log, with the store each was made on.

  * `Servers.Did` -- what a step can do, guards included;
  * `step_view` -- the dispatchers of all servers are a fleet whose bound and store change;
  * `servers_of_run` -- **one server at a time**, and what the tables are after all of them;
  * `restarts_of_run` -- **what no restart and no new configuration changes**.
-/
import Beacon.Delivery.Worker
import Beacon.Server.Chronicle
import Beacon.Server.Http
import Beacon.Server.Startup

namespace Beacon

open Foundation

/-! ## 1. The machine -/

/-- How far a server has got: it holds the lock, its worker is started, it takes requests, or
    `serve` has returned an error and the process is about to end. -/
inductive ServerStage where
  | opened
  | started
  | listening
  | refused
  deriving DecidableEq

/-- A process that holds the lock. A worker that has panicked is gone. -/
structure ServerProcess where
  config : ServerConfig
  telegram : Option TelegramConfig
  store : ServerEventStore
  worker : Option NotificationWorker
  phase : Phase
  stage : ServerStage

structure Servers (ι : Type) where
  db : Db
  lock : Option ι
  process : ι → Option ServerProcess
  sends : List SendCall
  log : List LogEntry

inductive ServerAction (ι : Type) where
  | run (p : ι) (config : ServerConfig) (host : Host)
  | spawn (p : ι) (host : Host)
  | listen (p : ι) (host : Host)
  | request (p : ι) (env : Handling) (event : Event)
  | deliver (p : ι) (now : DateTime)
  | claim (p : ι)
  | send (p : ι) (post : Post)
  | report (p : ι)
  | abort (p : ι)
  | kill (p : ι)

namespace Servers

variable {ι : Type}

section Call

variable [Formats]

/-- A call of the store. -/
def call (s : Servers ι) (store : ServerEventStore) (op : Op) : Servers ι :=
  { s with db := (op.perform store s.db).2, log := s.log ++ [(store, op)] }

@[simp] theorem call_db (s : Servers ι) (store : ServerEventStore) (op : Op) :
    (s.call store op).db = (op.perform store s.db).2 := rfl

@[simp] theorem call_log (s : Servers ι) (store : ServerEventStore) (op : Op) :
    (s.call store op).log = s.log ++ [(store, op)] := rfl

end Call

variable [DecidableEq ι]

def set (s : Servers ι) (p : ι) (x : Option ServerProcess) : Servers ι :=
  { s with process := Function.update s.process p x }

@[simp] theorem set_db (s : Servers ι) (p : ι) (x : Option ServerProcess) :
    (s.set p x).db = s.db := rfl

@[simp] theorem set_lock (s : Servers ι) (p : ι) (x : Option ServerProcess) :
    (s.set p x).lock = s.lock := rfl

@[simp] theorem set_sends (s : Servers ι) (p : ι) (x : Option ServerProcess) :
    (s.set p x).sends = s.sends := rfl

theorem process_set (s : Servers ι) (p q : ι) (x : Option ServerProcess) :
    (s.set p x).process q = if q = p then x else s.process q := Function.update_apply ..

/-- The process that moved, or another one. -/
theorem of_process_set {s : Servers ι} {p q : ι} {x : Option ServerProcess} {y : ServerProcess}
    (h : (s.set p x).process q = some y) : s.process q = some y ∨ (q = p ∧ x = some y) := by
  rw [process_set] at h
  split at h
  · exact .inr ⟨by assumption, h⟩
  · exact .inl h

variable [Formats]

/-- One step of a server, or its end. -/
def step (s : Servers ι) : ServerAction ι → Option (Servers ι)
  | .run p config host =>
    match s.process p, s.lock, config.prepare host with
    | none, none, .ok (telegram, store) =>
      some ({ s with lock := some p }.set p (some ⟨config, telegram, store, none, .idle, .opened⟩))
    | _, _, _ => none
  | .spawn p host =>
    match s.process p with
    | some x =>
      if x.stage = .opened then
        match x.telegram with
        | none => some (s.set p (some { x with stage := .started }))
        | some telegram =>
          match x.config.spawnWorker host telegram with
          | .ok worker => some (s.set p (some { x with worker := some worker, stage := .started }))
          | .error _ => some (s.set p (some { x with stage := .refused }))
      else none
    | none => none
  | .listen p host =>
    match s.process p with
    | some x =>
      if x.stage = .started then
        match x.config.listen host with
        | .ok _ => some (s.set p (some { x with stage := .listening }))
        | .error _ => some (s.set p (some { x with stage := .refused }))
      else none
    | none => none
  | .request p env event =>
    match s.process p with
    | some x =>
      if x.stage = .listening then
        let answer := acceptEvent x.store env event s.db
        let log := if answer.1.isSuccess then [(x.store, Op.accept (env.call event))] else []
        some { s with db := answer.2, log := s.log ++ log }
      else none
    | none => none
  | .deliver p now =>
    match s.process p with
    | some x =>
      match x.worker, x.phase with
      | some _, .idle => some (s.set p (some { x with phase := .claiming now x.config.notifyLimit }))
      | _, _ => none
    | none => none
  | .claim p =>
    match s.process p with
    | some x =>
      match x.worker, x.phase with
      | some _, .claiming _ 0 => some (s.set p (some { x with phase := .idle }))
      | some worker, .claiming now (left + 1) =>
        let op := Op.claim now worker.dispatcher.bound
        match (op.perform x.store s.db).1 with
        | .ok (.claimed (some job)) =>
          some ((s.call x.store op).set p (some { x with phase := .sending now left job }))
        | _ => some ((s.call x.store op).set p (some { x with phase := .idle }))
      | _, _ => none
    | none => none
  | .send p post =>
    match s.process p with
    | some x =>
      match x.worker, x.phase with
      | some worker, .sending now left job =>
        let answer := worker.dispatcher.attempt (worker.channel.send post) job
        some ({ s with sends := s.sends ++ (answer.map (SendCall.mk now job)).toList }.set p
          (some { x with phase := .reporting now left job answer }))
      | _, _ => none
    | none => none
  | .report p =>
    match s.process p with
    | some x =>
      match x.worker, x.phase with
      | some worker, .reporting now left job answer =>
        let op := worker.dispatcher.outcome now job answer
        match (op.perform x.store s.db).1 with
        | .ok _ => some ((s.call x.store op).set p (some { x with phase := .claiming now left }))
        -- a panic of `retry_time` ends the thread
        | .error _ =>
          some ((s.call x.store op).set p (some { x with worker := none, phase := .ended }))
      | _, _ => none
    | none => none
  | .abort p =>
    -- the database fails a call of the worker: `deliver_due` ends
    match s.process p with
    | some x => some (s.set p (some { x with phase := .idle }))
    | none => none
  | .kill p =>
    match s.process p with
    | some _ => some ({ s with lock := if s.lock = some p then none else s.lock }.set p none)
    | none => none

/-- What a step can do. -/
inductive Did (s : Servers ι) : ServerAction ι → Servers ι → Prop where
  | run {p : ι} {config : ServerConfig} {host : Host} {telegram : Option TelegramConfig}
      {store : ServerEventStore} (hp : s.process p = none) (hlock : s.lock = none)
      (hprepare : config.prepare host = .ok (telegram, store)) :
      Did s (.run p config host)
        ({ s with lock := some p }.set p (some ⟨config, telegram, store, none, .idle, .opened⟩))
  | spawn {p : ι} {host : Host} {x : ServerProcess} {telegram : TelegramConfig}
      {worker : NotificationWorker} (hp : s.process p = some x) (hx : x.stage = .opened)
      (ht : x.telegram = some telegram) (hw : x.config.spawnWorker host telegram = .ok worker) :
      Did s (.spawn p host) (s.set p (some { x with worker := some worker, stage := .started }))
  | quiet {p : ι} {host : Host} {x : ServerProcess} (hp : s.process p = some x)
      (ht : x.telegram = none) : Did s (.spawn p host) (s.set p (some { x with stage := .started }))
  | listen {p : ι} {host : Host} {x : ServerProcess} (hp : s.process p = some x)
      (hl : x.config.listen host = .ok ()) :
      Did s (.listen p host) (s.set p (some { x with stage := .listening }))
  | refuse {action : ServerAction ι} {p : ι} {x : ServerProcess} (hp : s.process p = some x) :
      Did s action (s.set p (some { x with stage := .refused }))
  | accept {p : ι} {env : Handling} {event : Event} {x : ServerProcess}
      (hp : s.process p = some x) (hx : x.stage = .listening) :
      Did s (.request p env event) (s.call x.store (.accept (env.call event)))
  | reject {p : ι} {env : Handling} {event : Event} : Did s (.request p env event) s
  | deliver {p : ι} {now : DateTime} {x : ServerProcess} (hp : s.process p = some x)
      (hphase : x.phase = .idle) :
      Did s (.deliver p now) (s.set p (some { x with phase := .claiming now x.config.notifyLimit }))
  | finish {p : ι} {now : DateTime} {x : ServerProcess} (hp : s.process p = some x)
      (hphase : x.phase = .claiming now 0) :
      Did s (.claim p) (s.set p (some { x with phase := .idle }))
  | nothing {p : ι} {now : DateTime} {left : Nat} {x : ServerProcess} {worker : NotificationWorker}
      (hp : s.process p = some x) (hw : x.worker = some worker)
      (hphase : x.phase = .claiming now left)
      (hdue : s.db.firstDue worker.dispatcher.bound now = none) :
      Did s (.claim p) ((s.call x.store (.claim now worker.dispatcher.bound)).set p
        (some { x with phase := .idle }))
  | claim {p : ι} {now : DateTime} {left : Nat} {x : ServerProcess} {worker : NotificationWorker}
      {row : NotificationRow} (hp : s.process p = some x) (hw : x.worker = some worker)
      (hphase : x.phase = .claiming now (left + 1))
      (hdue : s.db.firstDue worker.dispatcher.bound now = some row) :
      Did s (.claim p) ((s.call x.store (.claim now worker.dispatcher.bound)).set p
        (some { x with phase := .sending now left row.claimedJob }))
  | send {p : ι} {post : Post} {now : DateTime} {left : Nat} {job : NotificationJob}
      {x : ServerProcess} {worker : NotificationWorker} {answer : Option SendResult}
      (hp : s.process p = some x) (hw : x.worker = some worker)
      (hphase : x.phase = .sending now left job)
      (ha : answer = worker.dispatcher.attempt (worker.channel.send post) job) :
      Did s (.send p post)
        ({ s with sends := s.sends ++ (answer.map (SendCall.mk now job)).toList }.set p
          (some { x with phase := .reporting now left job answer }))
  | report {p : ι} {now : DateTime} {left : Nat} {job : NotificationJob}
      {x : ServerProcess} {worker : NotificationWorker} {answer : Option SendResult}
      (hp : s.process p = some x) (hw : x.worker = some worker)
      (hphase : x.phase = .reporting now left job answer)
      (hok : ((worker.dispatcher.outcome now job answer).perform x.store s.db).1 = .ok .updated) :
      Did s (.report p) ((s.call x.store (worker.dispatcher.outcome now job answer)).set p
        (some { x with phase := .claiming now left }))
  | die {p : ι} {now : DateTime} {left : Nat} {job : NotificationJob}
      {x : ServerProcess} {worker : NotificationWorker} {answer : Option SendResult}
      (hp : s.process p = some x) (hw : x.worker = some worker)
      (hphase : x.phase = .reporting now left job answer)
      (hpanic : ((worker.dispatcher.outcome now job answer).perform x.store s.db).1 =
        .error (.raised .panicked)) :
      Did s (.report p) ((s.call x.store (worker.dispatcher.outcome now job answer)).set p
        (some { x with worker := none, phase := .ended }))
  | abort {p : ι} {x : ServerProcess} (hp : s.process p = some x) :
      Did s (.abort p) (s.set p (some { x with phase := .idle }))
  | kill {p : ι} {x : ServerProcess} (hp : s.process p = some x) :
      Did s (.kill p) ({ s with lock := if s.lock = some p then none else s.lock }.set p none)

end Servers

/-- No server, and the tables as `initialize_database` creates them. -/
def servers (ι : Type) [DecidableEq ι] [Formats] : Machine (Servers ι) (ServerAction ι) where
  init := ⟨Db.empty, none, fun _ => none, [], []⟩
  step := Servers.step

namespace Servers

section Steps

variable {ι : Type} [DecidableEq ι] [Formats] {s s' : Servers ι} {action : ServerAction ι}

/-- A request is a call of `accept`, or it changes nothing. -/
theorem did_request {p : ι} {env : Handling} {event : Event} {x : ServerProcess}
    (hp : s.process p = some x) (hx : x.stage = .listening)
    (hs : s' = { s with
      db := (acceptEvent x.store env event s.db).2
      log := s.log ++ if (acceptEvent x.store env event s.db).1.isSuccess then
        [(x.store, Op.accept (env.call event))] else [] }) :
    Did s (.request p env event) s' := by
  rcases acceptEvent_cases x.store env event s.db with ⟨hno, hdb⟩ | ⟨hyes, _, hdb, _⟩
  · rw [hno, hdb] at hs
    simp only [Bool.false_eq_true, if_false, List.append_nil] at hs
    rw [hs]
    exact .reject
  · rw [hyes, hdb, if_pos rfl] at hs
    rw [hs]
    exact .accept hp hx

/-- **Every enabled step is one of these.** -/
theorem did_of_step (hs : (servers ι).step s action = some s') : Did s action s' := by
  change s.step action = some s' at hs
  cases action with
  | run p config host =>
    simp only [step] at hs
    split at hs
    · rename_i telegram store hp hlock hprepare
      cases hs
      exact .run hp hlock hprepare
    · cases hs
  | spawn p host =>
    simp only [step] at hs
    split at hs
    · rename_i x hp
      split at hs
      · rename_i hx
        split at hs
        · rename_i ht
          cases hs
          exact .quiet hp ht
        · rename_i telegram ht
          split at hs
          · rename_i worker hw
            cases hs
            exact .spawn hp hx ht hw
          · cases hs
            exact .refuse hp
      · cases hs
    · cases hs
  | listen p host =>
    simp only [step] at hs
    split at hs
    · rename_i x hp
      split at hs
      · split at hs
        · rename_i hl
          cases hs
          exact .listen hp hl
        · cases hs
          exact .refuse hp
      · cases hs
    · cases hs
  | request p env event =>
    simp only [step] at hs
    split at hs
    · rename_i x hp
      split at hs
      · rename_i hx
        cases hs
        exact did_request hp hx rfl
      · cases hs
    · cases hs
  | deliver p now =>
    simp only [step] at hs
    split at hs
    · rename_i x hp
      split at hs
      · rename_i hphase
        cases hs
        exact .deliver hp hphase
      · cases hs
    · cases hs
  | claim p =>
    simp only [step] at hs
    split at hs
    · rename_i x hp
      split at hs
      · rename_i hphase
        cases hs
        exact .finish hp hphase
      · rename_i worker now left hw hphase
        rw [perform_claim] at hs
        cases hdue : s.db.firstDue worker.dispatcher.bound now with
        | none =>
          rw [hdue] at hs
          cases hs
          exact .nothing hp hw hphase hdue
        | some row =>
          rw [hdue] at hs
          cases hs
          exact .claim hp hw hphase hdue
      · cases hs
    · cases hs
  | send p post =>
    simp only [step] at hs
    split at hs
    · rename_i x hp
      split at hs
      · rename_i worker now left job hw hphase
        cases hs
        exact .send hp hw hphase rfl
      · cases hs
    · cases hs
  | report p =>
    simp only [step] at hs
    split at hs
    · rename_i x hp
      split at hs
      · rename_i worker now left job answer hw hphase
        rcases worker.dispatcher.perform_outcome x.store now job answer s.db with
          ⟨f, hf, hrec, hok⟩ | ⟨_, hpanic⟩
        · rw [hok] at hs
          cases hs
          exact .report hp hw hphase (congrArg Prod.fst hok)
        · rw [hpanic] at hs
          cases hs
          exact .die hp hw hphase (congrArg Prod.fst hpanic)
      · cases hs
    · cases hs
  | abort p =>
    simp only [step] at hs
    split at hs
    · rename_i x hp
      cases hs
      exact .abort hp
    · cases hs
  | kill p =>
    simp only [step] at hs
    split at hs
    · rename_i x hp
      cases hs
      exact .kill hp
    · cases hs

end Steps

/-! ## 2. The dispatchers of all servers -/

/-- Where a process stands in `deliver_due`; one that is not there is idle. -/
def phaseOf (x : Option ServerProcess) : Phase := x.elim .idle ServerProcess.phase

/-- The dispatchers of the servers. -/
def view {ι : Type} (s : Servers ι) : Workers ι := ⟨s.db, fun p => phaseOf (s.process p), s.sends⟩

end Servers

/-- As many dispatchers `d` as there are processes. -/
def Fleet.copies (ι : Type) (d : NotificationDispatcher) : Fleet ι :=
  ⟨d.maxAttempts, fun _ => d, fun _ => rfl⟩

/-- A dispatcher with the default configuration. -/
def NotificationDispatcher.standard : NotificationDispatcher :=
  ⟨[TelegramChannel.name], 3, 30, List.cons_ne_nil _ _, Nat.succ_pos 2⟩

namespace Servers

section View

variable {ι : Type} [DecidableEq ι] {s s' : Servers ι} {action : ServerAction ι} {p : ι}
  {x : ServerProcess}

theorem view_set (s : Servers ι) (p : ι) (x : Option ServerProcess) :
    (s.set p x).view = s.view.goto p (phaseOf x) :=
  congrArg (fun phase => Workers.mk s.db phase s.sends)
    (Function.comp_update phaseOf s.process p x)

theorem goto_self (w : Workers ι) (p : ι) : w.goto p (w.phase p) = w :=
  congrArg (fun phase => Workers.mk w.db phase w.sends) (Function.update_eq_self ..)

omit [DecidableEq ι] in
theorem phase_view (hp : s.process p = some x) : s.view.phase p = x.phase :=
  congrArg phaseOf hp

/-- A server that stays where it is in `deliver_due`. -/
theorem view_same (hp : s.process p = some x) {y : ServerProcess} (hy : y.phase = x.phase) :
    (s.set p (some y)).view = s.view := by
  have hphase : phaseOf (some y) = s.view.phase p := hy.trans (phase_view hp).symm
  rw [view_set, hphase, goto_self]

variable [Formats]

/-- **A step of a server is one of a dispatcher**, on the store and with the bound of this server,
    or none. -/
theorem step_view (h : Did s action s') :
    s'.view = s.view ∨ ∃ store fleet a, s.view.Step store fleet a s'.view := by
  let other := Fleet.copies ι .standard
  cases h with
  | @run p config host telegram store hp hlock hprepare =>
    have hidle : s.view.phase p = .idle := congrArg phaseOf hp
    refine .inl ?_
    rw [view_set]
    show s.view.goto p .idle = s.view
    rw [← hidle, goto_self]
  | spawn hp _ _ _ => exact .inl (view_same hp rfl)
  | quiet hp _ => exact .inl (view_same hp rfl)
  | listen hp _ => exact .inl (view_same hp rfl)
  | refuse hp => exact .inl (view_same hp rfl)
  | @accept p env event x hp hx => exact .inr ⟨x.store, other, _, .accept (env.call event)⟩
  | reject => exact .inl rfl
  | @deliver p now x hp hphase =>
    rw [view_set]
    exact .inr ⟨x.store, other, _, .start p now _ ((phase_view hp).trans hphase)⟩
  | @finish p now x hp hphase =>
    rw [view_set]
    exact .inr ⟨x.store, other, _, .finish p now 0 ((phase_view hp).trans hphase) (.inl rfl)⟩
  | @nothing p now left x worker hp hw hphase hdue =>
    have hdb : ((Op.claim now worker.dispatcher.bound).perform x.store s.db).2 = s.db := by
      rw [perform_claim, hdue]
    have hcall : (s.call x.store (.claim now worker.dispatcher.bound)).view = s.view :=
      congrArg (fun db => Workers.mk db s.view.phase s.view.sends) hdb
    rw [view_set, hcall]
    exact .inr ⟨x.store, Fleet.copies ι worker.dispatcher, _,
      .finish p now left ((phase_view hp).trans hphase) (.inr hdue)⟩
  | @claim p now left x worker row hp hw hphase hdue =>
    rw [view_set]
    exact .inr ⟨x.store, Fleet.copies ι worker.dispatcher, _,
      .claim p now left row ((phase_view hp).trans hphase) hdue⟩
  | @send p post now left job x worker answer hp hw hphase ha =>
    rw [view_set]
    exact .inr ⟨x.store, Fleet.copies ι worker.dispatcher, _,
      .send p now left job (worker.channel.send post job) answer ((phase_view hp).trans hphase) ha⟩
  | @report p now left job x worker answer hp hw hphase hok =>
    rw [view_set]
    exact .inr ⟨x.store, Fleet.copies ι worker.dispatcher, _,
      .report p now left job answer _ ((phase_view hp).trans hphase) (.inl ⟨rfl, hok⟩)⟩
  | @die p now left job x worker answer hp hw hphase hpanic =>
    rw [view_set]
    exact .inr ⟨x.store, Fleet.copies ι worker.dispatcher, _,
      .report p now left job answer _ ((phase_view hp).trans hphase) (.inr ⟨rfl, hpanic⟩)⟩
  | @abort p x hp =>
    rw [view_set]
    exact .inr ⟨x.store, other, _, .crash p⟩
  | @kill p x hp =>
    rw [view_set]
    exact .inr ⟨x.store, other, _, .crash p⟩

end View

end Servers

/-! ## 3. The invariant -/

/-- A server with a configuration it was started with. -/
structure ServerProcess.Sound (started : ServerConfig → Host → Prop)
    (x : ServerProcess) : Prop where
  prepared : ∃ host, started x.config host ∧ x.config.prepare host = .ok (x.telegram, x.store)
  worker : ∀ worker ∈ x.worker, worker.dispatcher.channels = [TelegramChannel.name] ∧
    worker.dispatcher.maxAttempts = x.config.notifyMaxAttempts
  listening : x.stage = .listening → x.config.Protected

/-- Nothing is left to do for the row, under at most `bound` attempts. -/
def NotificationRow.Over (bound : Nat) (r : NotificationRow) : Prop :=
  r.status = .sent ∨ (r.status = .failed ∧ r.retryable = false) ∨
    (r.status = .failed ∧ bound ≤ r.attempts)

/-- **A row that is over stays as it is**, under any claim within the bound. -/
theorem RowStep.over {op : Op} {r r' : NotificationRow} {attempts bound : Nat}
    (h : RowStep op r r') (hop : op.Within attempts) (hle : attempts ≤ bound)
    (hover : r.Over bound) : r' = r := by
  rcases hover with hs | hs | ⟨hs, hleft⟩
  · exact h.terminal hop (.inl hs)
  · exact h.terminal hop (.inr (.inl hs))
  · cases h with
    | same => rfl
    | complete now _ hflight | fail update next _ hflight =>
      rw [hs] at hflight
      cases hflight
    | claim now b _ hdue =>
      have hb : b = attempts := hop
      have hlt : r.attempts < b := (due_iff.mp hdue).1
      omega

namespace Servers

variable {ι : Type}

/-- The call was made by a server that had been started, within its attempts. -/
def Logged (started : ServerConfig → Host → Prop) (entry : LogEntry) : Prop :=
  ∃ config host telegram, started config host ∧
    config.prepare host = .ok (telegram, entry.1) ∧
    entry.2.Within config.notifyMaxAttempts.toNat

/-- The row of the job a worker has in hand is in flight, with the attempt of this job. -/
def Held (s : Servers ι) : Prop :=
  ∀ p x now job, s.process p = some x → x.phase.Holds now job →
    ∃ r, s.db.notifications.get? job.id = some r ∧ r.status = .inFlight ∧
      r.attempts = job.attempts

variable [Formats]

/-- What every run keeps. -/
structure Sound (started : ServerConfig → Host → Prop) (s : Servers ι) : Prop where
  locked : ∀ p, (s.process p).isSome ↔ s.lock = some p
  tables : s.db = performEach .empty s.log
  process : ∀ p x, s.process p = some x → x.Sound started
  logged : ∀ entry ∈ s.log, Logged started entry
  held : s.Held
  ticketed : s.view.Ticketed
  carried : s.view.Carried
  named : ∀ c ∈ s.sends, c.job.channel = TelegramChannel.name

section Invariant

variable [DecidableEq ι] {started : ServerConfig → Host → Prop} {s s' : Servers ι}
  {action : ServerAction ι}

omit [Formats] in
/-- A process that holds the lock goes on to hold it. -/
theorem locked_set {p : ι} {x : ServerProcess} (hp : s.process p = some x)
    (h : ∀ q, (s.process q).isSome ↔ s.lock = some q) (y : ServerProcess) (q : ι) :
    ((s.set p (some y)).process q).isSome ↔ s.lock = some q := by
  rw [process_set]
  split
  · rename_i hq
    rw [hq, ← h p, hp]
    exact iff_of_true rfl rfl
  · exact h q

theorem locked_did (hd : Did s action s') (h : ∀ q, (s.process q).isSome ↔ s.lock = some q) :
    ∀ q, (s'.process q).isSome ↔ s'.lock = some q := by
  cases hd with
  | @run p config host telegram store hp hlock hprepare =>
    intro q
    rw [process_set]
    split
    · rename_i hq
      rw [hq]
      exact iff_of_true rfl rfl
    · rename_i hq
      have hnone : ¬ (s.process q).isSome := by
        rw [h q, hlock]
        nofun
      exact iff_of_false hnone fun hlocked => hq (Option.some.inj hlocked).symm
  | @kill p x hp =>
    intro q
    have hlock : s.lock = some p := (h p).mp (by rw [hp]; rfl)
    rw [process_set, set_lock, if_pos hlock]
    split
    · exact iff_of_false nofun nofun
    · rename_i hq
      refine iff_of_false (fun hq' => hq ?_) nofun
      exact Option.some.inj (((h q).mp hq').symm.trans hlock)
  | accept hp _ => exact h
  | reject => exact h
  | spawn hp | quiet hp | listen hp | refuse hp | deliver hp | finish hp | abort hp =>
    exact locked_set hp h _
  | nothing hp | claim hp | report hp | die hp => exact locked_set hp h _
  | send hp => exact locked_set hp h _

omit [Formats] in
/-- A worker that has no job in hand after its step. -/
theorem held_set {p : ι} {x x' : ServerProcess} {t : Servers ι}
    (hlock : ∀ q, (s.process q).isSome ↔ s.lock = some q) (hp : s.process p = some x)
    (ht : t.process = s.process)
    (hx : ∀ now job, x'.phase.Holds now job → ∃ r, t.db.notifications.get? job.id = some r ∧
      r.status = .inFlight ∧ r.attempts = job.attempts) : (t.set p (some x')).Held := by
  intro q y now job hq hholds
  rcases of_process_set hq with hold | ⟨_, hnew⟩
  · -- there is no other server than `p`, and `p` has just moved
    rw [ht] at hold
    have hqp : q = p := by
      have hone := (hlock q).mp (by rw [hold]; rfl)
      rw [(hlock p).mp (by rw [hp]; rfl)] at hone
      exact (Option.some.inj hone).symm
    rw [hqp, process_set, if_pos rfl] at hq
    cases hq
    exact hx now job hholds
  · cases hnew
    exact hx now job hholds

theorem held_did (hd : Did s action s') (hlock : ∀ q, (s.process q).isSome ↔ s.lock = some q)
    (h : s.Held) : s'.Held := by
  cases hd with
  | @run p config host telegram store hp hnone hprepare =>
    intro q y now job hq hholds
    rcases of_process_set hq with hold | ⟨_, hnew⟩
    · exact h q y now job hold hholds
    · cases hnew
      exact hholds.elim
  | @kill p x hp =>
    intro q y now job hq hholds
    rcases of_process_set hq with hold | ⟨_, hnew⟩
    · exact h q y now job hold hholds
    · cases hnew
  | @accept p env event x hp hx =>
    intro q y now job hq hholds
    obtain ⟨r, hr, hrest⟩ := h q y now job hq hholds
    obtain ⟨r', hr', hstep⟩ := row_step x.store (.accept (env.call event)) hr
    cases hstep
    exact ⟨r, hr', hrest⟩
  | reject => exact h
  | @spawn p _ x _ _ hp | @quiet p _ x hp | @listen p _ x hp | @refuse _ p x hp =>
    exact held_set hlock hp rfl fun now job hholds => h p x now job hp hholds
  | deliver hp | finish hp | abort hp | nothing hp | report hp | die hp =>
    exact held_set hlock hp rfl fun _ _ hholds => hholds.elim
  | @claim p now left x worker row hp hw hphase hdue =>
    refine held_set hlock hp rfl fun t job hholds => ?_
    obtain ⟨rfl, rfl⟩ := hholds
    have hget := get?_claim x.store hdue row.id
    rw [(firstDue_eq_some hdue).1, Option.map_some, if_pos rfl] at hget
    exact ⟨row.claim t, hget, rfl, rfl⟩
  | @send p post now left job x worker answer hp hw hphase ha =>
    refine held_set hlock hp rfl fun t j hholds => ?_
    obtain ⟨rfl, rfl⟩ := hholds
    exact h p x t j hp (by rw [hphase]; exact ⟨rfl, rfl⟩)

/-- The tables are those of the log. -/
theorem tables_did (hd : Did s action s') (h : s.db = performEach .empty s.log) :
    s'.db = performEach .empty s'.log := by
  have hcall : ∀ store op, (s.call store op).db = performEach .empty (s.call store op).log := by
    intro store op
    rw [call_db, call_log, performEach_snoc, h]
  cases hd with
  | accept | nothing | claim | report | die => exact hcall _ _
  | _ => exact h

omit [Formats] in
/-- What holds of the servers there were holds of those there are, if it holds of the one that has
    moved. -/
theorem kept_set {Q : ServerProcess → Prop} {t : Servers ι} {p q : ι} {x : Option ServerProcess}
    {y : ServerProcess} (hy : (t.set p x).process q = some y) (ht : t.process = s.process)
    (h : ∀ p x, s.process p = some x → Q x) (hx : ∀ z, x = some z → Q z) : Q y := by
  rcases of_process_set hy with hold | ⟨_, hnew⟩
  · exact h q y (by rw [← ht]; exact hold)
  · exact hx y hnew

theorem process_did (hd : Did s action s') (h : ∀ p x, s.process p = some x → x.Sound started)
    (hrun : ∀ p config host, action = .run p config host → started config host) :
    ∀ p x, s'.process p = some x → x.Sound started := by
  intro q y hy
  cases hd with
  | @run p config host telegram store hp hlock hprepare =>
    refine kept_set (s := s) hy rfl h fun z hz => ?_
    cases hz
    exact ⟨⟨host, hrun p config host rfl, hprepare⟩, nofun, nofun⟩
  | kill hp => exact kept_set (s := s) hy rfl h fun z hz => by cases hz
  | @spawn p host x telegram worker hp _ _ hw =>
    refine kept_set (s := s) hy rfl h fun z hz => ?_
    cases hz
    refine ⟨(h p x hp).prepared, fun w hin => ?_, nofun⟩
    cases hin
    exact ⟨(ServerConfig.spawnWorker_ok hw).1, (ServerConfig.spawnWorker_ok hw).2.1⟩
  | @listen p host x hp hl =>
    refine kept_set (s := s) hy rfl h fun z hz => ?_
    cases hz
    exact ⟨(h p x hp).prepared, (h p x hp).worker, fun _ => ServerConfig.listen_ok hl⟩
  | @die p now left job x worker answer hp =>
    refine kept_set (s := s) hy rfl h fun z hz => ?_
    cases hz
    exact ⟨(h p x hp).prepared, nofun, (h p x hp).listening⟩
  | @quiet p _ x hp | @refuse _ p x hp =>
    refine kept_set (s := s) hy rfl h fun z hz => ?_
    cases hz
    exact ⟨(h p x hp).prepared, (h p x hp).worker, nofun⟩
  | accept | reject => exact h q y hy
  | @deliver p _ x hp | @finish p _ x hp | @abort p x hp | @nothing p _ _ x _ hp
  | @claim p _ _ x _ _ hp | @send p _ _ _ _ x _ _ hp | @report p _ _ _ x _ _ hp =>
    refine kept_set (s := s) hy rfl h fun z hz => ?_
    cases hz
    exact ⟨(h p x hp).prepared, (h p x hp).worker, (h p x hp).listening⟩

omit [Formats] [DecidableEq ι] in
/-- A call of a server that had been started. -/
theorem logged_snoc {log : List LogEntry} {x : ServerProcess} {op : Op}
    (h : ∀ entry ∈ log, Logged started entry) (hx : x.Sound started)
    (hop : op.Within x.config.notifyMaxAttempts.toNat) :
    ∀ entry ∈ log ++ [(x.store, op)], Logged started entry := by
  intro entry hin
  rcases List.mem_append.mp hin with hold | hnew
  · exact h entry hold
  · rw [List.mem_singleton.mp hnew]
    obtain ⟨host, hstarted, hprepare⟩ := hx.prepared
    exact ⟨x.config, host, x.telegram, hstarted, hprepare, hop⟩

omit [DecidableEq ι] [Formats] in
theorem bound_of_sound {x : ServerProcess} (hx : x.Sound started)
    {worker : NotificationWorker} (hw : x.worker = some worker) :
    worker.dispatcher.bound = x.config.notifyMaxAttempts.toNat :=
  congrArg UInt32.toNat (hx.worker worker hw).2

theorem logged_did (hd : Did s action s') (h : ∀ entry ∈ s.log, Logged started entry)
    (hsound : ∀ p x, s.process p = some x → x.Sound started) :
    ∀ entry ∈ s'.log, Logged started entry := by
  cases hd with
  | accept hp _ => exact logged_snoc h (hsound _ _ hp) trivial
  | nothing hp hw _ _ | claim hp hw _ _ =>
    exact logged_snoc h (hsound _ _ hp) (bound_of_sound (hsound _ _ hp) hw)
  | @report p now left job x worker answer hp hw hphase =>
    exact logged_snoc h (hsound _ _ hp) (worker.dispatcher.outcome_within _ now job answer)
  | @die p now left job x worker answer hp hw hphase hpanic =>
    exact logged_snoc h (hsound _ _ hp) (worker.dispatcher.outcome_within _ now job answer)
  | _ => exact h

/-- A worker sends jobs of its own channel. -/
theorem named_did (hd : Did s action s')
    (h : ∀ c ∈ s.sends, c.job.channel = TelegramChannel.name)
    (hsound : ∀ p x, s.process p = some x → x.Sound started) :
    ∀ c ∈ s'.sends, c.job.channel = TelegramChannel.name := by
  intro c hc
  cases hd with
  | @send p post now left job x worker answer hp hw hphase ha =>
    rcases List.mem_append.mp hc with hold | hnew
    · exact h c hold
    · obtain ⟨result, hresult, rfl⟩ := Option.map_eq_some_iff.mp (Option.mem_toList.mp hnew)
      rw [hresult, NotificationDispatcher.attempt] at ha
      split at ha
      · rename_i hconfigured
        rw [NotificationDispatcher.configured, ((hsound p x hp).worker worker hw).1] at hconfigured
        have hname : TelegramChannel.name = job.channel := by simpa using hconfigured
        exact hname.symm
      · cases ha
  | _ => exact h c hc

theorem sound_did (h : s.Sound started) (hd : Did s action s')
    (hrun : ∀ p config host, action = .run p config host → started config host) :
    s'.Sound started where
  locked := locked_did hd h.locked
  tables := tables_did hd h.tables
  process := process_did hd h.process hrun
  logged := logged_did hd h.logged h.process
  held := held_did hd h.locked h.held
  ticketed := by
    rcases step_view hd with hview | ⟨store, fleet, a, hstep⟩
    · rw [hview]
      exact h.ticketed
    · exact ticketed_step hstep h.ticketed
  carried := by
    rcases step_view hd with hview | ⟨store, fleet, a, hstep⟩
    · rw [hview]
      exact h.carried
    · exact carried_step h.carried hstep
  named := named_did hd h.named h.process

theorem sound_init : (servers ι).init.Sound started where
  locked := fun _ => iff_of_false nofun nofun
  tables := rfl
  process := fun _ _ h => by cases h
  logged := fun _ h => by cases h
  held := fun _ _ _ _ h => by cases h
  ticketed := Tickets.start _
  carried :=
    { held := fun _ _ h => by cases h
      sent := fun _ h => by cases h }
  named := fun _ h => by cases h

/-- The action starts no server but with such a configuration. -/
def Starts (started : ServerConfig → Host → Prop) (action : ServerAction ι) : Prop :=
  ∀ p config host, action = .run p config host → started config host

theorem sound_step (h : s.Sound started) (ha : Starts started action)
    (hs : (servers ι).step s action = some s') : s'.Sound started :=
  sound_did h (did_of_step hs) ha

/-- **Every reachable state is sound.** -/
theorem sound_run {actions : List (ServerAction ι)}
    (h : ∀ p config host, .run p config host ∈ actions → started config host) :
    ((servers ι).run actions).Sound started := by
  refine Machine.invariant_along (M := servers ι) (I := Sound started)
    (P := fun _ action => Starts started action) sound_init
    (fun _ _ _ hsound ha hs => sound_step hsound ha hs) (Machine.along_of_mem fun action hin => ?_)
  intro p config host he
  exact h p config host (he ▸ hin)

end Invariant

/-! ## 4. Attempts and sends -/

section Rows

variable {started : ServerConfig → Host → Prop}

/-- **No server counts further than its own `max_attempts`.** -/
theorem attempts_each {log : List LogEntry} (h : ∀ entry ∈ log, Logged started entry) {id : Nat}
    {r : NotificationRow} (hr : (performEach .empty log).notifications.get? id = some r) :
    r.attempts = 0 ∨
      ∃ config host, started config host ∧ r.attempts ≤ config.notifyMaxAttempts.toNat := by
  induction log using List.reverseRecOn generalizing r with
  | nil => cases hr
  | append_singleton log entry ih =>
    rw [performEach_snoc] at hr
    rcases row_origin entry.1 entry.2 hr with ⟨r₀, hr₀, hstep⟩ | ⟨m, at', rfl⟩
    · have hold := ih (fun e he => h e (List.mem_append_left _ he)) hr₀
      obtain ⟨config, host, _, hstarted, _, hwithin⟩ :=
        h entry (List.mem_append_right _ (List.mem_singleton_self entry))
      generalize entry.2 = op at hstep hwithin
      cases hstep with
      | same => exact hold
      | claim now bound _ hdue =>
        have hbound : bound = config.notifyMaxAttempts.toNat := hwithin
        have hlt : r₀.attempts < bound := (due_iff.mp hdue).1
        exact .inr ⟨config, host, hstarted, by rw [← hbound]; exact hlt⟩
      | complete => exact hold
      | fail => exact hold
    · exact .inl rfl

variable {ι : Type} [DecidableEq ι] {s s' : Servers ι} {action : ServerAction ι}

/-- The calls of `channel.send` made for a job. -/
def sendsFor (s : Servers ι) (id : Nat) : List SendCall := s.sends.filter fun c => c.job.id = id

omit [DecidableEq ι] in
theorem sendsFor_le (h : s.Sound started) {r : NotificationRow}
    (hr : s.db.notifications.get? r.id = some r) : (s.sendsFor r.id).length ≤ r.attempts := by
  have hle := h.ticketed.count_le r.id
  rw [List.filter_map, List.length_map] at hle
  have hattempts : s.view.db.attemptsOf r.id = r.attempts := Db.attemptsOf_eq hr
  rw [hattempts] at hle
  exact hle

omit [DecidableEq ι] [Formats] in
/-- The job a worker has in hand is not over. -/
theorem not_over_of_held (h : s.Held) {p : ι} {x : ServerProcess} {now : DateTime}
    {job : NotificationJob} (hp : s.process p = some x) (hholds : x.phase.Holds now job)
    {r : NotificationRow} (hr : s.db.notifications.get? job.id = some r) {bound : Nat} :
    ¬ r.Over bound := by
  obtain ⟨r', hr', hflight, _⟩ := h p x now job hp hholds
  rw [hr] at hr'
  cases hr'
  intro hover
  rcases hover with hs | ⟨hs, _⟩ | ⟨hs, _⟩ <;> rw [hflight] at hs <;> cases hs

/-- **A job that is over is not sent.** -/
theorem sendsFor_did (hd : Did s action s') (h : s.Held) {r : NotificationRow}
    (hr : s.db.notifications.get? r.id = some r) {bound : Nat} (hover : r.Over bound) :
    s'.sendsFor r.id = s.sendsFor r.id := by
  cases hd with
  | @send p post now left job x worker answer hp hw hphase ha =>
    have hother : job.id ≠ r.id := by
      intro hid
      have hholds : x.phase.Holds now job := by
        rw [hphase]
        exact ⟨rfl, rfl⟩
      exact not_over_of_held h hp hholds (by rw [hid]; exact hr) hover
    unfold sendsFor
    rw [set_sends, List.filter_append]
    refine (congrArg _ ?_).trans (List.append_nil _)
    cases answer with
    | none => rfl
    | some result => simp [hother]
  | _ => rfl

/-- One row from a state on: its message stays, its attempts do not decrease, and if it was over
    then it is as it was and has not been sent again. -/
structure Follows (bound : Nat) (s : Servers ι) (r : NotificationRow) (t : Servers ι) : Prop where
  row : ∃ r', t.db.notifications.get? r.id = some r' ∧ r'.toMessage = r.toMessage ∧
    r.attempts ≤ r'.attempts ∧ (r.Over bound → r' = r)
  sends : r.Over bound → t.sendsFor r.id = s.sendsFor r.id

theorem log_did (hd : Did s action s') : s'.log = s.log ∧ s'.db = s.db ∨
    ∃ store op, s'.log = s.log ++ [(store, op)] ∧ s'.db = (op.perform store s.db).2 := by
  cases hd with
  | accept | nothing | claim | report | die => exact .inr ⟨_, _, rfl, rfl⟩
  | _ => exact .inl ⟨rfl, rfl⟩

theorem follows_did {t t' : Servers ι} (hd : Did t action t') (hs : t'.Sound started)
    (ht : t.Held) {bound : Nat}
    (hbound : ∀ config host, started config host → config.notifyMaxAttempts.toNat ≤ bound)
    {r : NotificationRow} (h : Follows bound s r t) : Follows bound s r t' := by
  obtain ⟨r', hr', hmessage, hle, hover⟩ := h.row
  have hid : r'.id = r.id := (NotificationTable.get?_eq_some.mp hr').2
  constructor
  · rcases log_did hd with ⟨_, hdb⟩ | ⟨store, op, hlog, hdb⟩ <;> rw [hdb]
    · exact ⟨r', hr', hmessage, hle, hover⟩
    · obtain ⟨r'', hr'', hstep⟩ := row_step store op hr'
      have hentry : (store, op) ∈ t'.log := by
        rw [hlog]
        exact List.mem_append_right _ (List.mem_singleton_self _)
      obtain ⟨config, host, _, hstarted, _, hwithin⟩ := hs.logged _ hentry
      refine ⟨r'', hr'', (congrArg Prod.snd hstep.fixed).trans hmessage,
        Nat.le_trans hle hstep.attempts_le, fun ho => ?_⟩
      have hsame := hover ho
      subst hsame
      exact hstep.over hwithin (hbound config host hstarted) ho
  · intro ho
    have hsame := hover ho
    subst hsame
    rw [sendsFor_did hd ht hr' ho, h.sends ho]

theorem events_did (hd : Did s action s') : s.db.events.rows <+: s'.db.events.rows := by
  rcases log_did hd with ⟨_, hdb⟩ | ⟨store, op, _, hdb⟩
  · have hsame : s'.db.events.rows = s.db.events.rows := congrArg (fun db => db.events.rows) hdb
    exact ⟨[], by rw [hsame, List.append_nil]⟩
  · rw [hdb]
    rcases perform_cases store s.db op with ⟨call, events, _, _, _, hr, hperf⟩ | ⟨p, f, hf, _, hsame⟩
    · rw [hperf]
      exact ⟨[call.row], hr.symm⟩
    · rw [hsame]
      exact List.prefix_rfl

/-- **From a sound state on**: the events and the jobs stay. -/
theorem follows_runFrom {bound : Nat} (h : s.Sound started)
    (hbound : ∀ config host, started config host → config.notifyMaxAttempts.toNat ≤ bound)
    {more : List (ServerAction ι)}
    (hmore : ∀ p config host, .run p config host ∈ more → started config host) :
    let t := (servers ι).runFrom s more
    s.db.events.rows <+: t.db.events.rows ∧
      ∀ r ∈ s.db.notifications.rows, Follows bound s r t := by
  refine (Machine.runFrom_invariant_along (M := servers ι)
    (I := fun t => t.Sound started ∧ s.db.events.rows <+: t.db.events.rows ∧
      ∀ r ∈ s.db.notifications.rows, Follows bound s r t)
    (P := fun _ action => Starts started action) ?_ ?_ (Machine.along_of_mem ?_)).2
  · intro t action t' hI ha hs
    have hsound := sound_step hI.1 ha hs
    have hd := did_of_step hs
    exact ⟨hsound, hI.2.1.trans (events_did hd), fun r hr =>
      follows_did hd hsound hI.1.held hbound (hI.2.2 r hr)⟩
  · exact ⟨h, List.prefix_rfl, fun r hr =>
      ⟨⟨r, NotificationTable.get?_of_mem hr, rfl, Nat.le_refl _, fun _ => rfl⟩, fun _ => rfl⟩⟩
  · intro action hin p config host he
    exact hmore p config host (he ▸ hin)

end Rows

end Servers

/-! ## 5. All servers of a run -/

section Runs

variable {ι : Type} [DecidableEq ι] [Formats]

/-- **One server at a time.** In every state that any servers reach, each started with a
    configuration of its own and killed at any moment: at most one of them is there; it takes
    requests only with TLS, or if its configuration allows them without; the tables are those of
    the newly accepted events, the alerts whatever the configurations, and each message as the
    policy and the templates of one server that was started decide; a job has been sent at most
    as often as its attempts say, and these are within the `max_attempts` of one of the servers;
    and what has been sent is the message of a job, for the channel `telegram`. -/
theorem servers_of_run (actions : List (ServerAction ι)) :
    let s := (servers ι).run actions
    (∀ p q, (s.process p).isSome → (s.process q).isSome → p = q) ∧
      (∀ p x, s.process p = some x → x.stage = .listening → x.config.Protected) ∧
      (∃ as, Chronicle as s.db ∧ ∀ x ∈ as, ∃ p config host telegram,
        .run p config host ∈ actions ∧ config.prepare host = .ok (telegram, x.1)) ∧
      (∀ r ∈ s.db.notifications.rows, (s.sendsFor r.id).length ≤ r.attempts ∧
        (r.attempts = 0 ∨ ∃ p config host, .run p config host ∈ actions ∧
          r.attempts ≤ config.notifyMaxAttempts.toNat)) ∧
      ∀ c ∈ s.sends, c.job.channel = TelegramChannel.name ∧
        ∃ r ∈ s.db.notifications.rows, r.id = c.job.id ∧ r.toMessage = c.job.message := by
  intro s
  have h : s.Sound fun config host => ∃ p, .run p config host ∈ actions :=
    Servers.sound_run fun p _ _ hrun => ⟨p, hrun⟩
  refine ⟨fun p q hp hq => ?_, fun p x hp => (h.process p x hp).listening, ?_, fun r hr => ?_,
    fun c hc => ?_⟩
  · have hlock := (h.locked p).mp hp
    rw [(h.locked q).mp hq] at hlock
    exact (Option.some.inj hlock).symm
  · refine ⟨arrivalsEach .empty s.log, ?_, fun x hx => ?_⟩
    · rw [h.tables]
      exact chronicle_each s.log
    · obtain ⟨entry, hin, hstore⟩ := mem_arrivalsEach hx
      obtain ⟨config, host, telegram, ⟨p, hrun⟩, hprepare, _⟩ := h.logged entry hin
      exact ⟨p, config, host, telegram, hrun, by rw [← hstore]; exact hprepare⟩
  · have hget := NotificationTable.get?_of_mem hr
    refine ⟨Servers.sendsFor_le h hget, ?_⟩
    rw [h.tables] at hget
    rcases Servers.attempts_each h.logged hget with hzero | ⟨config, host, ⟨p, hrun⟩, hle⟩
    · exact .inl hzero
    · exact .inr ⟨p, config, host, hrun, hle⟩
  · obtain ⟨r, hr, hmessage⟩ := h.carried.sent c hc
    obtain ⟨hmem, hid⟩ := NotificationTable.get?_eq_some.mp hr
    exact ⟨h.named c hc, r, hmem, hid, hmessage⟩

/-- **What no restart and no new configuration changes.** From any reachable state on, whatever
    servers are started and killed: the events stay, in their order; every job stays, with its
    message and no fewer attempts; and a job that was sent, has failed for good or has no attempt
    left under any configuration of the run stays as it is and is not sent again. -/
theorem restarts_of_run (actions more : List (ServerAction ι)) (bound : Nat)
    (hbound : ∀ p config host, .run p config host ∈ actions ++ more →
      config.notifyMaxAttempts.toNat ≤ bound) :
    let s := (servers ι).run actions
    let t := (servers ι).run (actions ++ more)
    s.db.events.rows <+: t.db.events.rows ∧
      ∀ r ∈ s.db.notifications.rows, ∃ r' ∈ t.db.notifications.rows,
        r'.id = r.id ∧ r'.toMessage = r.toMessage ∧ r.attempts ≤ r'.attempts ∧
          (r.Over bound → r' = r ∧ t.sendsFor r.id = s.sendsFor r.id) := by
  intro s t
  let started : ServerConfig → Host → Prop := fun config host =>
    ∃ p, .run p config host ∈ actions ++ more
  have h : s.Sound started := Servers.sound_run fun p _ _ hrun => ⟨p, List.mem_append_left _ hrun⟩
  have hlater : t = (servers ι).runFrom s more := Machine.run_append _ _ _
  have hmore : ∀ p config host, .run p config host ∈ more → started config host :=
    fun p _ _ hrun => ⟨p, List.mem_append_right _ hrun⟩
  obtain ⟨hevents, hrows⟩ :=
    Servers.follows_runFrom h (fun config host ⟨p, hrun⟩ => hbound p config host hrun) hmore
  rw [← hlater] at hevents hrows
  refine ⟨hevents, fun r hr => ?_⟩
  obtain ⟨⟨r', hr', hmessage, hle, hover⟩, hsends⟩ := hrows r hr
  obtain ⟨hmem, hid⟩ := NotificationTable.get?_eq_some.mp hr'
  exact ⟨r', hmem, hid, hmessage, hle, fun ho => ⟨hover ho, hsends ho⟩⟩

end Runs

namespace Sample

/-- A host with a Telegram file, and the servers of the witness below. -/
def telegramHost : Host where
  socketAddress _ := true
  telegramFile _ := .ok ⟨"/etc/beacon/telegram.token", "42", 10, {}⟩
  isDir _ := true
  readToString _ := .ok "123:token\n"
  httpsClient := true
  certificate _ _ := .ok ()
  bindAddress _ := .ok ()

def telegramServer (maxAttempts : UInt32) : ServerConfig where
  bind := "127.0.0.1:8787"
  credentialsDir := "/etc/beacon/agents.d"
  policy := ⟨[allRule]⟩
  tlsCert := none
  tlsKey := none
  allowHttp := true
  telegramConfig := some "/etc/beacon/telegram.json"
  notifyMaxAttempts := maxAttempts

/-- A server takes an alert, sends it and is killed. -/
def firstServer : List (ServerAction Bool) :=
  [.run false (telegramServer 2) telegramHost, .spawn false telegramHost,
    .listen false telegramHost,
    .request false ⟨true, none, ⟨1767225601000000000⟩, ⟨1767225601000000000⟩⟩
      (event id1 "2026-01-01T00:00:00Z" .firing .warning),
    .deliver false ⟨1767225660000000000⟩, .claim false,
    .send false fun _ _ => some ⟨200, "200 OK"⟩, .report false, .kill false]

/-- The next one, with more attempts, looks for work. -/
def nextServer : List (ServerAction Bool) :=
  [.run true (telegramServer 5) telegramHost, .spawn true telegramHost,
    .deliver true ⟨1767229260000000000⟩, .claim true]

/-- The attempts of these servers. -/
theorem attempts_servers {p : Bool} {config : ServerConfig} {host : Host}
    (h : .run p config host ∈ firstServer ++ nextServer) : config.notifyMaxAttempts.toNat ≤ 5 := by
  have hconfig : config = telegramServer 2 ∨ config = telegramServer 5 := by
    simp only [firstServer, nextServer, List.cons_append, List.nil_append, List.mem_cons,
      ServerAction.run.injEq, reduceCtorEq, List.not_mem_nil, false_or, or_false] at h
    rcases h with ⟨_, h, _⟩ | ⟨_, h, _⟩
    · exact .inl h
    · exact .inr h
  rcases hconfig with rfl | rfl <;> decide

end Sample

/-- A job that the first server has sent, and the second one finds. -/
theorem restarts_of_run_sent :
    let s := (@servers Bool _ Sample.formats).run Sample.firstServer
    let t := (@servers Bool _ Sample.formats).run (Sample.firstServer ++ Sample.nextServer)
    ∃ r ∈ s.db.notifications.rows, r.status = .sent ∧ r ∈ t.db.notifications.rows ∧
      t.sendsFor r.id = s.sendsFor r.id := by
  intro s t
  have hrow : ∃ r ∈ s.db.notifications.rows, r.status = .sent := by decide +kernel
  obtain ⟨r, hr, hsent⟩ := hrow
  obtain ⟨r', hr', _, _, _, hover⟩ := (@restarts_of_run Bool _ Sample.formats Sample.firstServer
    Sample.nextServer 5 fun _ _ _ => Sample.attempts_servers).2 r hr
  obtain ⟨rfl, hsends⟩ := hover (.inl hsent)
  exact ⟨r', hr, hsent, hr', hsends⟩

end Beacon
