/-
  File:      Beacon/Agent/Processes.lean
  Subject:   Processes of `beacon-agent` that share spools under their locks.

  Any number of processes may be started for one spool: a timer runs `run` while a check calls
  `send`. `Spool::open` takes the lock of the spool or fails at once; the lock is free again when
  the process ends, also when it is killed. Under the lock an enqueue goes statement by statement,
  and a drain as in System.lean, while the processes of other spools, the network and the server
  go on.

  * `Hosts.step` -- one step of a process, of the network or of the server;
  * `simulates` -- the processes refine the agents of System.lean, which have one process each and
    enqueue in one step;
  * `processes_of_run` -- **mutual exclusion, refinement and no loss**, over every run.
-/
import Beacon.Agent.System
import Beacon.Foundation.Simulation

namespace Beacon

open Foundation

/-! ## 1. Processes -/

/-- The commands that open the spool. `drain` checks its number of attempts before it does. -/
inductive Command where
  | send (event : Event)
  | run (limit maxAttempts : Nat) (checked : maxAttempts ≠ 0)
  | replay

/-- Where a process stands: `opening` is before the lock is tried, `opened` after it was taken. -/
inductive Process (α : Type) where
  | absent
  | opening (a : α) (command : Command)
  | opened (a : α) (command : Command)
  | writing (a : α) (event : Event) (rest : Prog Directory SpoolError Unit)
  | draining (a : α) (phase : AgentPhase)

/-- The spool a process has open. -/
def Process.spool? {α : Type} : Process α → Option α
  | .absent | .opening _ _ => none
  | .opened a _ | .writing a _ _ | .draining a _ => some a

/-- The steps of a drain after it has listed the spool. -/
inductive DrainAction where
  | request
  | receive (reply : Nat)
  | giveUp
  | remove

/-- One step of a drain: the requests on the wire after it, where the drain stands, the spool. -/
def AgentPhase.turn (requests : List Event) (replies : List (Nat × Response)) (d : Directory) :
    AgentPhase → DrainAction → Option (List Event × AgentPhase × Directory)
  | .delivering maxAttempts left event rest, .request =>
    some (requests ++ [event], .awaiting requests.length maxAttempts left event rest, d)
  | .awaiting request maxAttempts left event rest, .receive reply =>
    match replies[reply]? with
    | some (answered, response) =>
      if request = answered then
        some (requests, (match submitResult (some response) with
          | .ok () => .acknowledged maxAttempts event rest
          | .error _ => .retry maxAttempts left event rest), d)
      else none
    | none => none
  | .awaiting _ maxAttempts left event rest, .giveUp =>
    some (requests, .retry maxAttempts left event rest, d)
  | .acknowledged maxAttempts event rest, .remove =>
    match Spool.remove d event with
    | none => some (requests, .idle, d)
    | some d' => some (requests, .next maxAttempts rest, d')
  | _, _ => none

/-- A drain changes its spool only where it removes an acknowledged event. -/
theorem AgentPhase.turn_spool {requests requests' : List Event} {replies : List (Nat × Response)}
    {d d' : Directory} {phase phase' : AgentPhase} {action : DrainAction}
    (h : phase.turn requests replies d action = some (requests', phase', d')) :
    d' = d ∨ ∃ m event rest, phase = .acknowledged m event rest ∧ Spool.remove d event = some d' := by
  unfold turn at h
  split at h
  · cases h
    exact .inl rfl
  · split at h
    · split at h <;> cases h
      exact .inl rfl
    · cases h
  · cases h
    exact .inl rfl
  · rename_i m event rest
    split at h
    · cases h
      exact .inl rfl
    · rename_i d'' hd
      cases h
      exact .inr ⟨m, event, rest, rfl, hd⟩
  · cases h

/-- Spools, their locks and the processes; the wire and the server. `sent` are the events of the
    `send` commands that ended well; no step reads it. -/
structure Hosts (ι α : Type) where
  spool : α → Directory
  lock : α → Option ι
  process : ι → Process α
  requests : List Event
  replies : List (Nat × Response)
  db : Db
  sent : α → List Event

inductive ProcessAction (ι α : Type) where
  | start (p : ι) (a : α) (command : Command)
  | openSpool (p : ι)
  | begin (p : ι)
  | write (p : ι)
  | drain (p : ι) (action : DrainAction)
  | finish (p : ι)
  | kill (p : ι)
  | handle (request : Nat) (env : Handling)
  | work (op : Op)

section Machine

variable {ι α : Type} [DecidableEq ι] [DecidableEq α]

namespace Hosts

def put (h : Hosts ι α) (p : ι) (process : Process α) : Hosts ι α :=
  { h with process := Function.update h.process p process }

def setSpool (h : Hosts ι α) (a : α) (d : Directory) : Hosts ι α :=
  { h with spool := Function.update h.spool a d }

/-- The process ends, and with it the lock of its spool. -/
def exit (h : Hosts ι α) (p : ι) (a : α) : Hosts ι α :=
  { h.put p .absent with lock := Function.update h.lock a none }

/-- The next statement of an enqueue. -/
def write (h : Hosts ι α) (p : ι) (a : α) (event : Event) :
    Prog Directory SpoolError Unit → Hosts ι α
  | .pure () =>
    { h.exit p a with sent := Function.update h.sent a (h.sent a ++ [event]) }
  | .throw _ => h.exit p a
  | .query k => h.put p (.writing a event (k (h.spool a)))
  | .exec f k =>
    match f (h.spool a) with
    | none => h.exit p a
    | some d => (h.setSpool a d).put p (.writing a event k)

variable [Formats] [Codec] (store : ServerEventStore)

/-- One step. -/
def step (h : Hosts ι α) : ProcessAction ι α → Option (Hosts ι α)
  | .start p a command =>
    match h.process p with
    | .absent => some (h.put p (.opening a command))
    | _ => none
  | .openSpool p =>
    match h.process p with
    | .opening a command =>
      match h.lock a with
      | some _ => some (h.put p .absent)
      | none => some { h.put p (.opened a command) with lock := Function.update h.lock a (some p) }
    | _ => none
  | .begin p =>
    match h.process p with
    | .opened a (.send event) => some (h.put p (.writing a event (Spool.enqueue event)))
    | .opened a (.run limit maxAttempts _) =>
      match Spool.list (h.spool a) with
      | .ok events => some (h.put p (.draining a (.next maxAttempts (events.take limit))))
      | .error _ => some (h.exit p a)
    | .opened a .replay => some (h.exit p a)
    | _ => none
  | .write p =>
    match h.process p with
    | .writing a event rest => some (h.write p a event rest)
    | _ => none
  | .drain p action =>
    match h.process p with
    | .draining a phase =>
      match phase.turn h.requests h.replies (h.spool a) action with
      | some (requests, phase, d) =>
        some { (h.setSpool a d).put p (.draining a phase) with requests := requests }
      | none => none
    | _ => none
  | .finish p =>
    match h.process p with
    | .draining a .idle => some (h.exit p a)
    | _ => none
  | .kill p =>
    match (h.process p).spool? with
    | some a => some (h.exit p a)
    | none => some (h.put p .absent)
  | .handle request env =>
    match h.requests[request]? with
    | none => none
    | some event =>
      let answer := respond store env event h.db
      some { h with replies := h.replies ++ [(request, answer.1)], db := answer.2 }
  | .work op =>
    match op with
    | .accept _ => none
    | op => some { h with db := (op.perform store h.db).2 }

end Hosts

variable [Formats] [Codec]

/-- Empty spools, no process, and a server with empty tables. -/
def processes (ι α : Type) [DecidableEq ι] [DecidableEq α] (store : ServerEventStore) :
    Machine (Hosts ι α) (ProcessAction ι α) where
  init := ⟨fun _ => .empty, fun _ => none, fun _ => .absent, [], [], Db.empty, fun _ => []⟩
  step := Hosts.step store

end Machine

/-! ## 2. The relation to one process each -/

section Refinement

variable {ι α : Type}

namespace Hosts

/-- The process that has the spool open. -/
def inside (h : Hosts ι α) (a : α) : Process α :=
  match h.lock a with
  | none => .absent
  | some p => h.process p

end Hosts

variable [Formats] [Codec]

/-- What a process has done with its spool, against an agent that enqueues in one step: until the
    enqueue has ended, the agent has not begun. -/
inductive Agrees (a : α) : Process α → Directory → Directory → AgentPhase → Prop where
  | free {d : Directory} : Agrees a .absent d d .idle
  | opened {d : Directory} (command : Command) : Agrees a (.opened a command) d d .idle
  | writing {event : Event} {d d' : Directory} {n : Nat}
      {rest : Prog Directory SpoolError Unit} :
      Prog.Stage (Spool.enqueue event) d n rest d' → Agrees a (.writing a event rest) d' d .idle
  | draining {d : Directory} (phase : AgentPhase) : Agrees a (.draining a phase) d d phase

namespace Agrees

variable {a : α} {d d₀ : Directory} {phase : AgentPhase}

theorem of_absent (h : Agrees a .absent d d₀ phase) : phase = .idle ∧ d₀ = d := by
  cases h with
  | free => exact ⟨rfl, rfl⟩

theorem of_opened {command : Command} (h : Agrees a (.opened a command) d d₀ phase) :
    phase = .idle ∧ d₀ = d := by
  cases h with
  | opened => exact ⟨rfl, rfl⟩

theorem of_writing {event : Event} {rest : Prog Directory SpoolError Unit}
    (h : Agrees a (.writing a event rest) d d₀ phase) :
    phase = .idle ∧ ∃ n, Prog.Stage (Spool.enqueue event) d₀ n rest d := by
  cases h with
  | writing hstage => exact ⟨rfl, _, hstage⟩

theorem of_draining {phase' : AgentPhase} (h : Agrees a (.draining a phase') d d₀ phase) :
    phase = phase' ∧ d₀ = d := by
  cases h with
  | draining => exact ⟨rfl, rfl⟩

/-- A process and its agent have the same files, but for those an enqueue writes. -/
theorem kept {process : Process α} (h : Agrees a process d d₀ phase) {id : String} {f : File}
    (hf : d₀.get? (Spool.fileName id) = some f) : d.get? (Spool.fileName id) = some f := by
  cases h with
  | free | opened | draining => exact hf
  | @writing event _ _ n rest hstage =>
    rw [← hstage.after]
    exact Spool.kept_after event n (Spool.fileName_ne_temporaryName _ _) hf

end Agrees

/-- The processes `h` do what the agents of `s` do; a spool is open where its lock is held. -/
structure Hosts.Refines (h : Hosts ι α) (s : System α) : Prop where
  requests : s.requests = h.requests
  replies : s.replies = h.replies
  db : s.db = h.db
  sent : s.enqueued = h.sent
  lock : ∀ p a, (h.process p).spool? = some a ↔ h.lock a = some p
  agrees : ∀ a, Agrees a (h.inside a) (h.spool a) (s.spool a) (s.phase a)

namespace Hosts

variable {h h' : Hosts ι α} {s s' : System α} {p : ι} {a : α}

/-- The process that holds the lock is the one inside. -/
theorem Refines.inside_eq (hr : h.Refines s) (hp : (h.process p).spool? = some a) :
    h.inside a = h.process p := by
  unfold inside
  rw [(hr.lock p a).mp hp]

/-- The process that has a spool open, and its agent. -/
theorem Refines.agrees_of (hr : h.Refines s) (hp : (h.process p).spool? = some a) :
    Agrees a (h.process p) (h.spool a) (s.spool a) (s.phase a) := by
  rw [← hr.inside_eq hp]
  exact hr.agrees a

/-- What happens in one spool: the others stay as they are. -/
theorem refines_update (hr : h.Refines s) (a : α)
    (hwire : s'.requests = h'.requests ∧ s'.replies = h'.replies ∧ s'.db = h'.db)
    (hsent : s'.enqueued = h'.sent)
    (hlock : ∀ q b, (h'.process q).spool? = some b ↔ h'.lock b = some q)
    (hself : Agrees a (h'.inside a) (h'.spool a) (s'.spool a) (s'.phase a))
    (hother : ∀ b, b ≠ a → h'.inside b = h.inside b ∧ h'.spool b = h.spool b ∧
      s'.spool b = s.spool b ∧ s'.phase b = s.phase b) : h'.Refines s' where
  requests := hwire.1
  replies := hwire.2.1
  db := hwire.2.2
  sent := hsent
  lock := hlock
  agrees := fun b => by
    by_cases hb : b = a
    · subst hb
      exact hself
    · obtain ⟨hi, hd, hd', hph⟩ := hother b hb
      rw [hi, hd, hd', hph]
      exact hr.agrees b

variable [DecidableEq ι]

omit [Formats] [Codec] in
theorem process_put (h : Hosts ι α) (p q : ι) (process : Process α) :
    (h.put p process).process q = if q = p then process else h.process q :=
  Function.update_apply ..

/-- What a process does leaves the spools it has not open. -/
theorem Refines.inside_put (hr : h.Refines s) {b : α} (hb : (h.process p).spool? ≠ some b)
    (process : Process α) : (h.put p process).inside b = h.inside b := by
  show (match h.lock b with | none => _ | some q => (h.put p process).process q) = _
  unfold inside
  split
  · rfl
  · rename_i q hq
    rw [process_put, if_neg]
    intro e
    exact hb (e ▸ (hr.lock q b).mpr hq)

/-- A process without a spool changes to another one without a spool. -/
theorem refines_outside (hr : h.Refines s) {process : Process α}
    (hbefore : (h.process p).spool? = none) (hafter : process.spool? = none) :
    (h.put p process).Refines s := by
  have hsame : ∀ q, ((h.put p process).process q).spool? = (h.process q).spool? := by
    intro q
    rw [process_put]
    split
    · rename_i hq
      rw [hq, hbefore, hafter]
    · rfl
  refine ⟨hr.requests, hr.replies, hr.db, hr.sent, fun q b => ?_, fun b => ?_⟩
  · rw [hsame]
    exact hr.lock q b
  · rw [hr.inside_put (by rw [hbefore]; nofun)]
    exact hr.agrees b

variable [DecidableEq α]

omit [Formats] [Codec] [DecidableEq ι] in
theorem spool_setSpool (h : Hosts ι α) (a b : α) (d : Directory) :
    (h.setSpool a d).spool b = if b = a then d else h.spool b := Function.update_apply ..

omit [Formats] [Codec] [DecidableEq ι] in
theorem setSpool_self (h : Hosts ι α) (a : α) : h.setSpool a (h.spool a) = h :=
  congrArg (fun f => { h with spool := f }) (Function.update_eq_self ..)

/-- The process inside a spool goes on in it. -/
theorem refines_move (t : System α) (hr : h.Refines s) (hp : (h.process p).spool? = some a)
    (process : Process α) (hprocess : process.spool? = some a) (d : Directory)
    {requests : List Event}
    (hwire : t.requests = requests ∧ t.replies = s.replies ∧ t.db = s.db ∧
      t.enqueued = s.enqueued)
    (hself : Agrees a process d (t.spool a) (t.phase a))
    (hother : ∀ b, b ≠ a → t.spool b = s.spool b ∧ t.phase b = s.phase b) :
    Refines { (h.setSpool a d).put p process with requests := requests } t := by
  have hlock := (hr.lock p a).mp hp
  refine refines_update hr a ⟨hwire.1, hwire.2.1.trans hr.replies, hwire.2.2.1.trans hr.db⟩
    (hwire.2.2.2.trans hr.sent) (fun q b => ?_) ?_ fun b hb => ⟨?_, ?_, hother b hb⟩
  · show ((h.put p process).process q).spool? = some b ↔ h.lock b = some q
    rw [process_put]
    split
    · rename_i hq
      rw [hq, hprocess, ← hp]
      exact hr.lock p b
    · exact hr.lock q b
  · show Agrees a (match h.lock a with | none => _ | some q => (h.put p process).process q)
      ((h.setSpool a d).spool a) _ _
    rw [hlock, spool_setSpool, if_pos rfl]
    show Agrees a ((h.put p process).process p) d _ _
    rw [process_put, if_pos rfl]
    exact hself
  · exact hr.inside_put (by rw [hp]; exact fun e => hb (Option.some.inj e).symm) process
  · show (h.setSpool a d).spool b = _
    rw [spool_setSpool, if_neg hb]

/-- The process inside a spool ends. -/
theorem refines_exit (hr : h.Refines s) (hp : (h.process p).spool? = some a)
    {sent : α → List Event}
    (hwire : s'.requests = s.requests ∧ s'.replies = s.replies ∧ s'.db = s.db ∧ s'.enqueued = sent)
    (hself : s'.phase a = .idle ∧ s'.spool a = h.spool a)
    (hother : ∀ b, b ≠ a → s'.spool b = s.spool b ∧ s'.phase b = s.phase b) :
    Refines { h.exit p a with sent := sent } s' := by
  have hlock := (hr.lock p a).mp hp
  refine refines_update hr a ⟨hwire.1.trans hr.requests, hwire.2.1.trans hr.replies,
    hwire.2.2.1.trans hr.db⟩ hwire.2.2.2 (fun q b => ?_) ?_ fun b hb => ⟨?_, rfl, hother b hb⟩
  · show ((h.put p .absent).process q).spool? = some b ↔
      Function.update h.lock a none b = some q
    rw [process_put, Function.update_apply]
    by_cases hq : q = p
    · subst hq
      rw [if_pos rfl]
      split
      · exact ⟨nofun, nofun⟩
      · rename_i hb
        refine ⟨nofun, fun hl => ?_⟩
        have hqb := (hr.lock q b).mpr hl
        rw [hp] at hqb
        exact absurd (Option.some.inj hqb).symm hb
    · rw [if_neg hq, hr.lock q b]
      split
      · rename_i hb
        rw [hb, hlock]
        exact ⟨fun e => absurd (Option.some.inj e).symm hq, nofun⟩
      · rfl
  · show Agrees a (match Function.update h.lock a none a with
      | none => _ | some q => (h.put p .absent).process q) (h.spool a) _ _
    rw [Function.update_self, hself.1, hself.2]
    exact .free
  · show (match Function.update h.lock a none b with
      | none => _ | some q => (h.put p .absent).process q) = _
    rw [Function.update_of_ne hb]
    exact hr.inside_put (by rw [hp]; exact fun e => hb (Option.some.inj e).symm) .absent

end Hosts

/-! ## 3. The steps -/

/-- The step of the agent that a step of a drain is. -/
def DrainAction.of (a : α) : DrainAction → SystemAction α
  | .request => .request a
  | .receive reply => .receive a reply
  | .giveUp => .giveUp a
  | .remove => .remove a

variable {store : ServerEventStore} [DecidableEq α] {s : System α} {a : α}

/-- **A step of a drain is one of its agent.** -/
theorem System.step_turn {action : DrainAction} {requests : List Event} {phase : AgentPhase}
    {d : Directory}
    (h : (s.phase a).turn s.requests s.replies (s.spool a) action = some (requests, phase, d)) :
    (system α store).step s (action.of a) =
      some (({ s with requests := requests }.setSpool a d).goto a phase) := by
  have hself : ∀ rs, ({ s with requests := rs } : System α).setSpool a (s.spool a) =
      { s with requests := rs } := fun rs => System.setSpool_self { s with requests := rs } a
  unfold AgentPhase.turn at h
  split at h
  · rename_i m left event rest hp
    cases h
    simp only [system, DrainAction.of, step, hp, hself]
  · rename_i request m left event rest reply hp
    split at h
    · rename_i answered response hreply
      split at h
      · rename_i heq
        cases h
        cases hresult : submitResult (some response) <;>
          simp only [system, DrainAction.of, step, hp, hreply, if_pos heq, hself, hresult]
      · cases h
    · cases h
  · rename_i request m left event rest hp
    cases h
    simp only [system, DrainAction.of, step, hp, hself]
  · rename_i m event rest hp
    split at h
    · rename_i hd
      cases h
      simp only [system, DrainAction.of, step, hp, hd, hself]
    · rename_i d' hd
      cases h
      simp only [system, DrainAction.of, step, hp, hd]
  · cases h

variable [DecidableEq ι]

namespace Hosts

variable {h h' : Hosts ι α} {p : ι}

/-- An enqueue that is refused leaves the spool as the agent has it. -/
theorem refines_refused (hr : h.Refines s) (hp : (h.process p).spool? = some a) {event : Event}
    {n : Nat} {rest : Prog Directory SpoolError Unit} {fault : Fault SpoolError}
    (hidle : s.phase a = .idle)
    (hstage : Prog.Stage (Spool.enqueue event) (s.spool a) n rest (h.spool a))
    (hrun : (Spool.enqueue event).run (s.spool a) = .error fault) : (h.exit p a).Refines s :=
  refines_exit hr hp ⟨rfl, rfl, rfl, hr.sent⟩
    ⟨hidle, ((Spool.refused_enqueue hrun).2 n).symm.trans hstage.after⟩ fun _ _ => ⟨rfl, rfl⟩

/-- **A statement of an enqueue** changes nothing for the agent, or is its end. -/
theorem refines_write (hr : h.Refines s) {event : Event} {rest : Prog Directory SpoolError Unit}
    (hp : h.process p = .writing a event rest) :
    ∃ actions, (h.write p a event rest).Refines ((system α store).runFrom s actions) := by
  have hspool : (h.process p).spool? = some a := by rw [hp]; rfl
  have hagrees := hr.agrees_of hspool
  rw [hp] at hagrees
  obtain ⟨hidle, n, hstage⟩ := hagrees.of_writing
  cases rest with
  | pure u =>
    -- the whole enqueue happens now
    have hstep : (system α store).step s (.enqueue a event) =
        some { s.setSpool a (h.spool a) with
          enqueued := Function.update s.enqueued a (s.enqueued a ++ [event]) } := by
      simp only [system, System.step, hidle, hstage.run, Prog.run]
    refine ⟨[.enqueue a event], ?_⟩
    rw [Machine.runFrom_cons, Machine.act_of_step hstep, Machine.runFrom_nil]
    refine refines_exit hr hspool ⟨rfl, rfl, rfl, by rw [hr.sent]⟩ ⟨hidle, ?_⟩ fun b hb => ⟨?_, rfl⟩
    · exact Function.update_self ..
    · exact Function.update_of_ne hb ..
  | throw e => exact ⟨[], refines_refused hr hspool hidle hstage hstage.run⟩
  | query k =>
    refine ⟨[], ?_⟩
    have hmove := refines_move s hr hspool (.writing a event (k (h.spool a))) rfl (h.spool a)
      ⟨hr.requests, rfl, rfl, rfl⟩ (by rw [hidle]; exact .writing hstage.query) fun b _ => ⟨rfl, rfl⟩
    rwa [setSpool_self] at hmove
  | exec f k =>
    refine ⟨[], ?_⟩
    cases hf : f (h.spool a) with
    | none =>
      have hend : h.write p a event (.exec f k) = h.exit p a := by simp only [Hosts.write, hf]
      rw [hend]
      have hrun : (Spool.enqueue event).run (s.spool a) = .error .refused := by
        rw [hstage.run]
        simp only [Prog.run, hf]
      exact refines_refused hr hspool hidle hstage hrun
    | some d =>
      have hnext : h.write p a event (.exec f k) =
          (h.setSpool a d).put p (.writing a event k) := by
        simp only [Hosts.write, hf]
      rw [hnext]
      exact refines_move s hr hspool (.writing a event k) rfl d ⟨hr.requests, rfl, rfl, rfl⟩
        (by rw [hidle]; exact .writing (hstage.exec hf)) fun b _ => ⟨rfl, rfl⟩

/-- **A process that is killed** is an agent whose enqueue is cut off, or whose drain is. -/
theorem refines_kill (hr : h.Refines s) (hp : (h.process p).spool? = some a) :
    ∃ actions, (h.exit p a).Refines ((system α store).runFrom s actions) := by
  have hagrees := hr.agrees_of hp
  generalize hprocess : h.process p = process at hagrees hp
  generalize hd : h.spool a = d at hagrees
  generalize hd₀ : s.spool a = d₀ at hagrees
  generalize hph : s.phase a = phase at hagrees
  have hp' : (h.process p).spool? = some a := hprocess ▸ hp
  cases hagrees with
  | free => cases hp
  | opened command =>
    exact ⟨[], refines_exit hr hp' ⟨rfl, rfl, rfl, hr.sent⟩ ⟨hph, hd₀.trans hd.symm⟩
      fun b _ => ⟨rfl, rfl⟩⟩
  | @writing event _ _ n rest hstage =>
    have hstep : (system α store).step s (.cutEnqueue a event n) = some (s.setSpool a d) := by
      simp only [system, System.step, hph, hd₀, hstage.after]
    refine ⟨[.cutEnqueue a event n], ?_⟩
    rw [Machine.runFrom_cons, Machine.act_of_step hstep, Machine.runFrom_nil]
    refine refines_exit hr hp' ⟨rfl, rfl, rfl, hr.sent⟩ ⟨hph, ?_⟩ fun b hb => ⟨?_, rfl⟩
    · exact (Function.update_self ..).trans hd.symm
    · exact Function.update_of_ne hb ..
  | draining phase =>
    refine ⟨[.crash a], ?_⟩
    refine refines_exit hr hp' ⟨rfl, rfl, rfl, hr.sent⟩ ⟨?_, hd₀.trans hd.symm⟩ fun b hb => ⟨rfl, ?_⟩
    · exact Function.update_self ..
    · exact Function.update_of_ne hb ..

/-- The lock is taken where it is free. -/
theorem refines_openSpool (hr : h.Refines s) {command : Command}
    (hp : h.process p = .opening a command) (hfree : h.lock a = none) :
    Refines { h.put p (.opened a command) with lock := Function.update h.lock a (some p) } s := by
  have hnone : (h.process p).spool? = none := by rw [hp]; rfl
  have hin : h.inside a = .absent := by
    unfold inside
    rw [hfree]
  refine refines_update hr a ⟨hr.requests, hr.replies, hr.db⟩ hr.sent (fun q b => ?_) ?_
    fun b hb => ⟨?_, rfl, rfl, rfl⟩
  · show ((h.put p (.opened a command)).process q).spool? = some b ↔
      Function.update h.lock a (some p) b = some q
    rw [process_put, Function.update_apply]
    by_cases hq : q = p
    · subst hq
      rw [if_pos rfl]
      split
      · rename_i hb
        rw [hb]
        exact ⟨fun _ => rfl, fun _ => rfl⟩
      · rename_i hb
        refine ⟨fun e => absurd (Option.some.inj e).symm hb, fun hl => ?_⟩
        have hqb := (hr.lock q b).mpr hl
        rw [hnone] at hqb
        cases hqb
    · rw [if_neg hq, hr.lock q b]
      split
      · rename_i hb
        rw [hb, hfree]
        exact ⟨nofun, fun e => absurd (Option.some.inj e).symm hq⟩
      · rfl
  · show Agrees a (match Function.update h.lock a (some p) a with
      | none => _ | some q => (h.put p (.opened a command)).process q) (h.spool a) _ _
    rw [Function.update_self]
    show Agrees a ((h.put p (.opened a command)).process p) (h.spool a) _ _
    rw [process_put, if_pos rfl]
    have hagrees := hr.agrees a
    rw [hin] at hagrees
    rw [hagrees.of_absent.1, hagrees.of_absent.2]
    exact .opened command
  · show (match Function.update h.lock a (some p) b with
      | none => _ | some q => (h.put p (.opened a command)).process q) = _
    rw [Function.update_of_ne hb]
    exact hr.inside_put (by rw [hnone]; nofun) _

/-- A command begins: an enqueue is still to come, a drain lists the spool. -/
theorem refines_begin (hr : h.Refines s) {command : Command} (hp : h.process p = .opened a command)
    (hs : h.step store (.begin p) = some h') :
    ∃ actions, h'.Refines ((system α store).runFrom s actions) := by
  have hspool : (h.process p).spool? = some a := by rw [hp]; rfl
  have hagrees := hr.agrees_of hspool
  rw [hp] at hagrees
  obtain ⟨hidle, hsame⟩ := hagrees.of_opened
  have hended : (h.exit p a).Refines s :=
    refines_exit hr hspool ⟨rfl, rfl, rfl, hr.sent⟩ ⟨hidle, hsame⟩ fun _ _ => ⟨rfl, rfl⟩
  cases command with
  | send event =>
    simp only [step, hp] at hs
    cases hs
    have hmove := refines_move s hr hspool (.writing a event (Spool.enqueue event)) rfl (h.spool a)
      ⟨hr.requests, rfl, rfl, rfl⟩ (by rw [hidle, hsame]; exact .writing .start)
      fun b _ => ⟨rfl, rfl⟩
    rw [setSpool_self] at hmove
    exact ⟨[], hmove⟩
  | run limit maxAttempts checked =>
    cases hl : Spool.list (h.spool a) with
    | error e =>
      simp only [step, hp, hl] at hs
      cases hs
      exact ⟨[], hended⟩
    | ok events =>
      simp only [step, hp, hl] at hs
      cases hs
      obtain ⟨m, rfl⟩ : ∃ m, maxAttempts = m + 1 := Nat.exists_eq_succ_of_ne_zero checked
      have hstep : (system α store).step s (.drain a limit (m + 1)) =
          some (s.goto a (.next (m + 1) (events.take limit))) := by
        simp only [system, System.step, hidle, hsame, hl]
      refine ⟨[.drain a limit (m + 1)], ?_⟩
      rw [Machine.runFrom_cons, Machine.act_of_step hstep, Machine.runFrom_nil]
      have hmove := refines_move (s.goto a (.next (m + 1) (events.take limit))) hr hspool
        (.draining a (.next (m + 1) (events.take limit))) rfl (h.spool a)
        ⟨hr.requests, rfl, rfl, rfl⟩ ?_ fun b hb => ⟨rfl, Function.update_of_ne hb ..⟩
      · rwa [setSpool_self] at hmove
      · rw [System.phase_goto_self]
        show Agrees a _ _ (s.spool a) _
        rw [hsame]
        exact .draining _
  | replay =>
    simp only [step, hp] at hs
    cases hs
    exact ⟨[], hended⟩

/-- A step of a drain. -/
theorem refines_drain (hr : h.Refines s) {phase : AgentPhase} {action : DrainAction}
    (hp : h.process p = .draining a phase) {requests : List Event} {phase' : AgentPhase}
    {d : Directory}
    (hturn : phase.turn h.requests h.replies (h.spool a) action = some (requests, phase', d)) :
    Refines { (h.setSpool a d).put p (.draining a phase') with requests := requests }
      ((system α store).runFrom s [action.of a]) := by
  have hspool : (h.process p).spool? = some a := by rw [hp]; rfl
  have hagrees := hr.agrees_of hspool
  rw [hp] at hagrees
  have hstep : (system α store).step s (action.of a) =
      some (({ s with requests := requests }.setSpool a d).goto a phase') := by
    refine System.step_turn ?_
    rw [hr.requests, hr.replies, hagrees.of_draining.1, hagrees.of_draining.2]
    exact hturn
  rw [Machine.runFrom_cons, Machine.act_of_step hstep, Machine.runFrom_nil]
  refine refines_move _ hr hspool _ rfl d ⟨rfl, rfl, rfl, rfl⟩ ?_
    fun b hb => ⟨Function.update_of_ne hb .., Function.update_of_ne hb ..⟩
  rw [System.phase_goto_self]
  show Agrees a _ d (Function.update s.spool a d a) _
  rw [Function.update_self]
  exact .draining phase'

/-- **Every step of the processes is matched** by steps of the agents. -/
theorem refines_step (hr : h.Refines s) {action : ProcessAction ι α}
    (hs : (processes ι α store).step h action = some h') :
    ∃ actions, h'.Refines ((system α store).runFrom s actions) := by
  change h.step store action = some h' at hs
  cases action with
  | start p a command =>
    simp only [step] at hs
    split at hs
    · rename_i hp
      cases hs
      exact ⟨[], refines_outside hr (by rw [hp]; rfl) rfl⟩
    · cases hs
  | openSpool p =>
    simp only [step] at hs
    split at hs
    · rename_i a command hp
      split at hs
      · cases hs
        exact ⟨[], refines_outside hr (by rw [hp]; rfl) rfl⟩
      · rename_i hfree
        cases hs
        exact ⟨[], refines_openSpool hr hp hfree⟩
    · cases hs
  | begin p =>
    cases hp : h.process p with
    | opened a command => exact refines_begin hr hp hs
    | absent | opening a command | writing a event rest | draining a phase =>
      simp only [step, hp] at hs
      cases hs
  | write p =>
    simp only [step] at hs
    split at hs
    · rename_i a event rest hp
      cases hs
      exact refines_write hr hp
    · cases hs
  | drain p action =>
    simp only [step] at hs
    split at hs
    · rename_i a phase hp
      split at hs
      · rename_i requests phase' d hturn
        cases hs
        exact ⟨_, refines_drain hr hp hturn⟩
      · cases hs
    · cases hs
  | finish p =>
    simp only [step] at hs
    split at hs
    · rename_i a hp
      cases hs
      exact refines_kill hr (by rw [hp]; rfl)
    · cases hs
  | kill p =>
    simp only [step] at hs
    split at hs
    · rename_i a hp
      cases hs
      exact refines_kill hr hp
    · rename_i hp
      cases hs
      exact ⟨[], refines_outside hr hp rfl⟩
  | handle request env =>
    simp only [step] at hs
    split at hs
    · cases hs
    · rename_i event hn
      cases hs
      refine ⟨[.handle request env], ?_⟩
      have hstep : (system α store).step s (.handle request env) =
          some { s with
            replies := s.replies ++ [(request, (respond store env event s.db).1)]
            db := (respond store env event s.db).2 } := by
        simp only [system, System.step, hr.requests, hn]
      rw [Machine.runFrom_cons, Machine.act_of_step hstep, Machine.runFrom_nil]
      exact { hr with
        replies := by rw [hr.replies, hr.db]
        db := by rw [hr.db] }
  | work op =>
    simp only [step] at hs
    split at hs
    · cases hs
    · rename_i hop
      cases hs
      refine ⟨[.work op], ?_⟩
      have hstep : (system α store).step s (.work op) =
          some { s with db := (op.perform store s.db).2 } := by
        simp only [system, System.step]
      rw [Machine.runFrom_cons, Machine.act_of_step hstep, Machine.runFrom_nil]
      exact { hr with db := by rw [hr.db] }

theorem refines_init : (processes ι α store).init.Refines (system α store).init where
  requests := rfl
  replies := rfl
  db := rfl
  sent := rfl
  lock := fun _ _ => ⟨nofun, nofun⟩
  agrees := fun _ => .free

/-- **The processes refine the agents**, which have one process each. -/
theorem simulates : Simulates (processes ι α store) (system α store) Refines where
  init := refines_init
  step := fun _ _ _ _ hr hs => refines_step hr hs

/-! ## 4. Files -/

omit [Formats] [DecidableEq ι] [DecidableEq α] in
/-- The file of the event is in the spool. -/
def Queued (h : Hosts ι α) (a : α) (event : Event) : Prop :=
  (h.spool a).get? (Spool.fileName event.eventId) =
    some ⟨Spool.fileName event.eventId, Spool.fileText event⟩

/-- **A file leaves its spool only when the server has committed what it holds.** -/
theorem queued_step (hr : h.Refines s) (hsound : s.Sound store) {action : ProcessAction ι α}
    (hs : (processes ι α store).step h action = some h') {e : Event} (hin : h.Queued a e) :
    h'.Queued a e ∨ Committed h.db e := by
  have hput : ∀ (b : α) (d : Directory) (p : ι) (process : Process α),
      (b = a → d.get? (Spool.fileName e.eventId) =
        some ⟨Spool.fileName e.eventId, Spool.fileText e⟩) →
      ((h.setSpool b d).put p process).Queued a e := by
    intro b d p process hd
    show ((h.setSpool b d).spool a).get? _ = _
    rw [spool_setSpool]
    split
    · rename_i hb
      exact hd hb.symm
    · exact hin
  change h.step store action = some h' at hs
  cases action with
  | start p b command =>
    simp only [step] at hs
    split at hs <;> cases hs
    exact .inl hin
  | openSpool p =>
    simp only [step] at hs
    split at hs
    · split at hs <;> cases hs <;> exact .inl hin
    · cases hs
  | begin p =>
    simp only [step] at hs
    split at hs
    · cases hs
      exact .inl hin
    · split at hs <;> cases hs <;> exact .inl hin
    · cases hs
      exact .inl hin
    · cases hs
  | write p =>
    simp only [step] at hs
    split at hs
    · rename_i b event rest hp
      cases hs
      cases rest with
      | pure u => exact .inl hin
      | throw e => exact .inl hin
      | query k => exact .inl hin
      | exec f k =>
        cases hf : f (h.spool b) with
        | none =>
          have hend : h.write p b event (.exec f k) = h.exit p b := by simp only [Hosts.write, hf]
          rw [hend]
          exact .inl hin
        | some d =>
          have hnext : h.write p b event (.exec f k) =
              (h.setSpool b d).put p (.writing b event k) := by
            simp only [Hosts.write, hf]
          rw [hnext]
          refine .inl (hput b d p _ fun hb => ?_)
          subst hb
          have hagrees := hr.agrees_of (by rw [hp]; rfl)
          rw [hp] at hagrees
          obtain ⟨_, n, hstage⟩ := hagrees.of_writing
          -- what is there before the last statement was there from the start
          have htemp := Spool.fileName_ne_temporaryName e.eventId event.eventId
          unfold Queued at hin
          rw [← hstage.after, Spool.unfinished_enqueue hstage.unfinished htemp] at hin
          rw [← (hstage.exec hf).after]
          exact Spool.kept_after event (n + 1) htemp hin
    · cases hs
  | drain p action =>
    simp only [step] at hs
    split at hs
    · rename_i b phase hp
      split at hs
      · rename_i requests phase' d hturn
        cases hs
        rcases AgentPhase.turn_spool hturn with hsame | ⟨m, event, rest, rfl, hd⟩
        · exact .inl (hput b d p (.draining b phase') fun hb => by rw [hsame, hb]; exact hin)
        · by_cases hname : Spool.fileName e.eventId = Spool.fileName event.eventId
          · by_cases hb : b = a
            · subst hb
              have hagrees := hr.agrees_of (by rw [hp]; rfl)
              rw [hp] at hagrees
              obtain ⟨hphase, hsame⟩ := hagrees.of_draining
              rw [← hr.db]
              refine .inr (System.committed_of_acknowledged hsound hphase ?_ hname)
              unfold System.InSpool
              rw [hsame]
              exact hin
            · exact .inl (hput b d p (.draining b phase') fun e => absurd e hb)
          · refine .inl (hput b d p (.draining b phase') fun hb => ?_)
            rw [Directory.get?_unlink hd, if_neg hname, hb]
            exact hin
      · cases hs
    · cases hs
  | finish p =>
    simp only [step] at hs
    split at hs <;> cases hs
    exact .inl hin
  | kill p =>
    simp only [step] at hs
    split at hs <;> cases hs <;> exact .inl hin
  | handle request env =>
    simp only [step] at hs
    split at hs
    · cases hs
    · cases hs
      exact .inl hin
  | work op =>
    simp only [step] at hs
    split at hs
    · cases hs
    · cases hs
      exact .inl hin

end Hosts

end Refinement

/-! ## 5. Safety -/

/-- **Any number of processes may share a spool.** In every state that processes of
    `beacon-agent`, killed or not, a server and a network reach by any run: at most one process has
    a spool open; agents with one process each reach the same server, the same wire and the same
    spools where none is open; an event whose `send` ended well is in its spool or committed; and
    a step after which a file is not in its spool any more is taken when the server has committed
    what it holds. -/
theorem processes_of_run [Formats] [Codec] {ι α : Type} [DecidableEq ι] [DecidableEq α]
    (store : ServerEventStore) (actions : List (ProcessAction ι α)) :
    let h := (processes ι α store).run actions
    (∀ p q a, (h.process p).spool? = some a → (h.process q).spool? = some a → p = q) ∧
    (∃ steps, let s := (system α store).run steps
      s.db = h.db ∧ s.requests = h.requests ∧ s.replies = h.replies ∧ s.enqueued = h.sent ∧
      ∀ a, (∀ p, (h.process p).spool? ≠ some a) → s.spool a = h.spool a ∧ s.phase a = .idle) ∧
    (∀ a, ∀ e ∈ h.sent a, h.Queued a e ∨ Committed h.db e) ∧
    ∀ action a e, h.Queued a e → ¬ ((processes ι α store).act h action).Queued a e →
      Committed h.db e := by
  intro h
  obtain ⟨steps, hr⟩ : ∃ steps, h.Refines ((system α store).run steps) := Hosts.simulates.run actions
  have hsound := System.sound_run store steps
  refine ⟨fun p q a hp hq => ?_, ⟨steps, hr.db, hr.requests, hr.replies, hr.sent, fun a hnone => ?_⟩,
    fun a e he => ?_, fun action a e hin hout => ?_⟩
  · have hlock := (hr.lock p a).mp hp
    rw [(hr.lock q a).mp hq] at hlock
    exact (Option.some.inj hlock).symm
  · have hagrees := hr.agrees a
    have hin : h.inside a = .absent := by
      unfold Hosts.inside
      split
      · rfl
      · rename_i q hq
        exact absurd ((hr.lock q a).mpr hq) (hnone q)
    rw [hin] at hagrees
    exact ⟨hagrees.of_absent.2, hagrees.of_absent.1⟩
  · rw [← hr.sent] at he
    rw [← hr.db]
    exact (hsound.kept a e he).imp (hr.agrees a).kept id
  · cases hstep : (processes ι α store).step h action with
    | none => exact absurd (by rw [Machine.act_of_none hstep]; exact hin) hout
    | some h' =>
      rw [Machine.act_of_step hstep] at hout
      exact (Hosts.queued_step hr hsound hstep hin).resolve_left hout

end Beacon
