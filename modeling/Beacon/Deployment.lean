/-
  File:      Beacon/Deployment.lean
  Subject:   Agents, and the servers that follow one another on one data directory.

  System.lean has agents and one server that is always there, with one configuration; Restarts.lean
  has servers that are started, configured anew and killed, and requests from anywhere. A deployment
  is both: a request on the wire is handled by the server that listens when it is looked at, or
  never, and its worker delivers what its configuration routes.

  * `mirrors_system` -- **agents cannot tell**: but for its queue, a deployment is a run of agents
    and one server that is never restarted, whatever its configuration;
  * `mirrors_servers` -- to the servers the agents are requests;
  * `Deployment.Traced` -- what the servers took comes from what was offered to a spool;
  * `deployment_of_run`, `notices_of_deployment` -- **from a spool to a channel and back**, over
    every run.
-/
import Beacon.Agent.Origins
import Beacon.Delivery.Restarts
import Beacon.Foundation.Simulation

namespace Beacon

open Foundation

/-! ## 1. The machine -/

structure Deployment (α ι : Type) where
  spool : α → Directory
  phase : α → AgentPhase
  requests : List Event
  replies : List (Nat × Response)
  enqueued : α → List Event
  servers : Servers ι

inductive DeploymentAction (α ι : Type) where
  | agent (action : SystemAction α)
  | server (action : ServerAction ι)
  | handle (p : ι) (request : Nat) (env : Handling)

/-- `open`: a store with the default policy and templates. -/
def ServerEventStore.opened : ServerEventStore :=
  ⟨{}, {}, PolicyCatalog.validate_default, MessageTemplates.validate_default⟩

/-- The servers after a request that process `p` gets; what it cannot decode changes nothing. -/
def Servers.handled {ι : Type} [DecidableEq ι] [Formats] [Codec] (w : Servers ι) (p : ι)
    (env : Handling) (event : Event) : Servers ι :=
  match Codec.postJson event with
  | none => w
  | some received => (servers ι).act w (.request p env received)

namespace Deployment

variable {α ι : Type}

/-- What an agent sees: the tables are those of the server. -/
def system (d : Deployment α ι) : System α :=
  ⟨d.spool, d.phase, d.requests, d.replies, d.servers.db, d.enqueued⟩

/-- The agents and the wire as in `s`. -/
def setAgents (d : Deployment α ι) (s : System α) : Deployment α ι :=
  ⟨s.spool, s.phase, s.requests, s.replies, s.enqueued, d.servers⟩

variable [DecidableEq α] [DecidableEq ι] [Formats] [Codec]

/-- One step of an agent, of a server, or a request that a server handles. -/
def step (d : Deployment α ι) : DeploymentAction α ι → Option (Deployment α ι)
  | .agent action =>
    match action.agent? with
    | none => none
    -- no step of an agent reads the store
    | some _ => (d.system.step .opened action).map d.setAgents
  | .server action =>
    match action with
    | .request _ _ _ => none
    | action => (d.servers.step action).map fun servers => { d with servers := servers }
  | .handle p request env =>
    match d.requests[request]?, d.servers.process p with
    | some event, some x =>
      if x.stage = .listening then
        some { d with
          replies := d.replies ++ [(request, (respond x.store env event d.servers.db).1)]
          servers := d.servers.handled p env event }
      else none
    | _, _ => none

end Deployment

variable {α ι : Type} [DecidableEq α] [DecidableEq ι] [Formats] [Codec]

/-- Agents with empty spools, and no server yet. -/
def deployment (α ι : Type) [DecidableEq α] [DecidableEq ι] :
    Machine (Deployment α ι) (DeploymentAction α ι) where
  init := ⟨fun _ => .empty, fun _ => .idle, [], [], fun _ => [], (servers ι).init⟩
  step := Deployment.step

/-! ## 2. What the agents see -/

omit [DecidableEq ι] in
/-- **A step of an agent neither reads the tables nor the store.** -/
theorem System.step_agent {action : SystemAction α} (ha : action.agent?.isSome) (s : System α)
    (db : Db) (store store' : ServerEventStore) :
    ({ s with db := db } : System α).step store' action =
      (s.step store action).map fun t => { t with db := db } := by
  cases action with
  | handle request env => cases ha
  | work op => cases ha
  | crash a => rfl
  | enqueue a event =>
    simp only [step, setSpool]
    generalize s.phase a = phase
    generalize (Spool.enqueue event).run (s.spool a) = made
    cases phase <;> cases made <;> rfl
  | cutEnqueue a event writes =>
    simp only [step, setSpool]
    generalize s.phase a = phase
    cases phase <;> rfl
  | drain a limit maxAttempts =>
    simp only [step, goto]
    generalize s.phase a = phase
    generalize Spool.list (s.spool a) = listed
    cases phase <;> cases maxAttempts <;> cases listed <;> rfl
  | request a =>
    simp only [step, goto]
    generalize s.phase a = phase
    cases phase <;> rfl
  | receive a reply =>
    simp only [step, goto]
    generalize s.phase a = phase
    generalize s.replies[reply]? = answer
    cases phase with
    | awaiting request maxAttempts left event rest =>
      cases answer with
      | none => rfl
      | some reply =>
        dsimp only
        split <;> rfl
    | _ => rfl
  | giveUp a =>
    simp only [step, goto]
    generalize s.phase a = phase
    cases phase <;> rfl
  | remove a =>
    simp only [step, goto, setSpool]
    generalize s.phase a = phase
    cases phase with
    | acknowledged maxAttempts event rest =>
      dsimp only
      generalize Spool.remove (s.spool a) event = removed
      cases removed <;> rfl
    | _ => rfl

omit [DecidableEq α] [DecidableEq ι] [Formats] [Codec] in
theorem map_accepted {r r' : Except (Fault StoreError) EventResult}
    (h : r.map Answer.accepted = r'.map Answer.accepted) : r = r' := by
  cases r <;> cases r' <;> cases h <;> rfl

omit [DecidableEq α] [DecidableEq ι] [Codec] in
/-- **The answer to a request** is the same on tables that agree, whatever the two servers. -/
theorem acceptEvent_agree {db db' : Db} (h : db.Agree db') (store store' : ServerEventStore)
    (env : Handling) (event : Event) :
    (acceptEvent store env event db).1 = (acceptEvent store' env event db').1 ∧
      (acceptEvent store env event db).2.Agree (acceptEvent store' env event db').2 := by
  obtain ⟨hanswer, hagree⟩ := agree_accept store store' h (env.call event)
  rw [perform_accept, perform_accept] at hanswer hagree
  unfold acceptEvent
  cases env.authorized with
  | false => exact ⟨rfl, h⟩
  | true =>
    cases event.validate with
    | error message => exact ⟨rfl, h⟩
    | ok u =>
      cases env.fault with
      | some text => exact ⟨rfl, h⟩
      | none =>
        revert hanswer hagree
        generalize Transaction.transact (store.accept (env.call event)) db = o
        generalize Transaction.transact (store'.accept (env.call event)) db' = o'
        obtain ⟨r, after⟩ := o
        obtain ⟨r', after'⟩ := o'
        intro hanswer hagree
        have hr : r = r' := map_accepted hanswer
        subst hr
        cases r with
        | ok result => exact ⟨rfl, hagree⟩
        | error fault =>
          cases fault with
          | refused => exact ⟨rfl, hagree⟩
          | raised error => cases error <;> exact ⟨rfl, hagree⟩

omit [DecidableEq α] [DecidableEq ι] in
theorem respond_agree {db db' : Db} (h : db.Agree db') (store store' : ServerEventStore)
    (env : Handling) (event : Event) :
    (respond store env event db).1 = (respond store' env event db').1 ∧
      (respond store env event db).2.Agree (respond store' env event db').2 := by
  unfold respond
  cases Codec.postJson event with
  | none => exact ⟨rfl, h⟩
  | some received => exact acceptEvent_agree h store store' env received

namespace Deployment

omit [DecidableEq α] [DecidableEq ι] [Formats] [Codec] in
/-- The agents and the wire are as in `s`, and so are the events and the alerts. -/
structure Seen (d : Deployment α ι) (s : System α) : Prop where
  agents : d.system = { s with db := d.servers.db }
  tables : d.servers.db.Agree s.db

/-- What an agent's run makes of an action of the deployment. -/
inductive AsSystem : DeploymentAction α ι → SystemAction α → Prop where
  | agent (action : SystemAction α) : AsSystem (.agent action) action
  | handle (p : ι) (request : Nat) (env : Handling) :
    AsSystem (.handle p request env) (.handle request env)

omit [Formats] [Codec] in
/-- A dispatcher records answers; it accepts nothing. -/
theorem outcome_ne_accept (dispatcher : NotificationDispatcher) (now : DateTime)
    (job : NotificationJob) (answer : Option SendResult) (call : AcceptCall) :
    dispatcher.outcome now job answer ≠ .accept call := by
  rcases answer with _ | _ | _ <;> nofun

omit [Codec] in
/-- A step of a server that handles no request: a call of its worker, or none. -/
theorem work_server {w w' : Servers ι} {action : ServerAction ι}
    (ha : ∀ p env event, action ≠ .request p env event) (hd : Servers.Did w action w') :
    (w'.log = w.log ∧ w'.db = w.db) ∨ ∃ store op, (∀ call, op ≠ .accept call) ∧
      w'.log = w.log ++ [(store, op)] ∧ w'.db = (op.perform store w.db).2 := by
  cases hd with
  | accept _ _ => exact absurd rfl (ha _ _ _)
  | reject => exact absurd rfl (ha _ _ _)
  | nothing | claim => exact .inr ⟨_, _, fun _ e => Op.noConfusion e, rfl, rfl⟩
  | report | die => exact .inr ⟨_, _, outcome_ne_accept _ _ _ _, rfl, rfl⟩
  | _ => exact .inl ⟨rfl, rfl⟩

omit [Codec] in
/-- It leaves events and alerts alone. -/
theorem agree_server {w w' : Servers ι} {action : ServerAction ι}
    (ha : ∀ p env event, action ≠ .request p env event) (hd : Servers.Did w action w') :
    w'.db.Agree w.db := by
  rcases work_server ha hd with ⟨_, hdb⟩ | ⟨store, op, hop, _, hdb⟩ <;> rw [hdb]
  · exact ⟨rfl, rfl⟩
  · exact agree_other store hop

omit [DecidableEq α] [Codec] in
/-- A server that listens takes a request. -/
theorem request_step {w : Servers ι} {p : ι} {x : ServerProcess} (hp : w.process p = some x)
    (hx : x.stage = .listening) (env : Handling) (received : Event) :
    (Beacon.servers ι).step w (.request p env received) = some { w with
      db := (acceptEvent x.store env received w.db).2
      log := w.log ++ if (acceptEvent x.store env received w.db).1.isSuccess then
        [(x.store, Op.accept (env.call received))] else [] } := by
  change Servers.step w (.request p env received) = _
  simp only [Servers.step, hp, hx, if_true]

omit [DecidableEq α] in
/-- It handles a request on the wire as `respond` says. -/
theorem db_handled {w : Servers ι} {p : ι} {x : ServerProcess} (hp : w.process p = some x)
    (hx : x.stage = .listening) (env : Handling) (event : Event) :
    (w.handled p env event).db = (respond x.store env event w.db).2 := by
  unfold Servers.handled respond
  cases Codec.postJson event with
  | none => rfl
  | some received => simp only [Machine.act_of_step (request_step hp hx env received)]

variable {d d' : Deployment α ι} {s : System α} {action : DeploymentAction α ι}

omit [DecidableEq α] [DecidableEq ι] [Formats] [Codec] in
/-- The servers go on; the agents see the tables they leave. -/
theorem agents_servers (h : d.Seen s) (w : Servers ι) :
    ({ d with servers := w } : Deployment α ι).system = { s with db := w.db } :=
  congrArg (fun t : System α => { t with db := w.db }) h.agents

omit [DecidableEq ι] in
/-- A step of an agent leaves the tables. -/
theorem db_agent {action : SystemAction α} (ha : action.agent?.isSome) {store : ServerEventStore}
    {t : System α} (ht : s.step store action = some t) : t.db = s.db := by
  have hsame := System.step_agent ha s s.db store store
  rw [show ({ s with db := s.db } : System α) = s from rfl, ht, Option.map_some] at hsame
  have hdb := congrArg System.db (Option.some.inj hsame)
  exact hdb

/-- **Every step is one of the agents' run, or none.** -/
theorem seen_step (store : ServerEventStore) (h : d.Seen s)
    (hs : (deployment α ι).step d action = some d') :
    ∃ bs, (∀ b ∈ bs, AsSystem action b) ∧ d'.Seen ((Beacon.system α store).runFrom s bs) := by
  change d.step action = some d' at hs
  cases action with
  | agent action =>
    simp only [step] at hs
    split at hs
    · cases hs
    · rename_i a ha
      have ha : action.agent?.isSome := Option.isSome_of_eq_some ha
      obtain ⟨t, ht, rfl⟩ := Option.map_eq_some_iff.mp hs
      rw [h.agents, System.step_agent ha s d.servers.db store .opened] at ht
      obtain ⟨t', ht', rfl⟩ := Option.map_eq_some_iff.mp ht
      refine Mirrors.answer_one (.agent action) ht' ⟨rfl, ?_⟩
      rw [db_agent ha ht']
      exact h.tables
  | server action =>
    have hserver : ∃ w, d.servers.step action = some w ∧ d' = { d with servers := w } ∧
        ∀ p env event, action ≠ .request p env event := by
      simp only [step] at hs
      split at hs
      · cases hs
      · rename_i hno
        obtain ⟨w, hw, rfl⟩ := Option.map_eq_some_iff.mp hs
        exact ⟨w, hw, rfl, hno⟩
    obtain ⟨w, hw, rfl, hno⟩ := hserver
    refine Mirrors.answer_none ⟨agents_servers h w, ?_⟩
    exact (agree_server hno (Servers.did_of_step hw)).trans h.tables
  | handle p request env =>
    simp only [step] at hs
    split at hs
    · rename_i event x hn hp
      split at hs
      · rename_i hx
        cases hs
        obtain ⟨hanswer, hagree⟩ := respond_agree h.tables x.store store env event
        have hrequests : s.requests[request]? = some event := by
          rw [← hn]
          exact congrArg (fun t : System α => t.requests[request]?) h.agents.symm
        have hstep : (Beacon.system α store).step s (.handle request env) = some { s with
            replies := s.replies ++ [(request, (respond store env event s.db).1)]
            db := (respond store env event s.db).2 } := by
          change System.step store s (.handle request env) = _
          simp only [System.step, hrequests]
        refine Mirrors.answer_one (.handle p request env) hstep ⟨?_, ?_⟩
        · rw [hanswer]
          exact congrArg (fun t : System α => { t with
            replies := t.replies ++ [(request, (respond store env event s.db).1)]
            db := (d.servers.handled p env event).db }) h.agents
        · show (d.servers.handled p env event).db.Agree _
          rw [db_handled hp hx]
          exact hagree
      · cases hs
    · cases hs

/-- **Agents cannot tell**: a deployment is, but for its queue, a run of agents and one server. -/
theorem mirrors_system (store : ServerEventStore) :
    Mirrors (deployment α ι) (Beacon.system α store) Seen AsSystem where
  init := ⟨rfl, rfl, rfl⟩
  step := fun _ _ _ _ h hs => seen_step store h hs

/-! ## 3. What the servers see -/

omit [DecidableEq α] [DecidableEq ι] [Formats] [Codec] in
/-- What the servers make of an action of the deployment. -/
inductive AsServers : DeploymentAction α ι → ServerAction ι → Prop where
  | server (action : ServerAction ι) : AsServers (.server action) action
  | handle (p : ι) (request : Nat) (env : Handling) (received : Event) :
    AsServers (.handle p request env) (.request p env received)

/-- What a step of the deployment is to the servers. -/
inductive Turn (d : Deployment α ι) : DeploymentAction α ι → Servers ι → Prop where
  | agent (action : SystemAction α) : Turn d (.agent action) d.servers
  | server {action : ServerAction ι} {w : Servers ι}
      (ha : ∀ p env event, action ≠ .request p env event)
      (hw : (Beacon.servers ι).step d.servers action = some w) : Turn d (.server action) w
  | handle {p : ι} {request : Nat} {event : Event} {x : ServerProcess} (env : Handling)
      (hn : d.requests[request]? = some event) (hp : d.servers.process p = some x)
      (hx : x.stage = .listening) : Turn d (.handle p request env) (d.servers.handled p env event)

theorem turn_of_step (hs : (deployment α ι).step d action = some d') : d.Turn action d'.servers := by
  change d.step action = some d' at hs
  cases action with
  | agent action =>
    simp only [step] at hs
    split at hs
    · cases hs
    · obtain ⟨t, _, rfl⟩ := Option.map_eq_some_iff.mp hs
      exact .agent action
  | server action =>
    simp only [step] at hs
    split at hs
    · cases hs
    · rename_i hno
      obtain ⟨w, hw, rfl⟩ := Option.map_eq_some_iff.mp hs
      exact .server hno hw
  | handle p request env =>
    simp only [step] at hs
    split at hs
    · rename_i event x hn hp
      split at hs
      · rename_i hx
        cases hs
        exact .handle env hn hp hx
      · cases hs
    · cases hs

/-- **To the servers the agents are requests.** -/
theorem mirrors_servers :
    Mirrors (deployment α ι) (Beacon.servers ι) (fun d w => d.servers = w) AsServers where
  init := rfl
  step := fun d action d' w h hs => by
    subst h
    have hturn := turn_of_step hs
    generalize d'.servers = w' at hturn
    cases hturn with
    | agent action => exact Mirrors.answer_none rfl
    | @server action _ ha hw => exact Mirrors.answer_one (.server action) hw rfl
    | @handle p request event x env hn hp hx =>
      unfold Servers.handled
      cases Codec.postJson event with
      | none => exact Mirrors.answer_none rfl
      | some received =>
        have hstep := request_step hp hx env received
        exact Mirrors.answer_one (.handle p request env received) hstep (Machine.act_of_step hstep)

/-! ## 4. Where the calls of the servers come from -/

omit [DecidableEq α] [DecidableEq ι] [Formats] [Codec] in
/-- The event was offered to a spool, by an enqueue or by one that was cut off. -/
def Offered (actions : List (DeploymentAction α ι)) (event : Event) : Prop :=
  ∃ a, .agent (.enqueue a event) ∈ actions ∨ ∃ writes, .agent (.cutEnqueue a event writes) ∈ actions

omit [DecidableEq α] [DecidableEq ι] in
/-- Everything the agents have and every event the servers took comes from valid events
    with `P`. -/
structure Traced (P : Event → Prop) (store : ServerEventStore) (d : Deployment α ι) : Prop where
  agents : ∃ s, d.Seen s ∧ s.Traced P store
  calls : ∀ entry ∈ d.servers.log, ∀ call, entry.2 = .accept call →
    ∃ event, (P event ∧ event.Valid) ∧ Carried event call.event

variable {P : Event → Prop} {store : ServerEventStore}

omit [DecidableEq α] in
/-- The log after a request: the call of `accept`, if it was taken. -/
theorem log_handled {w : Servers ι} {p : ι} {x : ServerProcess} (hp : w.process p = some x)
    (hx : x.stage = .listening) {env : Handling} {event : Event} {entry : LogEntry}
    (hin : entry ∈ (w.handled p env event).log) : entry ∈ w.log ∨
      ∃ received, Codec.postJson event = some received ∧
        entry = (x.store, Op.accept (env.call received)) := by
  unfold Servers.handled at hin
  cases hr : Codec.postJson event with
  | none =>
    rw [hr] at hin
    exact .inl hin
  | some received =>
    rw [hr] at hin
    have hstep := request_step hp hx env received
    simp only [Machine.act_of_step hstep] at hin
    rcases List.mem_append.mp hin with hold | hnew
    · exact .inl hold
    · split at hnew
      · exact .inr ⟨received, rfl, List.mem_singleton.mp hnew⟩
      · cases hnew

theorem traced_step (h : d.Traced P store)
    (hP : ∀ a event, (action = .agent (.enqueue a event) ∨
      ∃ writes, action = .agent (.cutEnqueue a event writes)) → P event)
    (hs : (deployment α ι).step d action = some d') : d'.Traced P store := by
  obtain ⟨s, hseen, htraced⟩ := h.agents
  constructor
  · obtain ⟨bs, hbs, hseen'⟩ := seen_step store hseen hs
    refine ⟨_, hseen', Machine.runFrom_invariant_along (I := System.Traced P store)
      (P := fun _ b => AsSystem action b) (fun s b s' hI hb hstep => ?_) htraced
      (Machine.along_of_mem hbs)⟩
    refine System.traced_step hI (fun a event hoffer => hP a event ?_) hstep
    rcases hoffer with rfl | ⟨writes, rfl⟩ <;> cases hb
    · exact .inl rfl
    · exact .inr ⟨writes, rfl⟩
  · intro entry hin call hcall
    have hturn := turn_of_step hs
    generalize d'.servers = w at hturn hin
    cases hturn with
    | agent => exact h.calls entry hin call hcall
    | server ha hw =>
      rcases work_server ha (Servers.did_of_step hw) with ⟨hlog, _⟩ | ⟨store', op, hop, hlog, _⟩ <;>
        rw [hlog] at hin
      · exact h.calls entry hin call hcall
      · rcases List.mem_append.mp hin with hold | hnew
        · exact h.calls entry hold call hcall
        · rw [List.mem_singleton.mp hnew] at hcall
          exact absurd hcall (hop call)
    | @handle p request event x env hn hp hx =>
      rcases log_handled hp hx hin with hold | ⟨received, hpost, rfl⟩
      · exact h.calls entry hold call hcall
      · cases hcall
        have hmem : event ∈ s.requests := by
          rw [show s.requests = d.requests from congrArg System.requests hseen.agents.symm]
          exact List.mem_of_getElem? hn
        obtain ⟨origin, horigin, hread⟩ := htraced.requests event hmem
        exact ⟨origin, horigin, event, hread, hpost⟩

/-- **Everything comes from what the run offered to a spool.** -/
theorem traced_run (store : ServerEventStore) (actions : List (DeploymentAction α ι)) :
    ((deployment α ι).run actions).Traced (Offered actions) store := by
  refine Machine.invariant_along (M := deployment α ι) (I := Traced (Offered actions) store)
    (P := fun _ action => action ∈ actions) ?_ (fun d action d' h hmem hs => ?_)
    (Machine.along_of_mem fun _ hmem => hmem)
  · exact ⟨⟨_, (mirrors_system store).init, System.traced_init⟩, fun _ hin => by cases hin⟩
  · refine traced_step h (fun a event hoffer => ?_) hs
    rcases hoffer with rfl | ⟨writes, rfl⟩
    · exact ⟨a, .inl hmem⟩
    · exact ⟨a, .inr ⟨writes, hmem⟩⟩

/-! ## 5. From a spool to a channel -/

variable (actions : List (DeploymentAction α ι))

end Deployment

/-- **Agents and servers compose.** Whatever servers are started, configured anew and killed while
    agents send: for the agents, for events and for alerts the run is one of agents and a single
    server `store` that is never restarted, of the same steps of agents and handled requests; and
    for the servers it is one of their own steps and of requests. -/
theorem deployment_of_run (store : ServerEventStore) (actions : List (DeploymentAction α ι)) :
    let d := (deployment α ι).run actions
    (∃ bs, (∀ b ∈ bs, ∃ action ∈ actions, Deployment.AsSystem action b) ∧
        d.Seen ((system α store).run bs)) ∧
      ∃ bs, (∀ b ∈ bs, ∃ action ∈ actions, Deployment.AsServers action b) ∧
        d.servers = (servers ι).run bs :=
  ⟨(Deployment.mirrors_system store).run actions, Deployment.mirrors_servers.run actions⟩

namespace Sample

/-- An agent sends; the server that listened is killed before it looks at the request, the next
    one, which allows more attempts, takes the event and delivers it. -/
def handover : List (DeploymentAction Unit Bool) :=
  let env : Handling := ⟨true, none, ⟨1767225601000000000⟩, ⟨1767225601000000000⟩⟩
  [.agent (.enqueue () firingFirst), .server (.run false (telegramServer 2) telegramHost),
    .server (.spawn false telegramHost), .server (.listen false telegramHost),
    .agent (.drain () 10 3), .agent (.request ()), .server (.kill false), .handle false 0 env,
    .server (.run true (telegramServer 5) telegramHost), .server (.spawn true telegramHost),
    .server (.listen true telegramHost), .handle true 0 env, .agent (.receive () 0),
    .agent (.remove ()), .server (.deliver true ⟨1767225660000000000⟩), .server (.claim true),
    .server (.send true fun _ _ => some ⟨200, "200 OK"⟩)]

-- from where the request is on the wire: the first server never answers it, the next one does
example :
    let M := @deployment formats codec Unit Bool _ _
    let d := M.runFrom { M.init with requests := [firingFirst] } (handover.drop 1)
    d.replies.map (fun r => (r.1, r.2.status)) = [(0, 202)] ∧ d.servers.sends.length = 1 := by
  decide +kernel

end Sample

end Beacon
