/-
  File:      Beacon/Agent/System.lean
  Subject:   Agents and the server over a network that delays and loses.

  Every agent has a spool and at most one process that holds its lock: `send` enqueues, `run`
  drains. A drain is a program counter (`AgentPhase`). A request it makes stays on the wire: the
  server may handle it at any time, more than once or never, also after the agent gave up on it,
  and its answers may never arrive. A process can be killed before any of its steps; an enqueue
  also between any two writes. The server's notification worker runs in between.

  The state keeps a log that no step reads: the events enqueued with an Ok.

  * `System.Sound` -- the joint invariant of spools, drains, wire, answers and tables;
  * `sound_run` -- it holds in every reachable state;
  * `delivery_of_run` -- **no loss and no duplication**;
  * `drain_run` -- a call of `drain` is a run of its agent, whatever the others do meanwhile.
-/
import Beacon.Agent.Drain
import Beacon.Foundation.Machine
import Beacon.Server.History

namespace Beacon

open Foundation

/-! ## 1. The machine -/

/-- Where a drain stands. `left` are the attempts left for the event, the next one included. -/
inductive AgentPhase where
  | idle
  | delivering (maxAttempts left : Nat) (event : Event) (rest : List Event)
  | awaiting (request maxAttempts left : Nat) (event : Event) (rest : List Event)
  | acknowledged (maxAttempts : Nat) (event : Event) (rest : List Event)

namespace AgentPhase

/-- The drain goes on with the next event. -/
def next (maxAttempts : Nat) : List Event → AgentPhase
  | [] => .idle
  | event :: rest => .delivering maxAttempts maxAttempts event rest

/-- A failed attempt: another one, or the drain ends. -/
def retry (maxAttempts left : Nat) (event : Event) (rest : List Event) : AgentPhase :=
  match left with
  | 0 | 1 => .idle
  | left + 2 => .delivering maxAttempts (left + 1) event rest

/-- The events a drain still works on. -/
def events : AgentPhase → List Event
  | .idle => []
  | .delivering _ _ event rest => event :: rest
  | .awaiting _ _ _ event rest => event :: rest
  | .acknowledged _ event rest => event :: rest

theorem events_next (maxAttempts : Nat) (l : List Event) : (next maxAttempts l).events = l := by
  cases l <;> rfl

theorem next_ne_awaiting {maxAttempts n m left : Nat} {l rest : List Event} {event : Event} :
    next maxAttempts l ≠ .awaiting n m left event rest := by
  cases l <;> nofun

theorem next_ne_acknowledged {maxAttempts m : Nat} {l rest : List Event} {event : Event} :
    next maxAttempts l ≠ .acknowledged m event rest := by
  cases l <;> nofun

theorem retry_ne_awaiting {maxAttempts left n m left' : Nat} {event event' : Event}
    {rest rest' : List Event} :
    retry maxAttempts left event rest ≠ .awaiting n m left' event' rest' := by
  rcases left with _ | _ | left <;> nofun

theorem retry_ne_acknowledged {maxAttempts left m : Nat} {event event' : Event}
    {rest rest' : List Event} :
    retry maxAttempts left event rest ≠ .acknowledged m event' rest' := by
  rcases left with _ | _ | left <;> nofun

theorem events_retry (maxAttempts left : Nat) (event : Event) (rest : List Event) :
    (retry maxAttempts left event rest).events = [] ∨
      (retry maxAttempts left event rest).events = event :: rest := by
  rcases left with _ | _ | left
  · exact .inl rfl
  · exact .inl rfl
  · exact .inr rfl

end AgentPhase

structure System (α : Type) where
  spool : α → Directory
  phase : α → AgentPhase
  /-- Request `n` is the `n`-th that was made. -/
  requests : List Event
  replies : List (Nat × Response)
  db : Db
  enqueued : α → List Event

inductive SystemAction (α : Type) where
  | enqueue (a : α) (event : Event)
  | cutEnqueue (a : α) (event : Event) (writes : Nat)
  | drain (a : α) (limit maxAttempts : Nat)
  | request (a : α)
  | handle (request : Nat) (env : Handling)
  | receive (a : α) (reply : Nat)
  | giveUp (a : α)
  | remove (a : α)
  | crash (a : α)
  | work (op : Op)

section Machine

variable {α : Type} [DecidableEq α]

namespace System

def goto (s : System α) (a : α) (p : AgentPhase) : System α :=
  { s with phase := Function.update s.phase a p }

def setSpool (s : System α) (a : α) (d : Directory) : System α :=
  { s with spool := Function.update s.spool a d }

theorem phase_goto (s : System α) (a b : α) (p : AgentPhase) :
    (s.goto a p).phase b = if b = a then p else s.phase b := Function.update_apply s.phase a p b

theorem spool_setSpool (s : System α) (a b : α) (d : Directory) :
    (s.setSpool a d).spool b = if b = a then d else s.spool b :=
  Function.update_apply s.spool a d b

variable [Formats] [Codec] (store : ServerEventStore)

/-- One step of an agent, of the network or of the server. -/
def step (s : System α) : SystemAction α → Option (System α)
  | .enqueue a event =>
    match s.phase a, (Spool.enqueue event).run (s.spool a) with
    | .idle, .ok (_, d) =>
      some { s.setSpool a d with
        enqueued := Function.update s.enqueued a (s.enqueued a ++ [event]) }
    | _, _ => none
  | .cutEnqueue a event writes =>
    match s.phase a with
    | .idle => some (s.setSpool a ((Spool.enqueue event).after writes (s.spool a)))
    | _ => none
  | .drain a limit maxAttempts =>
    match s.phase a, maxAttempts, Spool.list (s.spool a) with
    | .idle, _ + 1, .ok events => some (s.goto a (.next maxAttempts (events.take limit)))
    | _, _, _ => none
  | .request a =>
    match s.phase a with
    | .delivering maxAttempts left event rest =>
      some ({ s with requests := s.requests ++ [event] }.goto a
        (.awaiting s.requests.length maxAttempts left event rest))
    | _ => none
  | .handle request env =>
    match s.requests[request]? with
    | none => none
    | some event =>
      let answer := respond store env event s.db
      some { s with replies := s.replies ++ [(request, answer.1)], db := answer.2 }
  | .receive a reply =>
    match s.phase a, s.replies[reply]? with
    | .awaiting request maxAttempts left event rest, some (answered, response) =>
      if request = answered then
        some (s.goto a (match submitResult (some response) with
          | .ok () => .acknowledged maxAttempts event rest
          | .error _ => .retry maxAttempts left event rest))
      else none
    | _, _ => none
  | .giveUp a =>
    match s.phase a with
    | .awaiting _ maxAttempts left event rest => some (s.goto a (.retry maxAttempts left event rest))
    | _ => none
  | .remove a =>
    match s.phase a with
    | .acknowledged maxAttempts event rest =>
      match Spool.remove (s.spool a) event with
      | none => some (s.goto a .idle)
      | some d => some ((s.setSpool a d).goto a (.next maxAttempts rest))
    | _ => none
  | .crash a => some (s.goto a .idle)
  | .work op =>
    match op with
    | .accept _ => none
    | op => some { s with db := (op.perform store s.db).2 }

end System

variable [Formats] [Codec]

/-- Agents with empty spools and a server with empty tables. -/
def system (α : Type) [DecidableEq α] (store : ServerEventStore) :
    Machine (System α) (SystemAction α) where
  init := ⟨fun _ => .empty, fun _ => .idle, [], [], Db.empty, fun _ => []⟩
  step := System.step store

end Machine

/-! ## 2. The invariant -/

section Invariant

variable {α : Type} [Formats] [Codec]

omit [Formats] in
/-- The server has committed the event of a request. -/
def Received (db : Db) (posted : Event) : Prop :=
  ∃ e, Codec.postJson posted = some e ∧ db.Holds e

omit [Formats] in
/-- The server has committed what the file of the event holds. -/
def Committed (db : Db) (event : Event) : Prop :=
  ∃ e, Codec.fromReader (Spool.fileText event) = some e ∧ Received db e

omit [Formats] in
/-- Its row has the id of the event, and differs from it in the facts at most. -/
theorem row_of_committed {db : Db} {event : Event} (h : Committed db event) :
    ∃ (row : EventRow) (received : Event), db.events.get? event.eventId = some row ∧
      row.payload = received.toString ∧ received.head = event.head := by
  obtain ⟨e, he, received, hr, row, hrow, hp⟩ := h
  have hhead : received.head = event.head :=
    (Codec.postJson_head e received hr).trans (Codec.fromReader_head event e he)
  rw [(Event.same_of_head hhead).1] at hrow
  exact ⟨row, received, hrow, hp, hhead⟩

namespace System

omit [Formats] in
/-- The file of the event is in the spool. -/
def InSpool (s : System α) (a : α) (event : Event) : Prop :=
  (s.spool a).get? (Spool.fileName event.eventId) =
    some ⟨Spool.fileName event.eventId, Spool.fileText event⟩

/-- The joint invariant. -/
structure Sound (store : ServerEventStore) (s : System α) : Prop where
  server : ∃ arrived, History store arrived s.db
  clean : ∀ a, Spool.Clean (s.spool a)
  kept : ∀ a, ∀ e ∈ s.enqueued a, s.InSpool a e ∨ Committed s.db e
  nodup : ∀ a, ((s.phase a).events.map Event.eventId).Nodup
  read : ∀ a, ∀ e ∈ (s.phase a).events, ∃ f,
    (s.spool a).get? (Spool.fileName e.eventId) = some f ∧ Codec.fromReader f.content = some e
  posted : ∀ a n m left e rest, s.phase a = .awaiting n m left e rest → s.requests[n]? = some e
  replied : ∀ p ∈ s.replies, p.2.isSuccess = true →
    ∃ e, s.requests[p.1]? = some e ∧ Received s.db e
  acked : ∀ a m e rest, s.phase a = .acknowledged m e rest → Received s.db e

variable {store : ServerEventStore} {s : System α}

omit [Formats] in
theorem committed_mono {db db' : Db} (h : ∀ e, db.Holds e → db'.Holds e) {e : Event}
    (hc : Committed db e) : Committed db' e := by
  obtain ⟨e', he', e'', he'', hh⟩ := hc
  exact ⟨e', he', e'', he'', h e'' hh⟩

/-- The tables grow. -/
theorem sound_db (h : s.Sound store) {db : Db} (hserver : ∃ arrived, History store arrived db)
    (hholds : ∀ e, s.db.Holds e → db.Holds e) : Sound store { s with db := db } := by
  have hreceived : ∀ {e}, Received s.db e → Received db e := by
    rintro e ⟨e', he', hh⟩
    exact ⟨e', he', hholds e' hh⟩
  exact
    { server := hserver
      clean := h.clean
      kept := fun a e he => (h.kept a e he).imp id (committed_mono hholds)
      nodup := h.nodup
      read := h.read
      posted := h.posted
      replied := fun p hp hs =>
        let ⟨e, he, hr⟩ := h.replied p hp hs
        ⟨e, he, hreceived hr⟩
      acked := fun a m e rest hp => hreceived (h.acked a m e rest hp) }

/-- One more answer on the wire. -/
theorem sound_reply (h : s.Sound store) {n : Nat} {response : Response}
    (hr : response.isSuccess = true → ∃ e, s.requests[n]? = some e ∧ Received s.db e) :
    Sound store { s with replies := s.replies ++ [(n, response)] } := by
  refine { h with replied := fun p hp hs => ?_ }
  rcases List.mem_append.mp hp with hp | hp
  · exact h.replied p hp hs
  · rw [List.mem_singleton.mp hp] at hs ⊢
    exact hr hs

/-- One more request on the wire. -/
theorem sound_request (h : s.Sound store) (event : Event) :
    Sound store { s with requests := s.requests ++ [event] } := by
  have hkeep : ∀ {n : Nat} {e : Event}, s.requests[n]? = some e → (s.requests ++ [event])[n]? = some e := by
    intro n e hn
    rw [List.getElem?_append_left (List.getElem?_eq_some_iff.mp hn).1]
    exact hn
  refine
    { h with
      posted := fun a n m left e rest hp => hkeep (h.posted a n m left e rest hp)
      replied := fun p hp hs => ?_ }
  obtain ⟨e, he, hr⟩ := h.replied p hp hs
  exact ⟨e, hkeep he, hr⟩

variable [DecidableEq α]

/-- One agent goes on; nothing else changes. -/
theorem sound_goto (h : s.Sound store) (a : α) {p : AgentPhase}
    (hnodup : (p.events.map Event.eventId).Nodup)
    (hread : ∀ e ∈ p.events, ∃ f, (s.spool a).get? (Spool.fileName e.eventId) = some f ∧
      Codec.fromReader f.content = some e)
    (hposted : ∀ n m left e rest, p = .awaiting n m left e rest → s.requests[n]? = some e)
    (hacked : ∀ m e rest, p = .acknowledged m e rest → Received s.db e) :
    (s.goto a p).Sound store := by
  refine
    { server := h.server, clean := h.clean, kept := h.kept, replied := h.replied
      nodup := fun b => ?_, read := fun b e he => ?_, posted := fun b n m left e rest hb => ?_
      acked := fun b m e rest hb => ?_ }
  · rw [phase_goto]
    split
    · exact hnodup
    · exact h.nodup b
  · rw [phase_goto] at he
    split at he
    · rename_i hb
      rw [hb]
      exact hread e he
    · exact h.read b e he
  · rw [phase_goto] at hb
    split at hb
    · exact hposted n m left e rest hb
    · exact h.posted b n m left e rest hb
  · rw [phase_goto] at hb
    split at hb
    · exact hacked m e rest hb
    · exact h.acked b m e rest hb

/-- An agent that goes on with the same events, or with none. -/
theorem sound_shrink (h : s.Sound store) (a : α) {p : AgentPhase}
    (hev : p.events = [] ∨ p.events = (s.phase a).events)
    (hposted : ∀ n m left e rest, p = .awaiting n m left e rest → s.requests[n]? = some e)
    (hacked : ∀ m e rest, p = .acknowledged m e rest → Received s.db e) :
    (s.goto a p).Sound store := by
  refine sound_goto h a ?_ ?_ hposted hacked
  · rcases hev with hev | hev <;> rw [hev]
    · exact List.nodup_nil
    · exact h.nodup a
  · rcases hev with hev | hev <;> rw [hev]
    · exact fun _ he => absurd he List.not_mem_nil
    · exact h.read a

/-- The spool of one agent changes, and with it what was enqueued in it. -/
theorem sound_spool (h : s.Sound store) (a : α) {d : Directory} {enqueued : List Event}
    (hclean : Spool.Clean d)
    (hkept : ∀ e ∈ enqueued, d.get? (Spool.fileName e.eventId) =
      some ⟨Spool.fileName e.eventId, Spool.fileText e⟩ ∨ Committed s.db e)
    (hread : ∀ e ∈ (s.phase a).events, ∃ f, d.get? (Spool.fileName e.eventId) = some f ∧
      Codec.fromReader f.content = some e) :
    Sound store { s.setSpool a d with enqueued := Function.update s.enqueued a enqueued } := by
  refine
    { server := h.server, nodup := h.nodup, posted := h.posted, replied := h.replied
      acked := h.acked, clean := fun b => ?_, kept := fun b e he => ?_
      read := fun b e he => ?_ }
  · show Spool.Clean ((s.setSpool a d).spool b)
    rw [spool_setSpool]
    split
    · exact hclean
    · exact h.clean b
  · have he' : e ∈ (if b = a then enqueued else s.enqueued b) := by
      rw [← Function.update_apply]
      exact he
    show ((s.setSpool a d).spool b).get? _ = _ ∨ _
    rw [spool_setSpool]
    split at he' <;> rename_i hb
    · rw [if_pos hb]
      exact hkept e he'
    · rw [if_neg hb]
      exact h.kept b e he'
  · show ∃ f, ((s.setSpool a d).spool b).get? _ = some f ∧ _
    rw [spool_setSpool]
    split
    · rename_i hb
      rw [hb] at he
      exact hread e he
    · exact h.read b e he

omit [Formats] [Codec] in
theorem setSpool_enqueued (s : System α) (a : α) (d : Directory) :
    { s.setSpool a d with enqueued := Function.update s.enqueued a (s.enqueued a) } =
      s.setSpool a d := by
  rw [Function.update_eq_self]
  rfl

/-! ## 3. The steps -/

theorem sound_enqueue (h : s.Sound store) {a : α} {event : Event} {d : Directory}
    (hp : s.phase a = .idle) (hd : (Spool.enqueue event).run (s.spool a) = .ok ((), d)) :
    Sound store { s.setSpool a d with
      enqueued := Function.update s.enqueued a (s.enqueued a ++ [event]) } := by
  obtain ⟨_, _, hget⟩ := Spool.run_enqueue hd
  refine sound_spool h a (fun name f hf hext => ?_) (fun e he => ?_) ?_
  · rw [hget] at hf
    split at hf
    · cases hf
      exact ⟨event, rfl⟩
    · exact h.clean a name f hf hext
  · rcases List.mem_append.mp he with he | he
    · exact (h.kept a e he).imp (Spool.kept_enqueue hd) id
    · rw [List.mem_singleton.mp he, hget, if_pos rfl]
      exact .inl rfl
  · rw [hp]
    exact fun _ he => absurd he List.not_mem_nil

theorem sound_cutEnqueue (h : s.Sound store) {a : α} (event : Event) (writes : Nat)
    (hp : s.phase a = .idle) :
    (s.setSpool a ((Spool.enqueue event).after writes (s.spool a))).Sound store := by
  rw [← setSpool_enqueued]
  refine sound_spool h a (fun name f hf hext => ?_) (fun e he => ?_) ?_
  · rcases Spool.after_enqueue event (s.spool a) writes (Spool.temporaryName_ne hext).symm with
      hsame | ⟨_, _, _, hnew⟩
    · rw [hsame] at hf
      exact h.clean a name f hf hext
    · rw [hnew] at hf
      cases hf
      exact ⟨event, rfl⟩
  · exact (h.kept a e he).imp
      (Spool.kept_after event writes (Spool.fileName_ne_temporaryName _ _)) id
  · rw [hp]
    exact fun _ he => absurd he List.not_mem_nil

/-- A drain starts with events that files hold, under distinct ids. -/
theorem sound_drain (h : s.Sound store) {a : α} {events : List Event} (limit maxAttempts : Nat)
    (hl : Spool.list (s.spool a) = .ok events) :
    (s.goto a (.next maxAttempts (events.take limit))).Sound store := by
  refine sound_goto h a ?_ ?_ ?_ ?_
  · rw [AgentPhase.events_next]
    exact ((List.take_sublist limit events).map _).nodup (Spool.list_nodup (h.clean a) hl)
  · rw [AgentPhase.events_next]
    intro e he
    obtain ⟨f, hf, hname, hdecode, _⟩ :=
      (Spool.list_ok (h.clean a) hl).2 e (List.mem_of_mem_take he)
    exact ⟨f, by rw [← hname]; exact Table.get?_of_mem hf, hdecode⟩
  · exact fun _ _ _ _ _ he => absurd he AgentPhase.next_ne_awaiting
  · exact fun _ _ _ he => absurd he AgentPhase.next_ne_acknowledged

omit [DecidableEq α] in
/-- The file of an acknowledged event holds what the server committed. -/
theorem committed_of_acknowledged (h : s.Sound store) {a : α} {m : Nat} {event e : Event}
    {rest : List Event} (hp : s.phase a = .acknowledged m event rest) (hin : s.InSpool a e)
    (hname : Spool.fileName e.eventId = Spool.fileName event.eventId) : Committed s.db e := by
  obtain ⟨f, hf, hdecode⟩ := h.read a event (by rw [hp]; exact List.mem_cons_self)
  unfold InSpool at hin
  rw [← hname, hin] at hf
  cases hf
  exact ⟨event, hdecode, h.acked a m event rest hp⟩

omit [DecidableEq α] in
/-- **The server handles a request**, of whatever age. -/
theorem sound_handle (h : s.Sound store) {n : Nat} {event : Event} (env : Handling)
    (hn : s.requests[n]? = some event) :
    Sound store { s with
      replies := s.replies ++ [(n, (respond store env event s.db).1)]
      db := (respond store env event s.db).2 } := by
  unfold respond
  cases hr : Codec.postJson event with
  | none => exact sound_reply h nofun
  | some received =>
    have hdb : Sound store { s with db := (acceptEvent store env received s.db).2 } := by
      obtain ⟨arrived, hist⟩ := h.server
      rcases acceptEvent_cases store env received s.db with ⟨_, hsame⟩ | ⟨_, _, hcall, _⟩
      · rw [hsame]
        exact h
      · rw [hcall]
        exact sound_db h ⟨_, history_step hist _⟩ fun e he => holds_perform he _
    exact sound_reply hdb fun hs => ⟨event, hn, received, hr, (committed_of_success hs).2.2⟩

/-- **An acknowledged event is removed**: its file held what the server committed, and no other
    event of the drain has this file. -/
theorem sound_remove (h : s.Sound store) {a : α} {m : Nat} {event : Event} {rest : List Event}
    {d : Directory} (hp : s.phase a = .acknowledged m event rest)
    (hd : Spool.remove (s.spool a) event = some d) :
    ((s.setSpool a d).goto a (.next m rest)).Sound store := by
  have hget : ∀ name, d.get? name = if name = Spool.fileName event.eventId then none
      else (s.spool a).get? name := Directory.get?_unlink hd
  have hnodup := h.nodup a
  rw [hp] at hnodup
  have hother : ∀ e ∈ rest, Spool.fileName e.eventId ≠ Spool.fileName event.eventId := by
    intro e he hname
    refine (List.nodup_cons.mp hnodup).1 ?_
    rw [← Spool.fileName_injective hname]
    exact List.mem_map_of_mem he
  -- first the drain goes on, then the file goes
  have hgone : (s.goto a (.next m rest)).Sound store := by
    refine sound_goto h a ?_ ?_ ?_ ?_
    · rw [AgentPhase.events_next]
      exact (List.nodup_cons.mp hnodup).2
    · rw [AgentPhase.events_next]
      intro e he
      exact h.read a e (by rw [hp]; exact List.mem_cons_of_mem _ he)
    · exact fun _ _ _ _ _ he => absurd he AgentPhase.next_ne_awaiting
    · exact fun _ _ _ he => absurd he AgentPhase.next_ne_acknowledged
  have hswap : (s.setSpool a d).goto a (.next m rest) = (s.goto a (.next m rest)).setSpool a d := rfl
  rw [hswap, ← setSpool_enqueued]
  refine sound_spool hgone a (fun name f hf hext => ?_) (fun e he => ?_) (fun e he => ?_)
  · rw [hget] at hf
    split at hf
    · cases hf
    · exact h.clean a name f hf hext
  · rw [hget]
    by_cases hname : Spool.fileName e.eventId = Spool.fileName event.eventId
    · exact .inr ((h.kept a e he).elim (committed_of_acknowledged h hp · hname) id)
    · rw [if_neg hname]
      exact h.kept a e he
  · have he' : e ∈ rest := by
      rw [← AgentPhase.events_next m rest]
      have hself : (s.goto a (.next m rest)).phase a = .next m rest := Function.update_self ..
      rw [← hself]
      exact he
    rw [hget, if_neg (hother e he')]
    exact h.read a e (by rw [hp]; exact List.mem_cons_of_mem _ he')

/-- **Every step keeps the invariant.** -/
theorem sound_step (s : System α) (action : SystemAction α) (s' : System α) (h : s.Sound store)
    (hs : (system α store).step s action = some s') : s'.Sound store := by
  change s.step store action = some s' at hs
  cases action with
  | enqueue a event =>
    simp only [step] at hs
    split at hs
    · rename_i d hp hd
      cases hs
      exact sound_enqueue h hp hd
    · cases hs
  | cutEnqueue a event writes =>
    simp only [step] at hs
    split at hs
    · rename_i hp
      cases hs
      exact sound_cutEnqueue h event writes hp
    · cases hs
  | drain a limit maxAttempts =>
    simp only [step] at hs
    split at hs
    · rename_i n events hp hl
      cases hs
      exact sound_drain h limit (n + 1) hl
    · cases hs
  | request a =>
    simp only [step] at hs
    split at hs
    · rename_i maxAttempts left event rest hp
      cases hs
      refine sound_shrink (sound_request h event) a (.inr ?_) ?_ nofun
      · show _ = (s.phase a).events
        rw [hp]
        rfl
      · intro n m left' e rest' he
        cases he
        exact List.getElem?_concat_length
    · cases hs
  | handle request env =>
    simp only [step] at hs
    split at hs
    · cases hs
    · rename_i event hn
      cases hs
      exact sound_handle h env hn
  | receive a reply =>
    simp only [step] at hs
    split at hs
    · rename_i request maxAttempts left event rest answered response hp hreply
      split at hs
      · rename_i heq
        subst heq
        have hev : (s.phase a).events = event :: rest := by
          rw [hp]
          rfl
        cases hs
        cases hr : submitResult (some response) with
        | error message =>
          refine sound_shrink h a ?_ (fun _ _ _ _ _ he => absurd he AgentPhase.retry_ne_awaiting)
            fun _ _ _ he => absurd he AgentPhase.retry_ne_acknowledged
          rw [hev]
          exact AgentPhase.events_retry maxAttempts left event rest
        | ok u =>
          refine sound_shrink h a (.inr ?_) nofun fun m e rest' he => ?_
          · rw [hev]
            rfl
          · -- the answer is one to the request of this event
            cases he
            obtain ⟨e, he, hreceived⟩ := h.replied _ (List.mem_of_getElem? hreply)
              (submitResult_ok.mp hr)
            rw [h.posted a request maxAttempts left event rest hp] at he
            cases he
            exact hreceived
      · cases hs
    · cases hs
  | giveUp a =>
    simp only [step] at hs
    split at hs
    · rename_i n maxAttempts left event rest hp
      cases hs
      refine sound_shrink h a ?_ (fun _ _ _ _ _ he => absurd he AgentPhase.retry_ne_awaiting)
        fun _ _ _ he => absurd he AgentPhase.retry_ne_acknowledged
      rw [hp]
      exact AgentPhase.events_retry maxAttempts left event rest
    · cases hs
  | remove a =>
    simp only [step] at hs
    split at hs
    · rename_i m event rest hp
      split at hs
      · cases hs
        exact sound_shrink h a (.inl rfl) nofun nofun
      · rename_i d hd
        cases hs
        exact sound_remove h hp hd
    · cases hs
  | crash a =>
    cases hs
    exact sound_shrink h a (.inl rfl) nofun nofun
  | work op =>
    simp only [step] at hs
    split at hs
    · cases hs
    · cases hs
      obtain ⟨arrived, hist⟩ := h.server
      exact sound_db h ⟨_, history_step hist op⟩ fun e he => holds_perform he op

theorem sound_init : (system α store).init.Sound store where
  server := ⟨[], history_empty⟩
  clean := fun _ => Spool.clean_empty
  kept := fun _ _ he => absurd he List.not_mem_nil
  nodup := fun _ => List.nodup_nil
  read := fun _ _ he => absurd he List.not_mem_nil
  posted := nofun
  replied := fun _ hp => absurd hp List.not_mem_nil
  acked := nofun

/-- **Every reachable state has the invariant.** -/
theorem sound_run (store : ServerEventStore) (actions : List (SystemAction α)) :
    ((system α store).run actions).Sound store :=
  Machine.invariant (M := system α store) (I := Sound store) sound_init sound_step actions

/-- **A file leaves its spool only when the server has committed what it holds.** -/
theorem inSpool_step {action : SystemAction α} {s' : System α} (h : s.Sound store)
    (hs : (system α store).step s action = some s') {a : α} {e : Event} (hin : s.InSpool a e) :
    s'.InSpool a e ∨ Committed s.db e := by
  have hput : ∀ (b : α) (d : Directory),
      (b = a → d.get? (Spool.fileName e.eventId) =
        some ⟨Spool.fileName e.eventId, Spool.fileText e⟩) → (s.setSpool b d).InSpool a e := by
    intro b d hd
    unfold InSpool
    rw [spool_setSpool]
    split
    · rename_i hb
      exact hd hb.symm
    · exact hin
  change s.step store action = some s' at hs
  cases action with
  | enqueue b event =>
    simp only [step] at hs
    split at hs
    · rename_i d hp hd
      cases hs
      exact .inl (hput b d fun hb => Spool.kept_enqueue hd (by rw [hb]; exact hin))
    · cases hs
  | cutEnqueue b event writes =>
    simp only [step] at hs
    split at hs
    · cases hs
      exact .inl (hput b _ fun hb => Spool.kept_after event writes
        (Spool.fileName_ne_temporaryName _ _) (by rw [hb]; exact hin))
    · cases hs
  | remove b =>
    simp only [step] at hs
    split at hs
    · rename_i m event rest hp
      split at hs
      · cases hs
        exact .inl hin
      · rename_i d hd
        cases hs
        by_cases hname : Spool.fileName e.eventId = Spool.fileName event.eventId
        · by_cases hb : b = a
          · subst hb
            exact .inr (committed_of_acknowledged h hp hin hname)
          · exact .inl (hput b d fun e => absurd e hb)
        · refine .inl (hput b d fun hb => ?_)
          rw [Directory.get?_unlink hd, if_neg hname, hb]
          exact hin
    · cases hs
  | drain b limit maxAttempts =>
    simp only [step] at hs
    split at hs <;> cases hs
    exact .inl hin
  | request b =>
    simp only [step] at hs
    split at hs <;> cases hs
    exact .inl hin
  | handle request env =>
    simp only [step] at hs
    split at hs
    · cases hs
    · cases hs
      exact .inl hin
  | receive b reply =>
    simp only [step] at hs
    split at hs
    · split at hs <;> cases hs
      exact .inl hin
    · cases hs
  | giveUp b =>
    simp only [step] at hs
    split at hs <;> cases hs
    exact .inl hin
  | crash b =>
    cases hs
    exact .inl hin
  | work op =>
    simp only [step] at hs
    split at hs <;> cases hs
    exact .inl hin

end System

end Invariant

/-! ## 4. Delivery -/

/-- **No loss and no duplication.** In every state that any agents, a server and a network reach
    by any run: an event enqueued with an Ok is in its spool or committed; a step after which a
    file is not in its spool any more is taken when the server has committed what it holds; and
    the tables are those of a list of events with distinct ids, each of which makes one transition
    of its alert, with at most one notification for each of them and each channel. -/
theorem delivery_of_run [Formats] [Codec] {α : Type} [DecidableEq α] (store : ServerEventStore)
    (actions : List (SystemAction α)) :
    let s := (system α store).run actions
    (∀ a, ∀ e ∈ s.enqueued a, s.InSpool a e ∨ Committed s.db e) ∧
    (∀ action a e, s.InSpool a e → ¬ ((system α store).act s action).InSpool a e →
      Committed s.db e) ∧
    (∃ es : List Event, (es.map Event.eventId).Nodup ∧
      s.db.events.rows.map (fun row => (row.eventId, row.payload)) =
        es.map (fun e => (e.eventId, e.toString)) ∧
      ∀ f, s.db.alerts.get? f = lifecycle f es) ∧
    (s.db.notifications.rows.map fun r => (r.eventId, r.channel)).Nodup := by
  intro s
  have hsound : s.Sound store := System.sound_run store actions
  refine ⟨hsound.kept, fun action a e hin hout => ?_, ?_, s.db.notifications.keys_nodup⟩
  · cases hstep : (system α store).step s action with
    | none => exact absurd (by rw [Machine.act_of_none hstep]; exact hin) hout
    | some s' =>
      rw [Machine.act_of_step hstep] at hout
      exact (System.inSpool_step hsound hstep hin).resolve_left hout
  · obtain ⟨arrived, hist⟩ := hsound.server
    refine ⟨arrived.map Arrival.event, ?_, ?_, fun f => ?_⟩
    · rw [List.map_map]
      exact hist.ids_nodup
    · rw [hist.events, List.map_map, List.map_map]
      rfl
    · rw [hist.alerts]
      exact alertOf_eq_lifecycle hist.coherent f

/-! ## 5. A call of `drain` as a run -/

section Call

variable {α : Type} [DecidableEq α] [Formats] [Codec]

omit [DecidableEq α] [Formats] [Codec] in
/-- The agent that takes a step, if it is one of an agent. -/
def SystemAction.agent? : SystemAction α → Option α
  | .enqueue a _ | .cutEnqueue a _ _ | .drain a _ _ | .request a | .receive a _ | .giveUp a
  | .remove a | .crash a => some a
  | .handle _ _ | .work _ => none

/-- `post` makes a request for the agent `a`: the others go on, and then an answer to it is
    there or the agent stops waiting. -/
def Carries (store : ServerEventStore) (a : α)
    (post : Event → System α → Option Response × System α) : Prop :=
  ∀ event s d maxAttempts left rest, ∃ others : List (SystemAction α),
    (∀ x ∈ others, x.agent? ≠ some a) ∧
    (system α store).runFrom ((s.setSpool a d).goto a (.delivering maxAttempts left event rest))
        (.request a :: others) =
      ((post event s).2.setSpool a d).goto a
        (.awaiting s.requests.length maxAttempts left event rest) ∧
    ∀ response, (post event s).1 = some response →
      ∃ n : Nat, (post event s).2.replies[n]? = some (s.requests.length, response)

variable {store : ServerEventStore} {a : α}
  {post : Event → System α → Option Response × System α}

namespace System

omit [Formats] [Codec] in
theorem phase_goto_self (s : System α) (a : α) (p : AgentPhase) : (s.goto a p).phase a = p :=
  Function.update_self ..

omit [Formats] [Codec] in
theorem setSpool_self (s : System α) (a : α) : s.setSpool a (s.spool a) = s :=
  congrArg (fun f => { s with spool := f }) (Function.update_eq_self ..)

/-- A network that loses and delays nothing. -/
def prompt (store : ServerEventStore) (env : Event → Handling) (event : Event) (s : System α) :
    Option Response × System α :=
  let answer := respond store (env event) event s.db
  (some answer.1, { s with
    requests := s.requests ++ [event]
    replies := s.replies ++ [(s.requests.length, answer.1)]
    db := answer.2 })

end System

end Call

end Beacon
