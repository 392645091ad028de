/-
  File:      Beacon/Agent/Origins.lean
  Subject:   Where the rows of the server come from.

  Nothing but `send` makes an event. What is on the wire was read from a file of a spool, and a
  file was written by an enqueue, also by one that was cut off after its rename. So every row of
  the events table, every alert and every notification can be traced to an event that was offered
  to a spool; on the way it changes in its facts at most, and the routing does not read them.

  * `System.Traced` -- the invariant of spools, drains, wire and tables;
  * `traced_run` -- it holds of what the run offered;
  * `authentic_of_run` -- **no row without an event**, over every run.
-/
import Beacon.Agent.Steps
import Beacon.Server.Routing

namespace Beacon

open Foundation

/-! ## 1. Events on their way -/

/-- Events with one head differ in the facts at most. -/
theorem Event.eq_of_head {e f : Event} (h : e.head = f.head) : e = { f with facts := e.facts } := by
  simp only [head, List.cons.injEq, Prod.mk.injEq, Json.str.injEq, Json.num.injEq,
    Number.int.injEq, Int.natCast_inj, true_and, and_true] at h
  obtain ⟨h1, h2, h3, h4, h5, h6, h7, h8, h9⟩ := h
  exact Event.ext h1 h2 h3 h4 h5 (EventState.asStr_injective h6) (Severity.asStr_injective h7)
    h8 h9 rfl

/-- The routing does not read the facts. -/
theorem PolicyCatalog.routed_of_head {policy : PolicyCatalog} {e f : Event} {channel : String}
    (h : e.head = f.head) : policy.Routed e channel ↔ policy.Routed f channel := by
  rw [Event.eq_of_head h]
  rfl

section Arrivals

variable [Formats] {store : ServerEventStore}

/-- What a call newly accepted is its own event. -/
theorem arrival_call {db : Db} {op : Op} {x : Arrival}
    (h : (stepOf store db op).arrival? = some x) : op = .accept x.call := by
  unfold Step.arrival? stepOf at h
  simp only at h
  split at h
  · cases h
    rfl
  · cases h

/-- A call of the store adds the arrival it took, if it took one. -/
theorem history_perform {as : List Arrival} {db : Db} (h : History store as db) (op : Op)
    {Q : Event → Prop} (hQ : ∀ call, op = .accept call → Q call.event) (has : ∀ x ∈ as, Q x.event) :
    ∃ bs, History store bs (op.perform store db).2 ∧ ∀ x ∈ bs, Q x.event := by
  refine ⟨_, history_step h op, fun x hx => ?_⟩
  rcases List.mem_append.mp hx with hx | hx
  · exact has x hx
  · exact hQ x.call (arrival_call (Option.mem_toList.mp hx))

end Arrivals

section Carried

variable [Codec]

/-- The file of the event reads as `e`. -/
def ReadAs (event e : Event) : Prop := Codec.fromReader (Spool.fileText event) = some e

/-- What the server decodes of a request for the file of the event. -/
def Carried (event received : Event) : Prop :=
  ∃ e, ReadAs event e ∧ Codec.postJson e = some received

theorem Carried.head {event received : Event} (h : Carried event received) :
    received.head = event.head := by
  obtain ⟨e, hread, hpost⟩ := h
  exact (Codec.postJson_head e received hpost).trans (Codec.fromReader_head event e hread)

end Carried

section System

variable {α : Type}

/-- The event was offered to a spool, by an enqueue or by one that was cut off. -/
def Offered (actions : List (SystemAction α)) (event : Event) : Prop :=
  ∃ a, .enqueue a event ∈ actions ∨ ∃ writes, .cutEnqueue a event writes ∈ actions

/-! ## 2. The invariant -/

variable [Formats] [Codec]

/-- Everything in the system comes from valid events with `P`. -/
structure System.Traced (P : Event → Prop) (store : ServerEventStore) (s : System α) : Prop where
  files : ∀ a name f, (s.spool a).get? name = some f → Directory.extension name = some "json" →
    ∃ event, (P event ∧ event.Valid) ∧ f = ⟨Spool.fileName event.eventId, Spool.fileText event⟩
  drains : ∀ a, ∀ e ∈ (s.phase a).events, ∃ event, (P event ∧ event.Valid) ∧ ReadAs event e
  requests : ∀ e ∈ s.requests, ∃ event, (P event ∧ event.Valid) ∧ ReadAs event e
  server : ∃ arrived, History store arrived s.db ∧
    ∀ x ∈ arrived, ∃ event, (P event ∧ event.Valid) ∧ Carried event x.event

namespace System

variable {P : Event → Prop} {store : ServerEventStore} {s s' : System α} {a : α}

variable [DecidableEq α]

/-- A spool changes; what is in it after comes from events with `P`. -/
theorem traced_setSpool (h : s.Traced P store) {d : Directory}
    (hd : ∀ name f, d.get? name = some f → Directory.extension name = some "json" →
      (s.spool a).get? name = some f ∨ ∃ event, (P event ∧ event.Valid) ∧
        f = ⟨Spool.fileName event.eventId, Spool.fileText event⟩) :
    (s.setSpool a d).Traced P store := by
  refine { h with files := fun b name f hf hext => ?_ }
  rw [spool_setSpool] at hf
  split at hf
  · exact (hd name f hf hext).elim (fun hold => h.files a name f hold hext) id
  · exact h.files b name f hf hext

/-- A drain goes on; its events come from events with `P`. -/
theorem traced_goto (h : s.Traced P store) {phase : AgentPhase}
    (hp : ∀ e ∈ phase.events, ∃ event, (P event ∧ event.Valid) ∧ ReadAs event e) :
    (s.goto a phase).Traced P store := by
  refine { h with drains := fun b e he => ?_ }
  rw [phase_goto] at he
  split at he
  · exact hp e he
  · exact h.drains b e he

/-- A drain goes on with events it had. -/
theorem traced_shrink (h : s.Traced P store) {phase : AgentPhase}
    (hp : ∀ e ∈ phase.events, e ∈ (s.phase a).events) : (s.goto a phase).Traced P store :=
  traced_goto h fun e he => h.drains a e (hp e he)

/-- **Every step keeps the invariant**, if what it offers to a spool has `P`. -/
theorem traced_step {action : SystemAction α} (h : s.Traced P store)
    (hP : ∀ a event, (action = .enqueue a event ∨ ∃ writes, action = .cutEnqueue a event writes) →
      P event)
    (hs : (system α store).step s action = some s') : s'.Traced P store := by
  cases did_of_step hs with
  | @enqueue a event d hp hd =>
    obtain ⟨hv, _, hget⟩ := Spool.run_enqueue hd
    have hset : (s.setSpool a d).Traced P store := by
      refine traced_setSpool h fun name f hf hext => ?_
      rw [hget] at hf
      split at hf
      · cases hf
        exact .inr ⟨event, ⟨hP a event (.inl rfl), hv⟩, rfl⟩
      · exact .inl hf
    exact { hset with }
  | @cutEnqueue a event writes hp =>
    refine traced_setSpool h fun name f hf hext => ?_
    rcases Spool.after_enqueue event (s.spool a) writes (Spool.temporaryName_ne hext).symm with
      hsame | ⟨hv, _, _, hnew⟩
    · rw [hsame] at hf
      exact .inl hf
    · rw [hnew] at hf
      cases hf
      exact .inr ⟨event, ⟨hP a event (.inr ⟨writes, rfl⟩), hv⟩, rfl⟩
  | @drain a limit maxAttempts events hp hl =>
    refine traced_goto h fun e he => ?_
    rw [AgentPhase.events_next] at he
    obtain ⟨f, hf, hread⟩ := Spool.mem_of_mapM hl (List.mem_of_mem_take he)
    obtain ⟨hmem, hext⟩ := Spool.mem_paths.mp hf
    obtain ⟨event, hevent, rfl⟩ := h.files a f.name f (Table.get?_of_mem hmem) hext
    exact ⟨event, hevent, (Spool.read_ok hread).1⟩
  | @request a maxAttempts left event rest hp =>
    have hevents : (s.phase a).events = event :: rest := by rw [hp]; rfl
    have hwire : Traced P store { s with requests := s.requests ++ [event] } := by
      refine { h with requests := fun e he => ?_ }
      rcases List.mem_append.mp he with he | he
      · exact h.requests e he
      · rw [List.mem_singleton.mp he]
        exact h.drains a event (by rw [hevents]; exact List.mem_cons_self)
    exact traced_shrink hwire fun e he => hevents.symm ▸ he
  | @handle request env event hn =>
    have hevent := h.requests event (List.mem_of_getElem? hn)
    refine { h with server := ?_ }
    obtain ⟨arrived, hist, htraced⟩ := h.server
    unfold respond
    cases hr : Codec.postJson event with
    | none => exact ⟨arrived, hist, htraced⟩
    | some received =>
      rcases acceptEvent_cases store env received s.db with ⟨_, hsame⟩ | ⟨_, _, hcall, _⟩
      · simp only [hsame]
        exact ⟨arrived, hist, htraced⟩
      · simp only [hcall]
        obtain ⟨origin, horigin, hread⟩ := hevent
        refine history_perform hist _ (Q := fun x => ∃ event, (P event ∧ event.Valid) ∧
          Carried event x) (fun call hop => ?_) htraced
        cases hop
        exact ⟨origin, horigin, event, hread, hr⟩
  | acknowledge hp _ _ => exact traced_shrink h fun e he => by rw [hp]; exact he
  | refuse hp _ _ => exact traced_shrink h fun e he => by rw [hp]; exact AgentPhase.mem_retry he
  | giveUp hp => exact traced_shrink h fun e he => by rw [hp]; exact AgentPhase.mem_retry he
  | missing _ _ => exact traced_shrink h fun e he => absurd he List.not_mem_nil
  | @remove a m event rest d hp hd =>
    have hgone : (s.goto a (.next m rest)).Traced P store := traced_shrink h fun e he => by
      rw [AgentPhase.events_next] at he
      rw [hp]
      exact List.mem_cons_of_mem _ he
    refine traced_setSpool (s := s.goto a (.next m rest)) hgone fun name f hf hext => .inl ?_
    rw [Directory.get?_unlink hd] at hf
    split at hf
    · cases hf
    · exact hf
  | crash => exact traced_shrink h fun e he => absurd he List.not_mem_nil
  | @work op hop =>
    obtain ⟨arrived, hist, htraced⟩ := h.server
    exact { h with
      server := history_perform hist op (Q := fun x => ∃ event, (P event ∧ event.Valid) ∧
        Carried event x) (fun call e => absurd e (hop call)) htraced }

theorem traced_init : (system α store).init.Traced P store where
  files := fun _ _ _ hf _ => by cases hf
  drains := fun _ _ he => absurd he List.not_mem_nil
  requests := fun _ he => absurd he List.not_mem_nil
  server := ⟨[], history_empty, fun _ hx => absurd hx List.not_mem_nil⟩

/-- **Everything comes from what the run offered to a spool.** -/
theorem traced_run (store : ServerEventStore) (actions : List (SystemAction α)) :
    ((system α store).run actions).Traced (Offered actions) store := by
  refine Machine.invariant_along (M := system α store) (I := Traced (Offered actions) store)
    (P := fun _ action => action ∈ actions) traced_init (fun s action s' h hmem hs => ?_)
    (Machine.along_of_mem fun _ hmem => hmem)
  refine traced_step h (fun a event hoffer => ?_) hs
  rcases hoffer with rfl | ⟨writes, rfl⟩
  · exact ⟨a, .inl hmem⟩
  · exact ⟨a, .inr ⟨writes, hmem⟩⟩

end System

/-! ## 3. Authenticity -/

/-- **No row without an event.** In every state that any agents, a server and a network reach by
    any run: what is on the wire was read from the file of a valid event that the run offered to a
    spool; a row of the events table holds what the server decoded of a request for such an event;
    an alert has the id, the time and the fingerprint of one; and a notification is the text
    rendered for one that its own fields route to the channel, with the record of its alert right
    after it was accepted. -/
theorem authentic_of_run [DecidableEq α] (store : ServerEventStore)
    (actions : List (SystemAction α)) :
    let s := (system α store).run actions
    (∀ e ∈ s.requests, ∃ event, Offered actions event ∧ event.Valid ∧ ReadAs event e) ∧
    (∀ row ∈ s.db.events.rows, ∃ event received, Offered actions event ∧ event.Valid ∧
      Carried event received ∧ row.eventId = event.eventId ∧
      row.fingerprint = event.fingerprint ∧ row.payload = received.toString) ∧
    (∀ f alert, s.db.alerts.get? f = some alert → ∃ event, Offered actions event ∧ event.Valid ∧
      event.fingerprint = f ∧ alert.lastEventId = event.eventId ∧
      alert.lastSeen = event.occurredAt) ∧
    (∀ r ∈ s.db.notifications.rows, ∃ event received alert, Offered actions event ∧ event.Valid ∧
      Carried event received ∧ r.eventId = event.eventId ∧ r.fingerprint = event.fingerprint ∧
      store.policy.Routed event r.channel ∧ s.db.RecordAfter received alert ∧
      r.payload = renderEvent received alert store.templates) := by
  intro s
  have htraced : s.Traced (Offered actions) store := System.traced_run store actions
  obtain ⟨arrived, hist, horigin⟩ := htraced.server
  refine ⟨fun e he => ?_, fun row hrow => ?_, fun f alert halert => ?_, fun r hr => ?_⟩
  · obtain ⟨event, ⟨hoffered, hv⟩, hread⟩ := htraced.requests e he
    exact ⟨event, hoffered, hv, hread⟩
  · rw [hist.events] at hrow
    obtain ⟨x, hx, rfl⟩ := List.mem_map.mp hrow
    obtain ⟨event, ⟨hoffered, hv⟩, hcarried⟩ := horigin x hx
    obtain ⟨hid, _, hfp⟩ := Event.same_of_head hcarried.head
    exact ⟨event, x.event, hoffered, hv, hcarried, hid, hfp, rfl⟩
  · rw [hist.alerts] at halert
    obtain ⟨x, hlast, rfl⟩ := Option.map_eq_some_iff.mp halert
    have hmem := List.mem_filter.mp (List.mem_of_getLast? hlast)
    obtain ⟨event, ⟨hoffered, hv⟩, hcarried⟩ := horigin x hmem.1
    have hsame := Event.eq_of_head hcarried.head
    have hevent := alert_of_event x
    refine ⟨event, hoffered, hv, ?_, ?_, ?_⟩
    · rw [← (Event.same_of_head hcarried.head).2.2]
      exact of_decide_eq_true hmem.2
    · rw [hevent.1, (Event.same_of_head hcarried.head).1]
    · rw [hevent.2, hsame]
  · obtain ⟨x, hx, hm⟩ := hist.arrival_of_row hr
    obtain ⟨event, ⟨hoffered, hv⟩, hcarried⟩ := horigin x hx
    obtain ⟨_, c, hrouted, hmessage⟩ := (mem_messagesOf hist.coherent hx).mp hm
    obtain ⟨hid, _, hfp⟩ := Event.same_of_head hcarried.head
    have hch : r.channel = c := (congrArg Message.channel hmessage).symm
    refine ⟨event, x.event, x.alert, hoffered, hv, hcarried, ?_, ?_, ?_,
      recordAfter_of_mem hist.coherent hist.events hx, ?_⟩
    · exact (congrArg Message.eventId hmessage).symm.trans hid
    · exact (congrArg Message.fingerprint hmessage).symm.trans hfp
    · rw [← PolicyCatalog.routed_of_head hcarried.head, hch]
      exact hrouted
    · exact (congrArg Message.payload hmessage).symm

end System

end Beacon
