/-
  File:      Beacon/Server/Chronicle.lean
  Subject:   Runs of the store under changing configurations.

  A server is stopped and started again with another policy file and other templates, on the data
  the last one left. A log is the list of calls with the store each was made on. What the
  configuration decides is which messages an arrival queues, and only at its arrival: the events,
  the alerts and the answers are those of any other configuration, and of no delivery at all.

  * `chronicle_each` -- **every log is a chronicle of its arrivals**: `History` with the store
    of each arrival in place of one store for all;
  * `answer_accept` -- the answer to a call of `accept`, from the events and the alerts alone;
  * `facts_of_log` -- **neither configuration nor delivery shows** in events, alerts and answers.
-/
import Beacon.Server.History

namespace Beacon

open Foundation

/-! ## 1. Logs -/

/-- A call and the store it was made on. -/
abbrev LogEntry := ServerEventStore × Op

variable [Formats]

/-- The tables after a log. -/
def performEach (db : Db) (log : List LogEntry) : Db :=
  log.foldl (fun db entry => (entry.2.perform entry.1 db).2) db

/-- What the calls of a log newly accepted, with the store that did. -/
def arrivalsEach : Db → List LogEntry → List (ServerEventStore × Arrival)
  | _, [] => []
  | db, (store, op) :: log =>
    ((stepOf store db op).arrival?.map (store, ·)).toList ++
      arrivalsEach (op.perform store db).2 log

/-- The answers of the calls of `accept` in a log. -/
def answersEach : Db → List LogEntry → List (Except (Fault StoreError) Answer)
  | _, [] => []
  | db, (store, .accept call) :: log =>
    ((Op.accept call).perform store db).1 ::
      answersEach ((Op.accept call).perform store db).2 log
  | db, (store, op) :: log => answersEach (op.perform store db).2 log

theorem performEach_snoc (db : Db) (log : List LogEntry) (entry : LogEntry) :
    performEach db (log ++ [entry]) = (entry.2.perform entry.1 (performEach db log)).2 := by
  unfold performEach
  rw [List.foldl_append]
  rfl

theorem arrivalsEach_append (db : Db) (log more : List LogEntry) :
    arrivalsEach db (log ++ more) =
      arrivalsEach db log ++ arrivalsEach (performEach db log) more := by
  induction log generalizing db with
  | nil => rfl
  | cons entry log ih =>
    obtain ⟨store, op⟩ := entry
    rw [List.cons_append, arrivalsEach, arrivalsEach, ih, List.append_assoc]
    rfl

/-- Every arrival is of a store of the log. -/
theorem mem_arrivalsEach {db : Db} {log : List LogEntry} {x : ServerEventStore × Arrival}
    (h : x ∈ arrivalsEach db log) : ∃ entry ∈ log, entry.1 = x.1 := by
  induction log generalizing db with
  | nil => cases h
  | cons entry log ih =>
    obtain ⟨store, op⟩ := entry
    rcases List.mem_append.mp h with hone | hmore
    · obtain ⟨a, _, rfl⟩ := Option.map_eq_some_iff.mp (Option.mem_toList.mp hone)
      exact ⟨(store, op), List.mem_cons_self, rfl⟩
    · obtain ⟨entry, hin, hstore⟩ := ih hmore
      exact ⟨entry, List.mem_cons_of_mem _ hin, hstore⟩

/-! ## 2. Chronicles -/

/-- The tables are those of the arrivals `as`, each with the messages of its own store. -/
structure Chronicle (as : List (ServerEventStore × Arrival)) (db : Db) : Prop where
  coherent : Coherent (as.map Prod.snd)
  valid : ∀ x ∈ as, x.2.event.Valid
  events : db.events.rows = as.map fun x => x.2.call.row
  alerts : ∀ f, db.alerts.get? f = alertOf f (as.map Prod.snd)
  messages : db.notifications.messages = as.flatMap fun x => x.1.messagesOf x.2

section Chronicles

variable {as : List (ServerEventStore × Arrival)} {db : Db} {store : ServerEventStore}

theorem chronicle_empty : Chronicle [] Db.empty :=
  ⟨.nil, fun _ h => absurd h List.not_mem_nil, rfl, fun _ => rfl, rfl⟩

/-- Where one store has made all calls, it is a history of that store. -/
theorem History.chronicle {arrived : List Arrival} (h : History store arrived db) :
    Chronicle (arrived.map (store, ·)) db where
  coherent := by
    rw [List.map_map]
    exact (List.map_id arrived).symm ▸ h.coherent
  valid := List.forall_mem_map.mpr h.valid
  events := by
    rw [List.map_map]
    exact h.events
  alerts f := by
    rw [List.map_map]
    exact (List.map_id arrived).symm ▸ h.alerts f
  messages := by
    rw [List.flatMap_map]
    exact h.messages

/-- No arrival has an id that the events table does not hold. -/
theorem Chronicle.fresh_event (h : Chronicle as db) {id : String} :
    db.events.get? id = none ↔ ∀ x ∈ as, x.2.event.eventId ≠ id := by
  rw [Table.get?_eq_none, h.events]
  simp only [List.forall_mem_map]
  rfl

/-- The messages of a new event are new, whatever store the old ones are from. -/
theorem Chronicle.messages_fresh (h : Chronicle as db) {a : Arrival}
    (ha : ∀ x ∈ as, x.2.event.eventId ≠ a.event.eventId) :
    ∀ m ∈ store.messagesOf a, m.key ∉ db.notifications.messages.map Message.key := by
  intro m hm hmem
  rw [h.messages] at hmem
  obtain ⟨n, hn, hkey⟩ := List.mem_map.mp hmem
  obtain ⟨x, hx, hxn⟩ := List.mem_flatMap.mp hn
  refine ha x hx ?_
  rw [← eventId_of_mem_messagesOf hxn, ← eventId_of_mem_messagesOf hm]
  exact (Prod.mk.inj hkey).1

/-- An update of delivery columns is no part of the chronicle. -/
theorem Chronicle.update (h : Chronicle as db) {p : NotificationRow → Bool}
    {f : NotificationRow → NotificationRow} {hf : ∀ r, (f r).fixed = r.fixed} :
    Chronicle as (db.updateNotifications p f hf) where
  coherent := h.coherent
  valid := h.valid
  events := h.events
  alerts := h.alerts
  messages := (db.notifications.messages_updateWhere p f hf).trans h.messages

/-- A new event extends the chronicle by its arrival, with the store that took it. -/
theorem Chronicle.fresh (h : Chronicle as db) {call : AcceptCall} {events : EventTable}
    (hv : call.event.Valid) (hid : db.events.get? call.event.eventId = none)
    (hr : events.rows = db.events.rows ++ [call.row]) :
    Chronicle (as ++ [(store, ⟨call, db.alerts.get? call.event.fingerprint⟩)])
      (store.accepted call db events) := by
  have hnew := h.fresh_event.mp hid
  have hfp : (db.alertAfter call.event).fingerprint = call.event.fingerprint :=
    fingerprint_nextAlert fun alert ha => Table.key_of_get? ha
  constructor
  · rw [List.map_append]
    exact .snoc h.coherent (h.alerts _)
  · intro x hx
    rcases List.mem_append.mp hx with hx | hx
    · exact h.valid x hx
    · rw [List.mem_singleton.mp hx]
      exact hv
  · show events.rows = _
    rw [hr, h.events, List.map_append]
    rfl
  · intro f
    show (db.alerts.upsert (db.alertAfter call.event)).get? f = _
    rw [Table.get?_upsert, hfp, List.map_append, List.map_singleton, alertOf_snoc, h.alerts]
    rfl
  · rw [List.flatMap_append, List.flatMap_singleton, ← h.messages]
    let a : Arrival := ⟨call, db.alerts.get? call.event.fingerprint⟩
    have hkeys : ∀ m ∈ store.messagesOf a, m.key ∉ db.notifications.messages.map Message.key :=
      h.messages_fresh hnew
    exact NotificationTable.messages_insertAll (nodup_messagesOf store a) hkeys

/-- **One call**, on any store. -/
theorem Chronicle.step (h : Chronicle as db) (store : ServerEventStore) (op : Op) :
    Chronicle (as ++ arrivalsEach db [(store, op)]) (op.perform store db).2 := by
  have hone : arrivalsEach db [(store, op)] =
      ((stepOf store db op).arrival?.map (store, ·)).toList := List.append_nil _
  rw [hone]
  unfold Step.arrival? stepOf
  rcases perform_cases store db op with ⟨call, events, rfl, hv, hid, hr, hperf⟩ | ⟨p, f, hf, ha, hdb⟩
  · rw [hperf]
    exact h.fresh hv hid hr
  · simp only [ha, hdb, Option.map_none, Option.toList_none, List.append_nil]
    exact h.update

/-- **Every log is a chronicle of its arrivals.** -/
theorem chronicle_each (log : List LogEntry) :
    Chronicle (arrivalsEach .empty log) (performEach .empty log) := by
  induction log using List.reverseRecOn with
  | nil => exact chronicle_empty
  | append_singleton log entry ih =>
    rw [arrivalsEach_append, performEach_snoc]
    exact ih.step entry.1 entry.2

end Chronicles

/-! ## 3. What no configuration decides -/

/-- The same events and alerts; the jobs may differ. -/
structure Db.Agree (db db' : Db) : Prop where
  events : db.events = db'.events
  alerts : db.alerts = db'.alerts

omit [Formats] in
theorem Db.Agree.trans {db db' db'' : Db} (h : db.Agree db') (h' : db'.Agree db'') :
    db.Agree db'' := ⟨h.events.trans h'.events, h.alerts.trans h'.alerts⟩

/-- The answer to a call of `accept`, from the events and the alerts. -/
def AcceptCall.answer (call : AcceptCall) (db : Db) : Except (Fault StoreError) EventResult :=
  match call.event.validate with
  | .error message => .error (.raised (.invalid message))
  | .ok () =>
    match db.events.get? call.event.eventId with
    | none => .ok ⟨false, db.alertAfter call.event⟩
    | some row =>
      if row.payload ≠ call.event.toString then .error (.raised .eventConflict)
      else match db.alerts.get? call.event.fingerprint with
        | none => .error (.raised .missingAlertState)
        | some alert => .ok ⟨true, alert⟩

section Agreement

variable {db db' : Db} (store store' : ServerEventStore)

theorem answer_accept (call : AcceptCall) (db : Db) :
    ((Op.accept call).perform store db).1 = (call.answer db).map .accepted := by
  have ho := transact_accept store call db
  rw [perform_accept]
  refine congrArg (Except.map Answer.accepted) ?_
  unfold AcceptCall.answer
  revert ho
  generalize Transaction.transact (store.accept call) db = o
  intro ho
  cases ho with
  | invalid message hv => rw [hv]
  | conflict row hv hid hp =>
    have hv' : call.event.validate = .ok () := hv
    simp only [hv', hid, if_pos hp]
  | missing row hv hid hp ha =>
    have hv' : call.event.validate = .ok () := hv
    simp only [hv', hid, hp, ne_eq, not_true_eq_false, if_false, ha]
  | duplicate row alert hv hid hp ha =>
    have hv' : call.event.validate = .ok () := hv
    simp only [hv', hid, hp, ne_eq, not_true_eq_false, if_false, ha]
  | fresh events hv hid hr =>
    have hv' : call.event.validate = .ok () := hv
    simp only [hv', hid]

/-- Only a call of `accept` changes events and alerts. -/
theorem agree_other {op : Op} (hop : ∀ call, op ≠ .accept call) :
    (op.perform store db).2.Agree db := by
  rcases perform_cases store db op with ⟨call, _, rfl, _⟩ | ⟨p, f, hf, _, hdb⟩
  · exact absurd rfl (hop call)
  · rw [hdb]
    exact ⟨rfl, rfl⟩

omit [Formats] in
theorem alertAfter_congr (h : db.Agree db') (event : Event) :
    db.alertAfter event = db'.alertAfter event := by
  unfold Db.alertAfter
  rw [h.alerts]

/-- **A call of `accept` does not look at the configuration or the queue** for its answer, its
    event and its alert. -/
theorem agree_accept (h : db.Agree db') (call : AcceptCall) :
    ((Op.accept call).perform store db).1 = ((Op.accept call).perform store' db').1 ∧
      ((Op.accept call).perform store db).2.Agree ((Op.accept call).perform store' db').2 := by
  constructor
  · rw [answer_accept, answer_accept]
    unfold AcceptCall.answer
    rw [h.events, h.alerts, alertAfter_congr h]
  · rcases perform_accept_tables store db call with ⟨hv, hid, events, hr, hdb⟩ | ⟨hno, hdb⟩ <;>
      rcases perform_accept_tables store' db' call with ⟨hv', hid', events', hr', hdb'⟩ | ⟨hno', hdb'⟩ <;>
      rw [hdb, hdb']
    · have hrows : events = events' := Table.ext (by rw [hr, hr', h.events])
      refine ⟨hrows, ?_⟩
      show db.alerts.upsert _ = db'.alerts.upsert _
      rw [alertAfter_congr h, h.alerts]
    · rw [h.events] at hid
      exact absurd ⟨hv, hid⟩ hno'
    · rw [← h.events] at hid'
      exact absurd ⟨hv', hid'⟩ hno
    · exact h

end Agreement

/-- The calls of `accept` in a log. -/
def acceptCalls (log : List LogEntry) : List AcceptCall :=
  log.filterMap fun entry => match entry.2 with
    | .accept call => some call
    | _ => none

/-- A log and its calls of `accept` alone, all on one store. -/
theorem agree_each {db db' : Db} (h : db.Agree db') (store : ServerEventStore)
    (log : List LogEntry) :
    (performEach db log).Agree (performAll store db' ((acceptCalls log).map .accept)) ∧
      answersEach db log = (trace store db' ((acceptCalls log).map .accept)).map Step.answer := by
  induction log generalizing db db' with
  | nil => exact ⟨h, rfl⟩
  | cons entry log ih =>
    obtain ⟨store₁, op⟩ := entry
    cases op with
    | accept call =>
      obtain ⟨hanswer, hagree⟩ := agree_accept store₁ store h call
      obtain ⟨htables, hanswers⟩ := ih hagree
      exact ⟨htables, congrArg₂ List.cons hanswer hanswers⟩
    | claim now maxAttempts | complete id now | fail id update =>
      exact ih ((agree_other store₁ fun _ e => Op.noConfusion e).trans h)

/-- **Neither configuration nor delivery shows in events, alerts and answers.** Whatever servers
    have made the calls of a log, with whatever policy and templates, and however claims and
    reports of the workers came between: the events, the alerts and the answers to all calls of
    `accept` are those of one server that delivers nothing. -/
theorem facts_of_log (store : ServerEventStore) (log : List LogEntry) :
    let calls := (acceptCalls log).map Op.accept
    (performEach .empty log).events = (performAll store .empty calls).events ∧
      (performEach .empty log).alerts = (performAll store .empty calls).alerts ∧
      answersEach .empty log = (trace store .empty calls).map Step.answer := by
  intro calls
  have hempty : Db.empty.Agree Db.empty := ⟨rfl, rfl⟩
  obtain ⟨⟨hevents, halerts⟩, hanswers⟩ := agree_each hempty store log
  exact ⟨hevents, halerts, hanswers⟩

end Beacon
