/-
  File:      Beacon/Server/History.lean
  Subject:   Runs of the store and what they leave in the tables.

  A run is a list of calls made one after the other, of `accept` and of the notification worker
  in any order. Its trace keeps every call with the tables before and after it, and its arrivals
  are the events it newly accepted, read off the answers. `History` is the refinement: it says
  what the three tables are, as functions of the arrivals alone.

  * `history_step`, `history_run` -- **every run is a history of its arrivals**;
  * `history_calls` -- of events with distinct ids those arrive that the table does not hold.
-/
import Mathlib.Data.List.Induction
import Beacon.Server.Lifecycle
import Beacon.Server.Queue

namespace Beacon

open Foundation

/-! ## 1. Runs -/

/-- A call in a run. -/
structure Step where
  op : Op
  before : Db
  answer : Except (Fault StoreError) Answer
  after : Db

variable [Formats]

/-- The call `op` made on `db`. -/
def stepOf (store : ServerEventStore) (db : Db) (op : Op) : Step :=
  ⟨op, db, (op.perform store db).1, (op.perform store db).2⟩

/-- The tables after a run. -/
def performAll (store : ServerEventStore) (db : Db) (ops : List Op) : Db :=
  ops.foldl (fun db op => (op.perform store db).2) db

/-- The calls of a run, with the tables around each of them. -/
def trace (store : ServerEventStore) : Db → List Op → List Step
  | _, [] => []
  | db, op :: ops => stepOf store db op :: trace store (op.perform store db).2 ops

omit [Formats] in
/-- What a call newly accepted, and the alert it found. -/
def Step.arrival? (s : Step) : Option Arrival :=
  match tookEvent s.answer, s.op with
  | true, .accept call => some ⟨call, s.before.alerts.get? call.event.fingerprint⟩
  | _, _ => none

/-- The arrivals of a run from the empty store, in commit order. -/
def arrivals (store : ServerEventStore) (ops : List Op) : List Arrival :=
  (trace store .empty ops).filterMap Step.arrival?

section Runs

variable (store : ServerEventStore)

theorem performAll_snoc (db : Db) (ops : List Op) (op : Op) :
    performAll store db (ops ++ [op]) = (op.perform store (performAll store db ops)).2 := by
  unfold performAll
  rw [List.foldl_append]
  rfl

theorem performAll_append (db : Db) (ops more : List Op) :
    performAll store db (ops ++ more) = performAll store (performAll store db ops) more :=
  List.foldl_append

theorem trace_append (db : Db) (ops more : List Op) :
    trace store db (ops ++ more) = trace store db ops ++ trace store (performAll store db ops) more := by
  induction ops generalizing db with
  | nil => rfl
  | cons op ops ih =>
    rw [List.cons_append, trace, trace, ih]
    rfl

theorem arrivals_snoc (ops : List Op) (op : Op) :
    arrivals store (ops ++ [op]) =
      arrivals store ops ++ (stepOf store (performAll store .empty ops) op).arrival?.toList := by
  unfold arrivals
  rw [trace_append, List.filterMap_append]
  show _ ++ List.filterMap Step.arrival? [stepOf store (performAll store .empty ops) op] = _
  cases h : (stepOf store (performAll store .empty ops) op).arrival? with
  | none => rw [List.filterMap_cons_none h]; rfl
  | some a => rw [List.filterMap_cons_some h]; rfl

end Runs

/-! ## 2. Histories -/

/-- The messages an arrival queues. -/
def ServerEventStore.messagesOf (store : ServerEventStore) (a : Arrival) : List Message :=
  store.messagesFor a.event a.alert

omit [Formats] in
theorem eventId_of_mem_messagesOf {store : ServerEventStore} {a : Arrival} {m : Message}
    (h : m ∈ store.messagesOf a) : m.eventId = a.event.eventId := by
  unfold ServerEventStore.messagesOf ServerEventStore.messagesFor at h
  split at h
  · obtain ⟨c, _, rfl⟩ := List.mem_map.mp h
    rfl
  · cases h

omit [Formats] in
theorem nodup_messagesOf (store : ServerEventStore) (a : Arrival) :
    ((store.messagesOf a).map Message.key).Nodup := by
  unfold ServerEventStore.messagesOf ServerEventStore.messagesFor
  split
  · rw [List.map_map]
    refine (PolicyCatalog.nodup_channelsFor store.policy a.event).map fun c d e => ?_
    exact (Prod.mk.inj e).2
  · exact List.nodup_nil

/-- The tables are those of the arrivals `as`. -/
structure History (store : ServerEventStore) (as : List Arrival) (db : Db) : Prop where
  coherent : Coherent as
  valid : ∀ a ∈ as, a.event.Valid
  events : db.events.rows = as.map fun a => a.call.row
  alerts : ∀ f, db.alerts.get? f = alertOf f as
  messages : db.notifications.messages = as.flatMap store.messagesOf

/-- The record of the alert right after `received` was accepted: the lifecycle of the events that
    stand in the table up to it, in the order they were accepted. -/
def Db.RecordAfter (db : Db) (received : Event) (alert : AlertRecord) : Prop :=
  ∃ before after : List Event,
    db.events.rows.map EventRow.payload = (before ++ received :: after).map Event.toString ∧
      lifecycle received.fingerprint (before ++ [received]) = some alert

section Histories

variable {store : ServerEventStore} {as : List Arrival} {db : Db}

omit [Formats] in
/-- What an arrival left is the record after its event. -/
theorem recordAfter_of_mem (hc : Coherent as) (hrows : db.events.rows = as.map fun a => a.call.row)
    {a : Arrival} (ha : a ∈ as) : db.RecordAfter a.event a.alert := by
  obtain ⟨before, after, rfl⟩ := List.append_of_mem ha
  refine ⟨before.map Arrival.event, after.map Arrival.event, ?_, ?_⟩
  · rw [hrows, List.map_map, ← List.map_cons, ← List.map_append, List.map_map]
    rfl
  · have hto : Coherent (before ++ [a]) := by
      rw [← List.singleton_append, ← List.append_assoc] at hc
      exact coherent_init hc
    obtain ⟨hbefore, hfound⟩ := coherent_snoc.mp hto
    rw [lifecycle_snoc, if_pos rfl, ← alertOf_eq_lifecycle hbefore, ← hfound]
    rfl

theorem history_empty : History store [] Db.empty :=
  ⟨.nil, fun _ h => absurd h List.not_mem_nil, rfl, fun _ => rfl, rfl⟩

/-- The ids of accepted events are distinct. -/
theorem History.ids_nodup (h : History store as db) :
    (as.map fun a => a.event.eventId).Nodup := by
  have hn := db.events.nodup
  rw [h.events, List.map_map] at hn
  exact hn

/-- An event id is known to the table exactly when an arrival has it. -/
theorem History.get?_event (h : History store as db) {id : String} {row : EventRow} :
    db.events.get? id = some row ↔ ∃ a ∈ as, a.event.eventId = id ∧ row = a.call.row := by
  rw [Table.get?_eq_some, h.events, List.mem_map]
  constructor
  · rintro ⟨⟨a, ha, rfl⟩, hid⟩
    exact ⟨a, ha, hid, rfl⟩
  · rintro ⟨a, ha, hid, rfl⟩
    exact ⟨⟨a, ha, rfl⟩, hid⟩

theorem History.fresh_event (h : History store as db) {id : String} :
    db.events.get? id = none ↔ ∀ a ∈ as, a.event.eventId ≠ id := by
  rw [Table.get?_eq_none, h.events]
  simp only [List.forall_mem_map]
  rfl

/-- The arrival with an id is unique. -/
theorem History.eq_of_id (h : History store as db) {a b : Arrival} (ha : a ∈ as) (hb : b ∈ as)
    (e : a.event.eventId = b.event.eventId) : a = b :=
  List.inj_on_of_nodup_map h.ids_nodup ha hb e

/-- The alert of a known event is there. -/
theorem History.alert_of_mem (h : History store as db) {a : Arrival} (ha : a ∈ as) :
    ∃ alert, db.alerts.get? a.event.fingerprint = some alert := by
  rw [h.alerts]
  have hmem : a ∈ ofFingerprint a.event.fingerprint as := by
    rw [ofFingerprint, List.mem_filter]
    exact ⟨ha, decide_eq_true rfl⟩
  cases hl : (ofFingerprint a.event.fingerprint as).getLast? with
  | none =>
    rw [List.getLast?_eq_none_iff] at hl
    rw [hl] at hmem
    cases hmem
  | some last => exact ⟨last.alert, by rw [alertOf, hl]; rfl⟩

/-- An update of delivery columns is no part of the history. -/
theorem history_update (h : History store as db) {p : NotificationRow → Bool}
    {f : NotificationRow → NotificationRow} {hf : ∀ r, (f r).fixed = r.fixed} :
    History store as (db.updateNotifications p f hf) where
  coherent := h.coherent
  valid := h.valid
  events := h.events
  alerts := h.alerts
  messages := by
    rw [← h.messages]
    exact db.notifications.messages_updateWhere p f hf

/-- The messages of a new event are new. -/
theorem History.messages_fresh (h : History store as db) {a : Arrival}
    (ha : ∀ b ∈ as, b.event.eventId ≠ a.event.eventId) :
    ∀ m ∈ store.messagesOf a, m.key ∉ db.notifications.messages.map Message.key := by
  intro m hm hmem
  rw [h.messages] at hmem
  obtain ⟨x, hx, e⟩ := List.mem_map.mp hmem
  obtain ⟨b, hb, hxb⟩ := List.mem_flatMap.mp hx
  refine ha b hb ?_
  rw [← eventId_of_mem_messagesOf hxb, ← eventId_of_mem_messagesOf hm]
  exact (Prod.mk.inj e).1

/-- A new event extends the history by its arrival. -/
theorem history_fresh (h : History store as db) {call : AcceptCall} {events : EventTable}
    (hv : call.event.Valid) (hid : db.events.get? call.event.eventId = none)
    (hr : events.rows = db.events.rows ++ [call.row]) :
    History store (as ++ [⟨call, db.alerts.get? call.event.fingerprint⟩])
      (store.accepted call db events) := by
  have hnew := h.fresh_event.mp hid
  refine ⟨.snoc h.coherent (h.alerts _), ?_, ?_, ?_, ?_⟩
  · intro a ha
    rcases List.mem_append.mp ha with ha | ha
    · exact h.valid a ha
    · rw [List.mem_singleton.mp ha]
      exact hv
  · show events.rows = _
    rw [hr, h.events, List.map_append, List.map_singleton]
  · intro f
    show (db.alerts.upsert (db.alertAfter call.event)).get? f = _
    have hfp : (db.alertAfter call.event).fingerprint = call.event.fingerprint :=
      fingerprint_nextAlert fun alert ha => Table.key_of_get? ha
    rw [Table.get?_upsert, hfp, alertOf_snoc, h.alerts]
    rfl
  · rw [List.flatMap_append, List.flatMap_singleton, ← h.messages]
    exact NotificationTable.messages_insertAll
      (nodup_messagesOf store ⟨call, db.alerts.get? call.event.fingerprint⟩)
      (h.messages_fresh (a := ⟨call, db.alerts.get? call.event.fingerprint⟩) hnew)

/-- **One call**: the history grows by what the call newly accepted. -/
theorem history_step (h : History store as db) (op : Op) :
    History store (as ++ (stepOf store db op).arrival?.toList) (op.perform store db).2 := by
  unfold Step.arrival? stepOf
  rcases perform_cases store db op with ⟨call, events, rfl, hv, hid, hr, hperf⟩ | ⟨p, f, hf, ha, hdb⟩
  · rw [hperf]
    exact history_fresh h hv hid hr
  · simp only [ha, hdb, Option.toList_none, List.append_nil]
    exact history_update h

/-- **The alert of an accepted event is never missing.** -/
theorem History.not_missing (h : History store as db) (op : Op) :
    (op.perform store db).1 ≠ .error (.raised .missingAlertState) := by
  intro hm
  cases op with
  | accept call =>
    have ho := transact_accept store call db
    rw [perform_accept] at hm
    revert hm ho
    generalize Transaction.transact (store.accept call) db = o
    intro hm ho
    cases ho with
    | invalid m hv => cases hm
    | conflict row hv hid hp => cases hm
    | duplicate row alert hv hid hp ha => cases hm
    | fresh events hv hid hr => cases hm
    | missing row hv hid hp ha =>
      -- the stored text has the fingerprint of the call, and its alert exists
      obtain ⟨a, hmem, _, rfl⟩ := h.get?_event.mp hid
      obtain ⟨alert, hal⟩ := h.alert_of_mem hmem
      have hfp : a.event.fingerprint = call.event.fingerprint := Event.fingerprint_of_toString hp
      rw [hfp, ha] at hal
      cases hal
  | claim now maxAttempts =>
    rw [perform_claim] at hm
    cases hd : db.firstDue maxAttempts now with
    | none => rw [hd] at hm; cases hm
    | some row => rw [hd] at hm; cases hm
  | complete id now =>
    rw [perform_complete] at hm
    cases hm
  | fail id update =>
    rw [perform_fail] at hm
    cases hn : update.nextAttemptAt with
    | none => rw [hn] at hm; cases hm
    | some next => rw [hn] at hm; cases hm

end Histories

/-- **Every run is a history of its arrivals.** -/
theorem history_run (store : ServerEventStore) (ops : List Op) :
    History store (arrivals store ops) (performAll store .empty ops) := by
  induction ops using List.reverseRecOn with
  | nil => exact history_empty
  | append_singleton ops op ih =>
    rw [arrivals_snoc, performAll_snoc]
    exact history_step ih op

/-- Every call of a trace was made on the tables some first part of the run had left. -/
theorem mem_trace {store : ServerEventStore} {db : Db} {ops : List Op} {s : Step}
    (h : s ∈ trace store db ops) :
    ∃ pre op post, ops = pre ++ op :: post ∧ s = stepOf store (performAll store db pre) op := by
  induction ops generalizing db with
  | nil => cases h
  | cons op ops ih =>
    rcases List.mem_cons.mp h with rfl | h
    · exact ⟨[], op, ops, rfl, rfl⟩
    · obtain ⟨pre, op', post, rfl, hs⟩ := ih h
      exact ⟨op :: pre, op', post, rfl, hs⟩

/-- No run answers that an alert is missing. -/
theorem missing_never {store : ServerEventStore} {ops : List Op} {s : Step}
    (h : s ∈ trace store .empty ops) : s.answer ≠ .error (.raised .missingAlertState) := by
  obtain ⟨pre, op, _, _, rfl⟩ := mem_trace h
  exact (history_run store pre).not_missing op

/-! ## 3. Accepting events with distinct ids -/

/-- A valid event is newly accepted exactly when its id is not in the events table. -/
theorem arrival_accept (store : ServerEventStore) (db : Db) {call : AcceptCall}
    (hv : call.event.Valid) :
    (stepOf store db (.accept call)).arrival? =
      if (db.events.get? call.event.eventId).isNone then
        some ⟨call, db.alerts.get? call.event.fingerprint⟩ else none := by
  have ho := transact_accept store call db
  unfold stepOf
  rw [perform_accept]
  revert ho
  generalize Transaction.transact (store.accept call) db = o
  intro ho
  cases ho with
  | invalid m h => rw [Event.Valid, h] at hv; cases hv
  | conflict row _ h _ => rw [h]; rfl
  | missing row _ h _ _ => rw [h]; rfl
  | duplicate row alert _ h _ _ => rw [h]; rfl
  | fresh events _ h _ => rw [h]; rfl

/-- Of valid events with distinct ids, those are newly accepted whose ids are not in the table. -/
theorem history_calls {store : ServerEventStore} {as : List Arrival} {db : Db}
    (h : History store as db) (calls : List AcceptCall) (hv : ∀ c ∈ calls, c.event.Valid)
    (hn : (calls.map fun c => c.event.eventId).Nodup) :
    ∃ bs, History store (as ++ bs) (performAll store db (calls.map .accept)) ∧
      bs.map Arrival.event =
        (calls.map AcceptCall.event).filter fun e => (db.events.get? e.eventId).isNone := by
  induction calls generalizing as db with
  | nil => exact ⟨[], by rw [List.append_nil]; exact h, rfl⟩
  | cons call calls ih =>
    obtain ⟨hnew, hn⟩ := List.nodup_cons.mp hn
    let first := (stepOf store db (.accept call)).arrival?.toList
    have hfirst : first.map Arrival.event =
        [call.event].filter fun e => (db.events.get? e.eventId).isNone := by
      simp only [first, arrival_accept store db (hv call List.mem_cons_self)]
      split <;> rename_i hs <;> simp [hs, Arrival.event]
    have hstep : History store (as ++ first) (Op.perform store (.accept call) db).2 :=
      history_step h (.accept call)
    obtain ⟨bs, hbs, hmap⟩ := ih hstep (fun c hc => hv c (List.mem_cons_of_mem _ hc)) hn
    refine ⟨first ++ bs, by rw [← List.append_assoc]; exact hbs, ?_⟩
    have hcons : (call :: calls).map AcceptCall.event =
        [call.event] ++ calls.map AcceptCall.event := rfl
    rw [List.map_append, hmap, hfirst, hcons, List.filter_append]
    refine congrArg _ (List.filter_congr fun e he => ?_)
    obtain ⟨c, hc, rfl⟩ := List.mem_map.mp he
    rw [get?_event_accept store db fun hid => hnew (List.mem_map.mpr ⟨c, hc, hid.symm⟩)]

/-- Valid events with distinct ids are all newly accepted. -/
theorem arrivals_of_fresh (store : ServerEventStore) (calls : List AcceptCall)
    (hv : ∀ c ∈ calls, c.event.Valid) (hn : (calls.map fun c => c.event.eventId).Nodup) :
    (arrivals store (calls.map .accept)).map Arrival.call = calls := by
  induction calls using List.reverseRecOn with
  | nil => rfl
  | append_singleton calls call ih =>
    rw [List.map_append, List.nodup_append] at hn
    have ih := ih (fun c hc => hv c (List.mem_append_left _ hc)) hn.1
    have hist := history_run store (calls.map .accept)
    have hid : (performAll store .empty (calls.map .accept)).events.get? call.event.eventId = none := by
      rw [hist.fresh_event]
      intro a ha e
      have hmem : a.call ∈ calls := by
        rw [← ih]
        exact List.mem_map_of_mem ha
      exact hn.2.2 _ (List.mem_map_of_mem hmem) _ (List.mem_singleton_self _) e
    rw [List.map_append, List.map_singleton, arrivals_snoc, List.map_append, ih,
      arrival_accept store _ (hv call (List.mem_append_right _ (List.mem_singleton_self _))), hid]
    rfl

/-- The arrivals of such a run are known from its calls. -/
theorem arrivals_eq (store : ServerEventStore) (calls : List AcceptCall)
    (hv : ∀ c ∈ calls, c.event.Valid) (hn : (calls.map fun c => c.event.eventId).Nodup) :
    arrivals store (calls.map .accept) = arriveAll calls := by
  have h := coherent_eq (history_run store (calls.map .accept)).coherent
  rwa [arrivals_of_fresh store calls hv hn] at h

end Beacon
