/-
  File:      Beacon/Server/Store.lean
  Subject:   The server's event store: accepting an event (`server.rs`).

  `accept` is one deferred SQLite transaction, written here statement by statement: a lookup of
  the event id, then for a known id a comparison of the stored text and a read of the alert,
  for a new id the insert of the event, the transition of its alert and the insert of its
  notification jobs. A store can only be opened with a policy and templates that pass their
  checks; both checks are fields.

  Clock readings are inputs of a call. Every row of the alerts table is kept as the record it
  was written from (`AlertStatus.fromStr_asStr`, `Severity.fromStr_asStr`).

  * `transact_accept` -- **what a call does, in its five ways of ending**.
-/
import Beacon.Foundation.Program
import Beacon.Foundation.Table
import Beacon.Policy
import Beacon.Server.Notifications
import Beacon.Templates

namespace Beacon

open Foundation

/-! ## 1. The database -/

/-- A row of the events table. -/
@[ext] structure EventRow where
  eventId : String
  payload : String
  fingerprint : String
  receivedAt : String
  deriving DecidableEq, Repr

abbrev EventTable := Table String EventRow EventRow.eventId

abbrev AlertTable := Table String AlertRecord AlertRecord.fingerprint

/-- The three tables `accept` and the notification worker use. -/
@[ext] structure Db where
  events : EventTable
  alerts : AlertTable
  notifications : NotificationTable
  deriving DecidableEq

/-- The database as `initialize_database` creates it. -/
def Db.empty : Db := ⟨.empty, .empty, .empty⟩

/-- Why a call ended without an answer. `panicked` is a call that never returned. -/
inductive StoreError where
  | invalid (message : String)
  | eventConflict
  | missingAlertState
  | panicked
  deriving DecidableEq, Repr

/-- The texts of the errors the store names itself. -/
def StoreError.message : StoreError → String
  | .invalid message => message
  | .eventConflict => "event_id already exists with a different payload"
  | .missingAlertState => "event_id was accepted but its alert state is missing"
  | .panicked => ""

structure EventResult where
  duplicate : Bool
  alert : AlertRecord
  deriving DecidableEq, Repr

/-- An open store. -/
structure ServerEventStore where
  policy : PolicyCatalog
  templates : MessageTemplates
  policy_valid : policy.validate = .ok ()
  templates_valid : templates.validate = .ok ()

/-- The checks `open_with_policy_and_templates` makes before it opens anything. -/
def ServerEventStore.openWithPolicyAndTemplates (policy : PolicyCatalog)
    (templates : MessageTemplates) : Except String ServerEventStore :=
  match hp : policy.validate with
  | .error e => .error e
  | .ok () => match ht : templates.validate with
    | .error e => .error e
    | .ok () => .ok ⟨policy, templates, hp, ht⟩

/-- One call of `accept` with the two readings of the clock it makes. -/
@[ext] structure AcceptCall where
  event : Event
  receivedAt : DateTime
  queuedAt : DateTime

/-! ## 2. The alert of a fingerprint -/

def newAlert (event : Event) (status : AlertStatus) : AlertRecord :=
  { fingerprint := event.fingerprint
    status := status
    severity := event.severity
    eventType := event.eventType
    source := event.source
    hostId := event.hostId
    openedAt := event.occurredAt
    lastSeen := event.occurredAt
    resolvedAt := if event.state = .resolved then some event.occurredAt else none
    eventCount := 1
    lastEventId := event.eventId }

/-- The match of `transition_alert`: the record after `event`, from the record before it. -/
def nextAlert (existing : Option AlertRecord) (event : Event) : AlertRecord :=
  match event.state, existing with
  | .firing, some alert =>
    if alert.status = .firing then
      { alert with
        severity := event.severity
        eventType := event.eventType
        source := event.source
        hostId := event.hostId
        lastSeen := event.occurredAt
        resolvedAt := none
        eventCount := alert.eventCount + 1
        lastEventId := event.eventId }
    else
      { alert with
        status := .firing
        severity := event.severity
        eventType := event.eventType
        source := event.source
        hostId := event.hostId
        openedAt := event.occurredAt
        lastSeen := event.occurredAt
        resolvedAt := none
        eventCount := 1
        lastEventId := event.eventId }
  | .firing, none => newAlert event .firing
  | .resolved, some alert =>
    { alert with
      status := .resolved
      severity := event.severity
      lastSeen := event.occurredAt
      resolvedAt := some event.occurredAt
      eventCount := alert.eventCount + 1
      lastEventId := event.eventId }
  | .resolved, none => newAlert event .resolved
  | .info, some alert =>
    if alert.status = .firing then
      { alert with
        lastSeen := event.occurredAt
        eventCount := alert.eventCount + 1
        lastEventId := event.eventId }
    else
      { alert with
        status := .info
        severity := event.severity
        eventType := event.eventType
        source := event.source
        hostId := event.hostId
        lastSeen := event.occurredAt
        resolvedAt := none
        eventCount := alert.eventCount + 1
        lastEventId := event.eventId }
  | .info, none => newAlert event .info

/-- A record keeps the fingerprint it was opened for. -/
theorem fingerprint_nextAlert {existing : Option AlertRecord} {event : Event}
    (h : ∀ a ∈ existing, a.fingerprint = event.fingerprint) :
    (nextAlert existing event).fingerprint = event.fingerprint := by
  cases existing with
  | none => cases hs : event.state <;> simp only [nextAlert, hs] <;> rfl
  | some alert =>
    have ha : alert.fingerprint = event.fingerprint := h alert rfl
    cases hs : event.state with
    | firing =>
      simp only [nextAlert, hs]
      split <;> exact ha
    | resolved =>
      simp only [nextAlert, hs]
      exact ha
    | info =>
      simp only [nextAlert, hs]
      split <;> exact ha

def loadAlert (fingerprint : String) : Prog Db StoreError (Option AlertRecord) :=
  Prog.ask fun db => db.alerts.get? fingerprint

def saveAlert (alert : AlertRecord) : Prog Db StoreError Unit :=
  Prog.write fun db => { db with alerts := db.alerts.upsert alert }

def transitionAlert (event : Event) : Prog Db StoreError AlertRecord := do
  let existing ← loadAlert event.fingerprint
  let alert := nextAlert existing event
  saveAlert alert
  pure alert

/-! ## 3. Notification jobs -/

/-- The message of `event` for one channel. -/
def messageFor (event : Event) (alert : AlertRecord) (templates : MessageTemplates)
    (channel : String) : Message :=
  { eventId := event.eventId
    fingerprint := event.fingerprint
    channel := channel
    payload := renderEvent event alert templates }

/-- One `INSERT OR IGNORE INTO notifications`. -/
def Db.enqueue (db : Db) (message : Message) (nextAttemptAt : String) : Db :=
  { db with notifications := db.notifications.insertOrIgnore message nextAttemptAt }

def enqueueNotifications (event : Event) (alert : AlertRecord) (channels : List String)
    (templates : MessageTemplates) (now : DateTime) : Prog Db StoreError Unit :=
  Prog.forEach (fun channel => Prog.write fun db =>
    db.enqueue (messageFor event alert templates channel) now.toRfc3339) channels

/-! ## 4. Accept -/

/-- The row `accept` inserts. -/
def AcceptCall.row (call : AcceptCall) : EventRow :=
  { eventId := call.event.eventId
    payload := call.event.toString
    fingerprint := call.event.fingerprint
    receivedAt := call.receivedAt.toRfc3339 }

/-- `INSERT INTO events`, refused on a taken primary key. -/
def Db.insertEvent (db : Db) (row : EventRow) : Option Db :=
  (db.events.insert row).map fun events => { db with events := events }

/-- The decision to notify: it looks at the state of the event and at the event count. -/
def announces (event : Event) (alert : AlertRecord) : Bool :=
  event.state ≠ .firing || alert.eventCount = 1

/-- The text of `ServerEventStore::accept`. -/
def ServerEventStore.accept [Formats] (store : ServerEventStore) (call : AcceptCall) :
    Prog Db StoreError (Ending EventResult) :=
  match call.event.validate with
  | .error message => Prog.raise (.invalid message)
  | .ok () => do
    let payload := call.event.toString
    let existing ← Prog.ask fun db => (db.events.get? call.event.eventId).map EventRow.payload
    match existing with
    | some existingPayload =>
      if existingPayload ≠ payload then Prog.raise .eventConflict
      else do
        let found ← loadAlert call.event.fingerprint
        let alert ← Prog.orRaise .missingAlertState found
        pure (.rollback ⟨true, alert⟩)
    | none => do
      Prog.update fun db => db.insertEvent call.row
      let alert ← transitionAlert call.event
      if announces call.event alert then
        enqueueNotifications call.event alert (store.policy.channelsFor call.event) store.templates
          call.queuedAt
      pure (.commit ⟨false, alert⟩)

/-- The alert `accept` writes for a new event. -/
def Db.alertAfter (db : Db) (event : Event) : AlertRecord :=
  nextAlert (db.alerts.get? event.fingerprint) event

/-- The messages `accept` queues for a new event. -/
def ServerEventStore.messagesFor (store : ServerEventStore) (event : Event) (alert : AlertRecord) :
    List Message :=
  if announces event alert then
    (store.policy.channelsFor event).map (messageFor event alert store.templates)
  else []

/-- The tables after a new event: its row, its alert, its jobs. -/
def ServerEventStore.accepted (store : ServerEventStore) (call : AcceptCall) (db : Db)
    (events : EventTable) : Db :=
  let alert := db.alertAfter call.event
  { events := events
    alerts := db.alerts.upsert alert
    notifications := db.notifications.insertAll (store.messagesFor call.event alert)
      call.queuedAt.toRfc3339 }

/-- How one call of `accept` on `db` ends. -/
inductive ServerEventStore.Outcome [Formats] (store : ServerEventStore) (call : AcceptCall)
    (db : Db) : Except (Fault StoreError) EventResult × Db → Prop
  | invalid (message : String) (h : call.event.validate = .error message) :
      Outcome store call db (.error (.raised (.invalid message)), db)
  | conflict (row : EventRow) (hv : call.event.Valid)
      (h : db.events.get? call.event.eventId = some row) (hp : row.payload ≠ call.event.toString) :
      Outcome store call db (.error (.raised .eventConflict), db)
  | missing (row : EventRow) (hv : call.event.Valid)
      (h : db.events.get? call.event.eventId = some row) (hp : row.payload = call.event.toString)
      (ha : db.alerts.get? call.event.fingerprint = none) :
      Outcome store call db (.error (.raised .missingAlertState), db)
  | duplicate (row : EventRow) (alert : AlertRecord) (hv : call.event.Valid)
      (h : db.events.get? call.event.eventId = some row) (hp : row.payload = call.event.toString)
      (ha : db.alerts.get? call.event.fingerprint = some alert) :
      Outcome store call db (.ok ⟨true, alert⟩, db)
  | fresh (events : EventTable) (hv : call.event.Valid)
      (h : db.events.get? call.event.eventId = none)
      (hr : events.rows = db.events.rows ++ [call.row]) :
      Outcome store call db (.ok ⟨false, db.alertAfter call.event⟩, store.accepted call db events)

/-! ## 5. What a call does -/

section Accept

variable [Formats] {store : ServerEventStore} {call : AcceptCall} {db : Db}

omit [Formats] in
theorem foldl_enqueue (event : Event) (alert : AlertRecord) (templates : MessageTemplates)
    (at' : String) (channels : List String) (db : Db) :
    channels.foldl (fun db channel => db.enqueue (messageFor event alert templates channel) at') db =
      { db with
        notifications :=
          db.notifications.insertAll (channels.map (messageFor event alert templates)) at' } := by
  induction channels generalizing db with
  | nil => rfl
  | cons c l ih => exact ih _

omit [Formats] in
theorem run_transitionAlert (event : Event) (db : Db) :
    (transitionAlert event).run db =
      .ok (db.alertAfter event, { db with alerts := db.alerts.upsert (db.alertAfter event) }) := by
  simp only [transitionAlert, loadAlert, saveAlert, Prog.run_bind, Prog.run_ask, Prog.run_write,
    Prog.run_pure, Except.bind]
  rfl

omit [Formats] in
theorem run_enqueueNotifications (event : Event) (alert : AlertRecord) (channels : List String)
    (templates : MessageTemplates) (now : DateTime) (db : Db) :
    (enqueueNotifications event alert channels templates now).run db =
      .ok ((), { db with
        notifications := db.notifications.insertAll (channels.map (messageFor event alert templates))
          now.toRfc3339 }) := by
  rw [enqueueNotifications, Prog.run_forEach, foldl_enqueue]

theorem run_accept_known {row : EventRow} (hv : call.event.Valid)
    (h : db.events.get? call.event.eventId = some row) :
    (store.accept call).run db =
      if row.payload ≠ call.event.toString then .error (.raised .eventConflict)
      else match db.alerts.get? call.event.fingerprint with
        | none => .error (.raised .missingAlertState)
        | some alert => .ok (.rollback ⟨true, alert⟩, db) := by
  have hv' : call.event.validate = .ok () := hv
  simp only [ServerEventStore.accept, hv', Prog.run_bind, Prog.run_ask, h, Option.map_some,
    Except.bind]
  split
  · rfl
  · simp only [loadAlert, Prog.run_bind, Prog.run_ask, Except.bind]
    cases db.alerts.get? call.event.fingerprint <;> rfl

theorem run_accept_new {db' : Db} (hv : call.event.Valid)
    (h : db.events.get? call.event.eventId = none) (hi : db.insertEvent call.row = some db') :
    (store.accept call).run db =
      .ok (.commit ⟨false, db'.alertAfter call.event⟩, store.accepted call db' db'.events) := by
  have hv' : call.event.validate = .ok () := hv
  have hu : (Prog.update fun db => db.insertEvent call.row : Prog Db StoreError Unit).run db =
      .ok ((), db') := Prog.run_update_some hi
  simp only [ServerEventStore.accept, hv', Prog.run_bind, Prog.run_ask, h, Option.map_none,
    Except.bind, hu, run_transitionAlert]
  unfold ServerEventStore.accepted ServerEventStore.messagesFor
  cases ha : announces call.event (db'.alertAfter call.event) with
  | true =>
    simp only [ha, if_true, Prog.run_bind, run_enqueueNotifications, Except.bind]
    rfl
  | false =>
    simp only [ha, Bool.false_eq_true, if_false]
    rfl

/-- **What a call of `accept` does**: it ends in one of five ways, and only a new event changes
    the tables. -/
theorem transact_accept (store : ServerEventStore) (call : AcceptCall) (db : Db) :
    store.Outcome call db (Transaction.transact (store.accept call) db) := by
  cases hv : call.event.validate with
  | error m =>
    have hrun : (store.accept call).run db = .error (.raised (.invalid m)) := by
      simp only [ServerEventStore.accept, hv, Prog.run_raise]
    rw [Transaction.transact_error hrun]
    exact .invalid m hv
  | ok _ =>
    cases h : db.events.get? call.event.eventId with
    | some row =>
      have hrun : (store.accept call).run db = _ := run_accept_known hv h
      by_cases hp : row.payload = call.event.toString
      · rw [if_neg (Classical.not_not.mpr hp)] at hrun
        cases ha : db.alerts.get? call.event.fingerprint with
        | none =>
          rw [ha] at hrun
          rw [Transaction.transact_error hrun]
          exact .missing row hv h hp ha
        | some alert =>
          rw [ha] at hrun
          rw [Transaction.transact_rollback hrun]
          exact .duplicate row alert hv h hp ha
      · rw [if_pos hp] at hrun
        rw [Transaction.transact_error hrun]
        exact .conflict row hv h hp
    | none =>
      obtain ⟨events, hins, hrows⟩ := Table.insert_of_fresh (r := call.row) h
      have hi : db.insertEvent call.row = some { db with events := events } := by
        rw [Db.insertEvent, hins, Option.map_some]
      rw [Transaction.transact_commit (run_accept_new hv h hi)]
      exact .fresh events hv h hrows

end Accept

/-! ## 6. Sample stores -/

namespace Sample

/-- A store that routes nothing. -/
def silentStore : ServerEventStore where
  policy := {}
  templates := {}
  policy_valid := PolicyCatalog.validate_default
  templates_valid := MessageTemplates.validate_default

def allRule : PolicyRule := { name := "all", channels := ["telegram"] }

def criticalRule : PolicyRule :=
  { name := "critical", severity := some .critical, channels := ["telegram"] }

/-- A store that routes everything to one channel. -/
def telegramStore : ServerEventStore where
  policy := ⟨[allRule]⟩
  templates := {}
  policy_valid := by decide
  templates_valid := MessageTemplates.validate_default

/-- A store that routes critical events only. -/
def criticalStore : ServerEventStore where
  policy := ⟨[criticalRule]⟩
  templates := {}
  policy_valid := by decide
  templates_valid := MessageTemplates.validate_default

def call (event : Event) : AcceptCall := ⟨event, ⟨1767225601000000000⟩, ⟨1767225601000000000⟩⟩

end Sample

end Beacon
