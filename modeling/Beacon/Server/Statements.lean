/-
  File:      Beacon/Server/Statements.lean
  Subject:   The statements of the store, over rows of cells (`server.rs`).

  What the other modules say of the store they say of records. Here every statement is the one of
  the source: it names its columns, compares cells, converts the rows it reads, and can be refused
  for a column that is missing, a row that does not convert, a NULL or a key. None ever is, and
  what the calls answer and leave is what the records say.

  * `accept_refines`, `claim_refines`, `complete_refines`, `fail_refines` -- statement by statement;
  * `listAlerts_reads` -- the query;
  * `rows_of_log` -- **the tables of cells refine the tables of records**, over every log and from
    every file an earlier server left.
-/
import Beacon.Foundation.Refinement
import Beacon.Server.Chronicle
import Beacon.Server.Http
import Beacon.Server.Schema

namespace Beacon

open Foundation
open SqlTable (Shows Stores Writes KeyedBy Full)

namespace Sql

/-! ## 1. The statements -/

/-- `query_row` with `optional`. -/
def queryRow {α : Type} (decode : SqlRecord → Option α) : List SqlRecord → Option (Option α)
  | [] => some none
  | row :: _ => (decode row).map some

def alertColumns : List String := ["fingerprint", "status", "severity", "event_type", "source",
  "host_id", "opened_at", "last_seen", "resolved_at", "event_count", "last_event_id"]

def loadAlert (fingerprint : String) : Prog Database StoreError (Option AlertRecord) :=
  Prog.fetch .panicked fun sql =>
    (sql.alerts.select alertColumns fun row => (row "fingerprint").eq (.text fingerprint)).bind
      (queryRow alertFromRow)

def saveAlert (alert : AlertRecord) : Prog Database StoreError Unit :=
  Prog.update fun sql => (sql.alerts.upsert
    [("fingerprint", .text alert.fingerprint), ("status", .text alert.status.asStr),
      ("severity", .text alert.severity.asStr), ("event_type", .text alert.eventType),
      ("source", .text alert.source), ("host_id", .text alert.hostId),
      ("opened_at", .text alert.openedAt), ("last_seen", .text alert.lastSeen),
      ("resolved_at", .ofText? alert.resolvedAt), ("event_count", .integer alert.eventCount),
      ("last_event_id", .text alert.lastEventId)]
    ["status", "severity", "event_type", "source", "host_id", "opened_at", "last_seen",
      "resolved_at", "event_count", "last_event_id"]).map fun alerts => { sql with alerts := alerts }

def transitionAlert (event : Event) : Prog Database StoreError AlertRecord := do
  let existing ← loadAlert event.fingerprint
  let alert := nextAlert existing event
  saveAlert alert
  pure alert

def enqueueNotifications (event : Event) (alert : AlertRecord) (channels : List String)
    (templates : MessageTemplates) (now : DateTime) : Prog Database StoreError Unit :=
  let payload := renderEvent event alert templates
  let nextAttemptAt := now.toRfc3339
  Prog.forEach (fun channel => Prog.update fun sql =>
    (sql.notifications.insertOrIgnore "id" sql.sequence
      [("event_id", .text event.eventId), ("fingerprint", .text event.fingerprint),
        ("channel", .text channel), ("payload", .text payload), ("status", .text "pending"),
        ("attempts", .integer 0), ("next_attempt_at", .text nextAttemptAt)]).map
      fun r => { sql with notifications := r.1, sequence := r.2 }) channels

/-- The text of `ServerEventStore::accept`. -/
def accept [Formats] (store : ServerEventStore) (call : AcceptCall) :
    Prog Database StoreError (Ending EventResult) :=
  match call.event.validate with
  | .error message => Prog.raise (.invalid message)
  | .ok () => do
    let payload := call.event.toString
    let existing ← Prog.fetch .panicked fun sql =>
      (sql.events.select ["payload", "event_id"] fun row =>
        (row "event_id").eq (.text call.event.eventId)).bind
          (queryRow fun row => getText (row "payload"))
    match existing with
    | some existingPayload =>
      if existingPayload ≠ payload then Prog.raise .eventConflict
      else do
        let found ← loadAlert call.event.fingerprint
        let alert ← Prog.orRaise .missingAlertState found
        pure (.rollback ⟨true, alert⟩)
    | none => do
      Prog.update fun sql => (sql.events.insert
        [("event_id", .text call.event.eventId), ("payload", .text payload),
          ("fingerprint", .text call.event.fingerprint),
          ("received_at", .text call.receivedAt.toRfc3339)]).map
        fun events => { sql with events := events }
      let alert ← transitionAlert call.event
      if announces call.event alert then
        enqueueNotifications call.event alert (store.policy.channelsFor call.event) store.templates
          call.queuedAt
      pure (.commit ⟨false, alert⟩)

def listAlerts (status : Option AlertStatus) (limit : Nat) (sql : Database) :
    Option (List AlertRecord) :=
  (sql.alerts.select alertColumns fun row =>
    status.all fun status => (row "status").eq (.text status.asStr)).bind fun rows =>
      ((rows.mergeSort fun a b => (b "last_seen").le (a "last_seen")).take
        (max 1 (min limit 500))).mapM alertFromRow

def notificationColumns : List String := ["id", "event_id", "fingerprint", "channel", "payload",
  "status", "attempts", "next_attempt_at", "last_error", "retryable", "sent_at", "claimed_at"]

/-- The WHERE clause of `claim_notification`. -/
def due (maxAttempts : Nat) (now staleBefore : String) (row : SqlRecord) : Bool :=
  (row "attempts").lt (.integer maxAttempts) &&
    ((row "status").eq (.text "pending") ||
      ((row "status").eq (.text "failed") && (row "retryable").eq (.integer 1) &&
        (row "next_attempt_at").le (.text now)) ||
      ((row "status").eq (.text "in_flight") && (row "claimed_at").le (.text staleBefore)))

/-- `attempts + 1`. -/
def plusOne : Cell → Cell
  | .integer n => .integer (n + 1)
  | _ => .null

/-- An UPDATE of the notifications table. -/
def updateNotifications (named : List String) (p : SqlRecord → Bool)
    (set : SqlRecord → List (String × Cell)) : Prog Database StoreError Unit :=
  Prog.update fun sql => (sql.notifications.update named p set).map fun notifications =>
    { sql with notifications := notifications }

def claimNotification (now : DateTime) (maxAttempts : Nat) :
    Prog Database StoreError (Ending (Option NotificationJob)) := do
  let job ← Prog.fetch .panicked fun sql =>
    (sql.notifications.select notificationColumns
      (due maxAttempts now.toRfc3339 (staleBefore now).toRfc3339)).bind fun rows =>
        queryRow notificationFromRow (rows.mergeSort fun a b => (a "id").le (b "id"))
  match job with
  | none => pure (.rollback none)
  | some job => do
    updateNotifications ["status", "attempts", "claimed_at", "id"]
      (fun row => (row "id").eq (.integer job.id))
      fun row => [("status", .text "in_flight"), ("attempts", plusOne (row "attempts")),
        ("claimed_at", .text now.toRfc3339)]
    pure (.commit (some { job with attempts := job.attempts + 1, status := .inFlight }))

def completeNotification (id : Nat) (now : DateTime) : Prog Database StoreError (Ending Unit) := do
  updateNotifications ["status", "sent_at", "claimed_at", "last_error", "id"]
    (fun row => (row "id").eq (.integer id) && (row "status").eq (.text "in_flight"))
    fun _ => [("status", .text "sent"), ("sent_at", .text now.toRfc3339), ("claimed_at", .null),
      ("last_error", .null)]
  pure (.commit ())

def failNotification (id : Nat) (update : NotificationFailureUpdate) :
    Prog Database StoreError (Ending Unit) := do
  let nextAttemptAt ← Prog.orRaise .panicked update.nextAttemptAt
  updateNotifications
    ["status", "next_attempt_at", "last_error", "retryable", "claimed_at", "id"]
    (fun row => (row "id").eq (.integer id) && (row "status").eq (.text "in_flight"))
    fun _ => [("status", .text "failed"), ("next_attempt_at", .text nextAttemptAt),
      ("last_error", .text update.error), ("retryable", .integer (if update.retryable then 1 else 0)),
      ("claimed_at", .null)]
  pure (.commit ())

/-! ## 2. Statements that read -/

section Refinement

variable {kept : SqlTable}

/-- The first of the rows is read as the first of the values. -/
theorem queryRow_of_shows {ρ α : Type} {S : TableSchema} {cells : ρ → SqlRecord}
    {decode : SqlRecord → Option α} {value : ρ → α}
    (hdecode : ∀ r x, Shows S cells r x → decode r = some (value x)) {rs : List SqlRecord}
    {xs : List ρ} (h : List.Forall₂ (Shows S cells) rs xs) :
    queryRow decode rs = some (xs.head?.map value) := by
  cases h with
  | nil => rfl
  | cons hshows _ =>
    rw [queryRow, hdecode _ _ hshows]
    rfl

theorem eq_text (s t : String) : (Cell.text s).eq (.text t) = decide (s = t) := by
  simp [Cell.eq]

theorem eq_natCast (m n : Nat) : (Cell.integer m).eq (.integer n) = decide (m = n) := by
  simp [Cell.eq]

theorem loadAlert_refines (fingerprint : String) :
    Prog.Refines (Database.Reads kept) Eq (loadAlert fingerprint) (Beacon.loadAlert fingerprint) := by
  refine Prog.refines_fetch fun sql db hr => ?_
  obtain ⟨rs, hselect, hrows⟩ := hr.alerts.select alertColumns
    (p := fun row => (row "fingerprint").eq (.text fingerprint))
    (q := fun alert => alert.fingerprint = fingerprint) (by decide) fun r alert _ hshows => by
      rw [cell_of_shows hshows (by decide)]
      exact eq_text _ _
  refine ⟨_, ?_, rfl⟩
  rw [hselect, Option.bind_some, queryRow_of_shows (fun r x => alertFromRow_of_shows) hrows,
    List.head?_filter]
  exact congrArg some Option.map_id'

/-- The text of the event with an id. -/
theorem findPayload_reads {sql : Database} {db : Db} (hr : sql.Reads kept db) (id : String) :
    (sql.events.select ["payload", "event_id"] fun row => (row "event_id").eq (.text id)).bind
        (queryRow fun row => getText (row "payload")) =
      some ((db.events.get? id).map EventRow.payload) := by
  obtain ⟨rs, hselect, hrows⟩ := hr.events.select ["payload", "event_id"]
    (p := fun row => (row "event_id").eq (.text id)) (q := fun row => row.eventId = id)
    (by decide) fun r row _ hshows => by
      rw [cell_of_shows hshows (by decide)]
      exact eq_text _ _
  have hdecode : ∀ r row, Shows eventSchema EventRow.cells r row →
      getText (r "payload") = some row.payload := fun r row hshows => by
    rw [cell_of_shows hshows (by decide)]
    rfl
  rw [hselect, Option.bind_some, queryRow_of_shows hdecode hrows, List.head?_filter]
  rfl

/-! ## 3. Statements that write -/

/-- The keys of a table of records, as a test on its rows. -/
theorem any_key {κ ρ : Type} [DecidableEq κ] {key : ρ → κ} (rows : List ρ) (k : κ) :
    (rows.any fun x => decide (key x = k)) = decide (k ∈ rows.map key) := by
  rw [Bool.eq_iff_iff]
  simp only [List.any_eq_true, decide_eq_true_eq, List.mem_map]

theorem insertEvent_refines (call : AcceptCall) :
    Prog.Refines (Database.Reads kept) (fun _ _ => True)
      (Prog.update fun sql => (sql.events.insert
        [("event_id", .text call.event.eventId), ("payload", .text call.event.toString),
          ("fingerprint", .text call.event.fingerprint),
          ("received_at", .text call.receivedAt.toRfc3339)]).map
        fun events => { sql with events := events } : Prog Database StoreError Unit)
      (Prog.update fun db => db.insertEvent call.row) := by
  refine Prog.refines_update fun sql db hr => ?_
  have hwrites : Writes eventSchema EventRow.cells
      [("event_id", .text call.event.eventId), ("payload", .text call.event.toString),
        ("fingerprint", .text call.event.fingerprint),
        ("received_at", .text call.receivedAt.toRfc3339)] call.row := by
    refine ⟨by simp [eventSchema], ?_, full_event _⟩
    simp only [eventSchema, List.forall_mem_cons, List.not_mem_nil, false_implies, implies_true,
      and_true]
    and_intros <;> rfl
  have hkey : KeyedBy eventSchema EventRow.cells
      (fun row => decide (row.eventId = call.row.eventId)) call.row db.events.rows := by
    refine ⟨by decide, fun row _ => ?_⟩
    show (decide (Cell.text row.eventId = .text call.row.eventId) && true) = _
    simp
  rw [hr.events.insert hwrites hkey, any_key]
  unfold Db.insertEvent Table.insert
  by_cases hin : call.row.eventId ∈ db.events.rows.map EventRow.eventId
  · rw [if_pos (decide_eq_true hin), dif_pos hin]
    exact .none
  · rw [if_neg (by rwa [decide_eq_true_eq]), dif_neg hin]
    exact .some { hr with events := hr.events.append hwrites }

theorem saveAlert_refines (alert : AlertRecord) :
    Prog.Refines (Database.Reads kept) (fun _ _ => True) (saveAlert alert)
      (Beacon.saveAlert alert) := by
  refine Prog.refines_write fun sql db hr => ?_
  have hwrites : Writes alertSchema AlertRecord.cells
      [("fingerprint", .text alert.fingerprint), ("status", .text alert.status.asStr),
        ("severity", .text alert.severity.asStr), ("event_type", .text alert.eventType),
        ("source", .text alert.source), ("host_id", .text alert.hostId),
        ("opened_at", .text alert.openedAt), ("last_seen", .text alert.lastSeen),
        ("resolved_at", .ofText? alert.resolvedAt), ("event_count", .integer alert.eventCount),
        ("last_event_id", .text alert.lastEventId)] alert := by
    refine ⟨by simp [alertSchema], ?_, full_alert alert⟩
    simp only [alertSchema, List.forall_mem_cons, List.not_mem_nil, false_implies, implies_true,
      and_true]
    and_intros <;> rfl
  have hkey : KeyedBy alertSchema AlertRecord.cells
      (fun x => decide (x.fingerprint = alert.fingerprint)) alert db.alerts.rows := by
    refine ⟨by decide, fun x _ => ?_⟩
    show (decide (Cell.text x.fingerprint = .text alert.fingerprint) && true) = _
    simp
  have hcover : ∀ c ∈ alertSchema.columns, if c.name ∈ ["status", "severity", "event_type",
      "source", "host_id", "opened_at", "last_seen", "resolved_at", "event_count",
      "last_event_id"] then c.name ∈ alertColumns else c.name ∈ alertSchema.key := by decide
  obtain ⟨alerts, hupsert, hstores⟩ := hr.alerts.upsert hwrites hkey hcover
  refine ⟨{ sql with alerts := alerts }, by rw [hupsert]; rfl, { hr with alerts := ?_ }⟩
  rw [any_key] at hstores
  show alerts.Stores alertSchema AlertRecord.cells (db.alerts.upsert alert).rows
  unfold Table.upsert
  by_cases hin : alert.fingerprint ∈ db.alerts.rows.map AlertRecord.fingerprint
  · rw [if_pos (decide_eq_true hin)] at hstores
    rw [dif_pos hin]
    simpa only [decide_eq_true_eq, Table.replaced] using hstores
  · rw [if_neg (by rwa [decide_eq_true_eq])] at hstores
    rw [dif_neg hin]
    exact hstores

theorem enqueueNotifications_refines (event : Event) (alert : AlertRecord) (channels : List String)
    (templates : MessageTemplates) (now : DateTime) :
    Prog.Refines (Database.Reads kept) (fun _ _ => True)
      (enqueueNotifications event alert channels templates now)
      (Beacon.enqueueNotifications event alert channels templates now) := by
  refine Prog.refines_forEach channels fun channel _ => Prog.refines_write fun sql db hr => ?_
  generalize hm : messageFor event alert templates channel = m
  have hwrites : Writes notificationSchema NotificationRow.cells
      (SqlTable.numbered "id" sql.sequence [("event_id", .text event.eventId),
        ("fingerprint", .text event.fingerprint), ("channel", .text channel),
        ("payload", .text (renderEvent event alert templates)), ("status", .text "pending"),
        ("attempts", .integer 0), ("next_attempt_at", .text now.toRfc3339)])
      (NotificationTable.newRow (db.notifications.seq + 1) m now.toRfc3339) := by
    refine ⟨by simp [notificationSchema, SqlTable.numbered, retryableColumn], ?_,
      full_notification _⟩
    rw [← hm, hr.sequence]
    simp only [notificationSchema, List.forall_mem_cons, List.not_mem_nil, false_implies,
      implies_true, and_true]
    and_intros <;> rfl
  have hkey : KeyedBy notificationSchema NotificationRow.cells (fun row => decide (row.key = m.key))
      (NotificationTable.newRow (db.notifications.seq + 1) m now.toRfc3339)
      db.notifications.rows := by
    refine ⟨by decide, fun row _ => ?_⟩
    show (decide (Cell.text row.eventId = .text m.eventId) &&
      (decide (Cell.text row.channel = .text m.channel) && true)) = _
    simp [Message.key]
  have hany : (db.notifications.rows.any fun row => decide (row.key = m.key)) =
      decide (m.key ∈ (db.notifications.rows.map NotificationRow.fixed).map fun f => f.2.key) := by
    rw [any_key, List.map_map]
    exact decide_eq_decide.mpr Iff.rfl
  rw [hr.notifications.insertOrIgnore hwrites hkey, hany]
  refine ⟨_, rfl, ?_⟩
  unfold Db.enqueue NotificationTable.insertOrIgnore
  by_cases hin : m.key ∈ (db.notifications.rows.map NotificationRow.fixed).map fun f => f.2.key
  · simp only [if_pos (decide_eq_true hin), dif_pos hin]
    exact { hr with sequence := congrArg (· + 1) hr.sequence }
  · have hnot : ¬ decide (m.key ∈
        (db.notifications.rows.map NotificationRow.fixed).map fun f => f.2.key) = true := by
      rwa [decide_eq_true_eq]
    simp only [if_neg hnot, dif_neg hin]
    exact { hr with
      notifications := hr.notifications.append hwrites
      sequence := congrArg (· + 1) hr.sequence }

/-- **An UPDATE of the notifications table**, by what it selects and assigns. -/
theorem updateNotifications_refines {named : List String} {p : SqlRecord → Bool}
    {set : SqlRecord → List (String × Cell)} {q : NotificationRow → Bool}
    {f : NotificationRow → NotificationRow} {hf : ∀ r, (f r).fixed = r.fixed}
    (hnamed : ∀ n ∈ named, n ∈ notificationSchema.columns.map Column.name)
    (hp : ∀ r row, Shows notificationSchema NotificationRow.cells r row → p r = q row)
    (hset : ∀ r row, Shows notificationSchema NotificationRow.cells r row →
      set r = set row.cells)
    (hcells : ∀ row : NotificationRow, ∀ c ∈ notificationSchema.columns,
      SqlTable.assigned row.cells (set row.cells) c = (f row).cells c.name) :
    Prog.Refines (Database.Reads kept) (fun _ _ => True) (updateNotifications named p set)
      (Prog.write fun db => db.updateNotifications q f hf) := by
  refine Prog.refines_write fun sql db hr => ?_
  have hone : ∀ r, ∀ row ∈ db.notifications.rows,
      Shows notificationSchema NotificationRow.cells r row → q row = true →
        (∀ c ∈ notificationSchema.columns,
          SqlTable.assigned r (set r) c = (f row).cells c.name) ∧
        Full notificationSchema NotificationRow.cells (f row) := by
    intro r row _ hshows _
    refine ⟨fun c hc => ?_, full_notification _⟩
    rw [Stores.assigned_of_shows hshows hc, hset r row hshows, hcells row c hc]
  obtain ⟨t, hupdate, hstores⟩ := hr.notifications.update hnamed
    (fun r row _ hshows => hp r row hshows) hone
  exact ⟨{ sql with notifications := t }, by rw [hupdate]; rfl, { hr with notifications := hstores }⟩

/-! ## 4. The calls -/

theorem transitionAlert_refines (event : Event) :
    Prog.Refines (Database.Reads kept) Eq (transitionAlert event) (Beacon.transitionAlert event) := by
  refine (loadAlert_refines event.fingerprint).bind fun existing existing' he => ?_
  subst he
  exact (saveAlert_refines _).bind fun _ _ _ => Prog.refines_pure rfl

theorem accept_refines [Formats] (store : ServerEventStore) (call : AcceptCall) :
    Prog.Refines (Database.Reads kept) Eq (accept store call) (store.accept call) := by
  unfold accept ServerEventStore.accept
  cases call.event.validate with
  | error message => exact Prog.refines_raise _
  | ok _ =>
    refine Prog.Refines.bind (V := Eq) (Prog.refines_fetch fun sql db hr =>
      ⟨_, findPayload_reads hr call.event.eventId, rfl⟩) fun existing existing' he => ?_
    subst he
    cases existing with
    | some payload =>
      simp only
      split
      · exact Prog.refines_raise _
      · refine (loadAlert_refines call.event.fingerprint).bind fun found found' hfound => ?_
        subst hfound
        refine Prog.Refines.bind (V := Eq) (Prog.refines_orRaise ?_) fun alert alert' ha => ?_
        · cases found with
          | none => exact .none
          | some alert => exact .some rfl
        · subst ha
          exact Prog.refines_pure rfl
    | none =>
      refine (insertEvent_refines call).bind fun _ _ _ => ?_
      refine (transitionAlert_refines call.event).bind fun alert alert' ha => ?_
      subst ha
      split
      · exact (enqueueNotifications_refines _ _ _ _ _).bind fun _ _ _ => Prog.refines_pure rfl
      · exact Prog.refines_pure rfl

theorem lt_natCast (m n : Nat) : (Cell.integer m).lt (.integer n) = decide (m < n) := by
  simp [Cell.lt]

theorem status_eq (s t : JobStatus) :
    (Cell.text s.asStr).eq (.text t.asStr) = decide (s = t) := by
  rw [eq_text]
  exact decide_eq_decide.mpr ⟨JobStatus.asStr_injective, fun h => by rw [h]⟩

theorem retryable_eq (b : Bool) : (Cell.integer (if b then 1 else 0)).eq (.integer 1) = b := by
  cases b <;> rfl

theorem ofText?_le (s : Option String) (t : String) :
    (Cell.ofText? s).le (.text t) = s.any fun s => s ≤ t := by
  cases s <;> rfl

/-- **The WHERE clause** means what it says of the records. -/
theorem due_of_shows (maxAttempts : Nat) (now stale : String) {r : SqlRecord}
    {row : NotificationRow} (h : Shows notificationSchema NotificationRow.cells r row) :
    due maxAttempts now stale r = row.due maxAttempts now stale := by
  have hcell : ∀ n ∈ notificationSchema.columns.map Column.name, r n = row.cells n :=
    fun n => cell_of_shows h
  unfold due
  rw [hcell "attempts" (by decide), hcell "status" (by decide), hcell "retryable" (by decide),
    hcell "next_attempt_at" (by decide), hcell "claimed_at" (by decide)]
  show ((Cell.integer row.attempts).lt (.integer maxAttempts) &&
    ((Cell.text row.status.asStr).eq (.text JobStatus.pending.asStr) ||
      ((Cell.text row.status.asStr).eq (.text JobStatus.failed.asStr) &&
        (Cell.integer (if row.retryable then 1 else 0)).eq (.integer 1) &&
        decide (row.nextAttemptAt ≤ now)) ||
      ((Cell.text row.status.asStr).eq (.text JobStatus.inFlight.asStr) &&
        (Cell.ofText? row.claimedAt).le (.text stale)))) = _
  rw [lt_natCast, status_eq, status_eq, status_eq, retryable_eq, ofText?_le]
  rfl

/-- The WHERE clause of the two updates after a claim. -/
theorem isClaimed_of_shows (id : Nat) {r : SqlRecord} {row : NotificationRow}
    (h : Shows notificationSchema NotificationRow.cells r row) :
    ((r "id").eq (.integer id) && (r "status").eq (.text "in_flight")) =
      NotificationRow.isClaimed id row := by
  rw [cell_of_shows h (by decide), cell_of_shows h (by decide)]
  show ((Cell.integer row.id).eq (.integer id) &&
    (Cell.text row.status.asStr).eq (.text JobStatus.inFlight.asStr)) = _
  rw [eq_natCast, status_eq]
  rfl

theorem completeNotification_refines (id : Nat) (now : DateTime) :
    Prog.Refines (Database.Reads kept) Eq (completeNotification id now)
      (Beacon.completeNotification id now) := by
  refine Prog.Refines.bind (V := fun _ _ => True) ?_ fun _ _ _ => Prog.refines_pure rfl
  refine updateNotifications_refines (by decide) (fun r row => isClaimed_of_shows id)
    (fun _ _ _ => rfl) fun row => ?_
  simp only [notificationSchema, retryableColumn, List.forall_mem_cons, List.not_mem_nil,
    false_implies, implies_true, and_true]
  and_intros <;> rfl

theorem failNotification_refines (id : Nat) (update : NotificationFailureUpdate) :
    Prog.Refines (Database.Reads kept) Eq (failNotification id update)
      (Beacon.failNotification id update) := by
  refine Prog.Refines.bind (V := Eq) (Prog.refines_orRaise ?_) fun next next' hnext => ?_
  · cases update.nextAttemptAt with
    | none => exact .none
    | some next => exact .some rfl
  subst hnext
  refine Prog.Refines.bind (V := fun _ _ => True) ?_ fun _ _ _ => Prog.refines_pure rfl
  refine updateNotifications_refines (by decide) (fun r row => isClaimed_of_shows id)
    (fun _ _ _ => rfl) fun row => ?_
  simp only [notificationSchema, retryableColumn, List.forall_mem_cons, List.not_mem_nil,
    false_implies, implies_true, and_true]
  and_intros <;> rfl

/-- **The first due row** in the order of the ids. -/
theorem firstDue_reads {sql : Database} {db : Db} (hr : sql.Reads kept db) (now : DateTime)
    (maxAttempts : Nat) :
    ((sql.notifications.select notificationColumns
      (due maxAttempts now.toRfc3339 (staleBefore now).toRfc3339)).bind fun rows =>
        queryRow notificationFromRow (rows.mergeSort fun a b => (a "id").le (b "id"))) =
      some ((db.firstDue maxAttempts now).map Beacon.notificationFromRow) := by
  obtain ⟨rs, hselect, hrows⟩ := hr.notifications.select notificationColumns
    (p := due maxAttempts now.toRfc3339 (staleBefore now).toRfc3339)
    (q := NotificationRow.due maxAttempts now.toRfc3339 (staleBefore now).toRfc3339)
    (by decide) fun r row _ hshows => due_of_shows _ _ _ hshows
  have hsorted := Stores.sort hrows (fun a b => (a "id").le (b "id"))
    (fun a b => decide (a.id ≤ b.id)) fun r x s y hx hy => by
      rw [cell_of_shows hx (by decide), cell_of_shows hy (by decide)]
      show decide ((x.id : Int) ≤ y.id) = _
      exact decide_eq_decide.mpr Int.ofNat_le
  have hids : (db.notifications.rows.filter
      (NotificationRow.due maxAttempts now.toRfc3339 (staleBefore now).toRfc3339)).Pairwise
        fun a b => decide (a.id ≤ b.id) = true := by
    have hall : db.notifications.rows.Pairwise fun a b => decide (a.id ≤ b.id) = true :=
      (List.pairwise_map.mp db.notifications.ids_sorted).imp fun hlt =>
        decide_eq_true (Nat.le_of_lt hlt)
    exact hall.filter _
  rw [List.mergeSort_of_pairwise hids] at hsorted
  rw [hselect, Option.bind_some,
    queryRow_of_shows (fun r x => notificationFromRow_of_shows) hsorted, List.head?_filter]
  rfl

theorem claimNotification_refines (now : DateTime) (maxAttempts : Nat) :
    Prog.Refines (Database.Reads kept) Eq (claimNotification now maxAttempts)
      (Beacon.claimNotification now maxAttempts) := by
  refine Prog.Refines.bind (V := fun job row => job = row.map Beacon.notificationFromRow)
    (Prog.refines_fetch fun sql db hr => ⟨_, firstDue_reads hr now maxAttempts, rfl⟩)
    fun job row he => ?_
  subst he
  cases row with
  | none => exact Prog.refines_pure rfl
  | some row =>
    refine Prog.Refines.bind (V := fun _ _ => True) ?_ fun _ _ _ => Prog.refines_pure rfl
    refine updateNotifications_refines (by decide) (fun r x hshows => ?_)
      (fun r x hshows => ?_) fun x => ?_
    · rw [cell_of_shows hshows (by decide)]
      exact eq_natCast x.id row.id
    · simp only [cell_of_shows hshows (n := "attempts") (by decide)]
    · simp only [notificationSchema, retryableColumn, List.forall_mem_cons, List.not_mem_nil,
        false_implies, implies_true, and_true]
      and_intros <;> rfl

theorem alertStatus_eq (s t : AlertStatus) :
    (Cell.text s.asStr).eq (.text t.asStr) = decide (s = t) := by
  rw [eq_text]
  refine decide_eq_decide.mpr ⟨fun h => ?_, fun h => by rw [h]⟩
  have hsame : AlertStatus.fromStr s.asStr = AlertStatus.fromStr t.asStr := by rw [h]
  rw [AlertStatus.fromStr_asStr, AlertStatus.fromStr_asStr] at hsame
  exact Except.ok.inj hsame

/-- **The query** lists the records. -/
theorem listAlerts_reads {sql : Database} {db : Db} (hr : sql.Reads kept db)
    (status : Option AlertStatus) (limit : Nat) :
    listAlerts status limit sql = some (db.listAlerts status limit) := by
  obtain ⟨rs, hselect, hrows⟩ := hr.alerts.select alertColumns
    (p := fun row => status.all fun status => (row "status").eq (.text status.asStr))
    (q := fun alert => status.all fun status => decide (alert.status = status))
    (by decide) fun r alert _ hshows => by
      rw [cell_of_shows hshows (by decide)]
      cases status with
      | none => rfl
      | some status => exact alertStatus_eq alert.status status
  have hsorted := Stores.sort hrows (fun a b => (b "last_seen").le (a "last_seen"))
    (fun a b => decide (b.lastSeen ≤ a.lastSeen)) fun r x s y hx hy => by
      rw [cell_of_shows hx (by decide), cell_of_shows hy (by decide)]
      rfl
  have htaken := List.forall₂_take (max 1 (min limit 500)) hsorted
  unfold listAlerts Db.listAlerts
  rw [hselect, Option.bind_some]
  revert htaken
  generalize ((rs.mergeSort fun a b => (b "last_seen").le (a "last_seen")).take _) = rows
  generalize (List.mergeSort _ _).take _ = alerts
  intro htaken
  induction htaken with
  | nil => rfl
  | cons hshows _ ih =>
    rw [List.mapM_cons, alertFromRow_of_shows hshows, ih]
    rfl

end Refinement

/-! ## 5. Runs -/

variable [Formats]

/-- The text of a call. -/
def txn (store : ServerEventStore) : Op → Transaction Database StoreError Answer
  | .accept call => Transaction.mapAnswer .accepted (accept store call)
  | .claim now maxAttempts => Transaction.mapAnswer .claimed (claimNotification now maxAttempts)
  | .complete id now => Transaction.mapAnswer (fun _ => .updated) (completeNotification id now)
  | .fail id update => Transaction.mapAnswer (fun _ => .updated) (failNotification id update)

def perform (store : ServerEventStore) (op : Op) (sql : Database) :
    Except (Fault StoreError) Answer × Database := (txn store op).transact sql

/-- The tables of cells after a log. -/
def performEach (sql : Database) (log : List LogEntry) : Database :=
  log.foldl (fun sql entry => (perform entry.1 entry.2 sql).2) sql

/-- **One call**: the answer of the records, and their tables. -/
theorem perform_reads {kept : SqlTable} {sql : Database} {db : Db} (hr : sql.Reads kept db)
    (store : ServerEventStore) (op : Op) :
    (perform store op sql).1 = (op.perform store db).1 ∧
      (perform store op sql).2.Reads kept (op.perform store db).2 := by
  have hanswer : ∀ {α : Type} {p : Transaction Database StoreError α}
      {q : Transaction Db StoreError α} (f : α → Answer),
      Prog.Refines (Database.Reads kept) Eq p q →
        (Transaction.transact (Transaction.mapAnswer f p) sql).1 =
            (Transaction.transact (Transaction.mapAnswer f q) db).1 ∧
          (Transaction.transact (Transaction.mapAnswer f p) sql).2.Reads kept
            (Transaction.transact (Transaction.mapAnswer f q) db).2 := by
    intro α p q f h
    obtain ⟨hsame, hreads⟩ := Transaction.transact_refines h hr
    rw [Transaction.transact_mapAnswer, Transaction.transact_mapAnswer]
    exact ⟨congrArg (·.map f) hsame, hreads⟩
  cases op with
  | accept call => exact hanswer _ (accept_refines store call)
  | claim now maxAttempts => exact hanswer _ (claimNotification_refines now maxAttempts)
  | complete id now => exact hanswer _ (completeNotification_refines id now)
  | fail id update => exact hanswer _ (failNotification_refines id update)

theorem performEach_reads {kept : SqlTable} {sql : Database} {db : Db} (hr : sql.Reads kept db)
    (log : List LogEntry) : (performEach sql log).Reads kept (Beacon.performEach db log) := by
  induction log generalizing sql db with
  | nil => exact hr
  | cons entry log ih => exact ih (perform_reads hr entry.1 entry.2).2

end Sql

/-- No call ends because a statement of it is refused. -/
theorem answer_ne_refused [Formats] (store : ServerEventStore) (op : Op) (db : Db) :
    (op.perform store db).1 ≠ .error .refused := by
  cases op with
  | accept call =>
    have ho := transact_accept store call db
    rw [perform_accept]
    revert ho
    generalize Transaction.transact (store.accept call) db = o
    intro ho
    cases ho <;> exact fun h => by cases h
  | claim now maxAttempts =>
    rw [perform_claim]
    cases db.firstDue maxAttempts now <;> exact fun h => by cases h
  | complete id now =>
    rw [perform_complete]
    exact fun h => by cases h
  | fail id update =>
    rw [perform_fail]
    cases update.nextAttemptAt <;> exact fun h => by cases h

/-- **The tables of cells refine the tables of records.** Let a file hold what an earlier server
    left: all of the tables, or those that were created before the batch was cut off, or a
    notifications table without the column `retryable`. Once it is initialised, after every log
    of calls, each on a store of its own: the next call answers what the records say, and none of
    its statements is refused; the query lists what they list; every row reads back; the
    enrollments are untouched; and when the file is opened again it is left as it is. -/
theorem rows_of_log [Formats] (file : DatabaseFile) (db : Db) (h : file.Holds db)
    (log : List LogEntry) :
    let sql := Sql.performEach (initializeDatabase file) log
    let records := performEach db log
    (∀ store op, (Sql.perform store op sql).1 = (op.perform store records).1 ∧
      (Sql.perform store op sql).1 ≠ .error .refused) ∧
    (∀ status limit, Sql.listAlerts status limit sql = some (records.listAlerts status limit)) ∧
    sql.Reads (initializeDatabase file).enrollments records ∧
    initializeDatabase sql.file = sql := by
  intro sql records
  have hr : sql.Reads (initializeDatabase file).enrollments records :=
    Sql.performEach_reads (initialize_reads h) log
  refine ⟨fun store op => ?_, Sql.listAlerts_reads hr, hr, initialize_file hr⟩
  have hsame := (Sql.perform_reads hr store op).1
  exact ⟨hsame, by rw [hsame]; exact answer_ne_refused store op records⟩

/-- The file of an earlier server that left these rows: its notifications table has no column
    `retryable`, and there is no enrollments table yet. -/
def Db.earlierFile (db : Db) : DatabaseFile where
  events := some (.tabulate eventSchema EventRow.cells db.events.rows)
  alerts := some (.tabulate alertSchema AlertRecord.cells db.alerts.rows)
  notifications := some (.tabulate earlierSchema NotificationRow.cells db.notifications.rows)
  enrollments := none
  sequence := db.notifications.seq

theorem Db.holds_earlierFile {db : Db}
    (h : ∀ row ∈ db.notifications.rows, row.retryable = true) : db.earlierFile.Holds db where
  events := Stores.tabulate db.events.rows
  alerts := Stores.tabulate db.alerts.rows
  notifications := .inr ⟨Stores.tabulate db.notifications.rows, h⟩
  sequence := rfl

namespace Sample

/-- The calls to an earlier server: the job of an event was tried and has failed. -/
def earlierLog : List LogEntry :=
  [(telegramStore, .accept (call (event id1 "2026-01-01T00:01:00Z" .firing .critical))),
    (telegramStore, .claim ⟨1767225602000000000⟩ 5),
    (telegramStore, .fail 1 ⟨1, "timeout", 5, 30, true, ⟨1767225603000000000⟩⟩)]

/-- The calls to the server that takes over: a repeated event, one about another fingerprint, and a
    claim, which is of the job that had failed. -/
def laterLog : List LogEntry :=
  [(telegramStore, .accept (call (event id1 "2026-01-01T00:01:00Z" .firing .critical))),
    (telegramStore, .accept (call { event id2 "2026-01-01T00:00:00Z" .firing .warning with
      fingerprint := "disk/root/usage" })),
    (telegramStore, .claim ⟨1767225660000000000⟩ 5)]

end Sample

/-- Alerts that stand in the order of the query are listed as they stand. -/
theorem Db.listAlerts_of_sorted {db : Db}
    (h : (db.alerts.rows.map AlertRecord.lastSeen).Pairwise fun s t => decide (t ≤ s) = true)
    (limit : Nat) : db.listAlerts none limit = db.alerts.rows.take (max 1 (min limit 500)) := by
  have hall : db.alerts.rows.filter (fun alert => (none : Option AlertStatus).all fun status =>
      alert.status = status) = db.alerts.rows := List.filter_eq_self.mpr fun _ _ => rfl
  have hsorted := List.pairwise_map.mp h
  rw [Db.listAlerts, hall, List.mergeSort_of_pairwise hsorted]

/-- The theorem at the file of an earlier server: after the calls to the one that takes over, the
    next job is that of the second event, and two alerts are listed. -/
theorem rows_of_log_earlier :
    let _ := Sample.formats
    let earlier := performEach .empty Sample.earlierLog
    let sql := Sql.performEach (initializeDatabase earlier.earlierFile) Sample.laterLog
    (∃ job, (Sql.perform Sample.telegramStore (.claim ⟨1767225661000000000⟩ 5) sql).1 =
        .ok (.claimed (some job)) ∧
      (job.id, job.fingerprint, job.attempts) = (2, "disk/root/usage", 1)) ∧
    (Sql.listAlerts none 10 sql).map (·.map fun alert => (alert.fingerprint, alert.lastSeen)) =
      some [("backup/restic/age", "2026-01-01T00:01:00Z"),
        ("disk/root/usage", "2026-01-01T00:00:00Z")] := by
  intro formats earlier sql
  have hretryable : ∀ row ∈ earlier.notifications.rows, row.retryable = true := by decide +kernel
  obtain ⟨hcall, hlist, -, -⟩ :=
    rows_of_log earlier.earlierFile earlier (Db.holds_earlierFile hretryable) Sample.laterLog
  -- what the records come to, evaluated once
  obtain ⟨halerts, hfirst⟩ : (performEach earlier Sample.laterLog).alerts.rows.map (fun alert =>
        (alert.fingerprint, alert.lastSeen)) =
      [("backup/restic/age", "2026-01-01T00:01:00Z"), ("disk/root/usage", "2026-01-01T00:00:00Z")] ∧
      ((performEach earlier Sample.laterLog).firstDue 5 ⟨1767225661000000000⟩).map (fun row =>
        (row.claimedJob.id, row.claimedJob.fingerprint, row.claimedJob.attempts)) =
      some (2, "disk/root/usage", 1) := by decide +kernel
  obtain ⟨row, hdue, hrow⟩ := Option.map_eq_some_iff.mp hfirst
  have hclaim := (hcall Sample.telegramStore (.claim ⟨1767225661000000000⟩ 5)).1
  rw [perform_claim, hdue] at hclaim
  have hseen : (performEach earlier Sample.laterLog).alerts.rows.map AlertRecord.lastSeen =
      ["2026-01-01T00:01:00Z", "2026-01-01T00:00:00Z"] := by
    have hsnd := congrArg (List.map Prod.snd) halerts
    rw [List.map_map] at hsnd
    exact hsnd
  refine ⟨⟨row.claimedJob, hclaim, hrow⟩, ?_⟩
  rw [hlist, Db.listAlerts_of_sorted (by rw [hseen]; decide), Option.map_some, List.map_take,
    halerts]
  rfl

end Beacon
