/-
  File:      Beacon/Server/Schema.lean
  Subject:   The tables of the database file (`server.rs`, `initialize_database`).

  The other modules keep the rows of the tables as the records they are written from. Here they
  are rows of cells. A server finds a file of an earlier one: none of the tables, or some of them
  where the batch that creates them was cut off, or a notifications table from before the column
  `retryable`. `initialize_database` creates what is missing and adds the column.

  * `alertFromRow_of_shows`, `notificationFromRow_of_shows` -- what a row is read as;
  * `initialize_reads` -- **an initialised file holds what it held**;
  * `initialize_file` -- a file that was initialised is left as it is.
-/
import Beacon.Foundation.SqlTable
import Beacon.Server.Queue

namespace Beacon

open Foundation
open SqlTable (Full Shows Stores)

/-! ## 1. The schema -/

def eventSchema : TableSchema where
  columns := [⟨"event_id", false, .null⟩, ⟨"payload", true, .null⟩, ⟨"fingerprint", true, .null⟩,
    ⟨"received_at", true, .null⟩]
  key := ["event_id"]
  nodup := by decide

def alertSchema : TableSchema where
  columns := [⟨"fingerprint", false, .null⟩, ⟨"status", true, .null⟩, ⟨"severity", true, .null⟩,
    ⟨"event_type", true, .null⟩, ⟨"source", true, .null⟩, ⟨"host_id", true, .null⟩,
    ⟨"opened_at", true, .null⟩, ⟨"last_seen", true, .null⟩, ⟨"resolved_at", false, .null⟩,
    ⟨"event_count", true, .null⟩, ⟨"last_event_id", true, .null⟩]
  key := ["fingerprint"]
  nodup := by decide

/-- `retryable INTEGER NOT NULL DEFAULT 1`, in the batch and in the ALTER TABLE. -/
def retryableColumn : Column := ⟨"retryable", true, .integer 1⟩

def notificationSchema : TableSchema where
  columns := [⟨"id", false, .null⟩, ⟨"event_id", true, .null⟩, ⟨"fingerprint", true, .null⟩,
    ⟨"channel", true, .null⟩, ⟨"payload", true, .null⟩, ⟨"status", true, .null⟩,
    ⟨"attempts", true, .integer 0⟩, ⟨"next_attempt_at", true, .null⟩, ⟨"last_error", false, .null⟩,
    retryableColumn, ⟨"claimed_at", false, .null⟩, ⟨"sent_at", false, .null⟩]
  key := ["event_id", "channel"]
  nodup := by decide

/-- The notifications table before the column `retryable`. -/
def earlierSchema : TableSchema where
  columns := notificationSchema.columns.filter fun c => c ≠ retryableColumn
  key := notificationSchema.key
  nodup := by decide

def enrollmentSchema : TableSchema where
  columns := [⟨"code_hash", false, .null⟩, ⟨"name", true, .null⟩, ⟨"expires_at", true, .null⟩,
    ⟨"consumed_at", false, .null⟩]
  key := ["code_hash"]
  nodup := by decide

/-! ## 2. The file -/

/-- The file `beacon.sqlite3`: the tables there are, and the last id of the notifications. -/
structure DatabaseFile where
  events : Option SqlTable
  alerts : Option SqlTable
  notifications : Option SqlTable
  enrollments : Option SqlTable
  sequence : Nat

/-- An initialised database. -/
structure Database where
  events : SqlTable
  alerts : SqlTable
  notifications : SqlTable
  enrollments : SqlTable
  sequence : Nat

def Database.file (sql : Database) : DatabaseFile :=
  ⟨some sql.events, some sql.alerts, some sql.notifications, some sql.enrollments, sql.sequence⟩

/-- `CREATE TABLE IF NOT EXISTS`. -/
def createIfNotExists (S : TableSchema) (t : Option SqlTable) : SqlTable := t.getD (.create S)

def initializeDatabase (file : DatabaseFile) : Database :=
  let notifications := createIfNotExists notificationSchema file.notifications
  { events := createIfNotExists eventSchema file.events
    alerts := createIfNotExists alertSchema file.alerts
    notifications := if hasRetryable : retryableColumn.name ∈ notifications.names then notifications
      else notifications.addColumn retryableColumn hasRetryable
    enrollments := createIfNotExists enrollmentSchema file.enrollments
    sequence := file.sequence }

/-! ## 3. Rows -/

def EventRow.cells (row : EventRow) : SqlRecord
  | "event_id" => .text row.eventId
  | "payload" => .text row.payload
  | "fingerprint" => .text row.fingerprint
  | "received_at" => .text row.receivedAt
  | _ => .null

def AlertRecord.cells (alert : AlertRecord) : SqlRecord
  | "fingerprint" => .text alert.fingerprint
  | "status" => .text alert.status.asStr
  | "severity" => .text alert.severity.asStr
  | "event_type" => .text alert.eventType
  | "source" => .text alert.source
  | "host_id" => .text alert.hostId
  | "opened_at" => .text alert.openedAt
  | "last_seen" => .text alert.lastSeen
  | "resolved_at" => .ofText? alert.resolvedAt
  | "event_count" => .integer alert.eventCount
  | "last_event_id" => .text alert.lastEventId
  | _ => .null

def NotificationRow.cells (row : NotificationRow) : SqlRecord
  | "id" => .integer row.id
  | "event_id" => .text row.eventId
  | "fingerprint" => .text row.fingerprint
  | "channel" => .text row.channel
  | "payload" => .text row.payload
  | "status" => .text row.status.asStr
  | "attempts" => .integer row.attempts
  | "next_attempt_at" => .text row.nextAttemptAt
  | "last_error" => .ofText? row.lastError
  | "retryable" => .integer (if row.retryable then 1 else 0)
  | "claimed_at" => .ofText? row.claimedAt
  | "sent_at" => .ofText? row.sentAt
  | _ => .null

theorem full_event (row : EventRow) : Full eventSchema EventRow.cells row := by
  simp only [Full, eventSchema, List.forall_mem_cons, List.not_mem_nil, false_implies, implies_true,
    and_true]
  and_intros <;> intro h <;> first | exact Bool.noConfusion h | exact fun h => Cell.noConfusion h

theorem full_alert (alert : AlertRecord) : Full alertSchema AlertRecord.cells alert := by
  simp only [Full, alertSchema, List.forall_mem_cons, List.not_mem_nil, false_implies, implies_true,
    and_true]
  and_intros <;> intro h <;> first | exact Bool.noConfusion h | exact fun h => Cell.noConfusion h

theorem full_notification (row : NotificationRow) :
    Full notificationSchema NotificationRow.cells row := by
  simp only [Full, notificationSchema, retryableColumn, List.forall_mem_cons,
    List.not_mem_nil, false_implies, implies_true, and_true]
  and_intros <;> intro h <;> first | exact Bool.noConfusion h | exact fun h => Cell.noConfusion h

/-- `row.get::<String>`. -/
def getText : Cell → Option String
  | .text s => some s
  | _ => none

/-- `row.get::<Option<String>>`. -/
def getOptionalText : Cell → Option (Option String)
  | .null => some none
  | .text s => some (some s)
  | .integer _ => none

/-- `row.get` of an unsigned integer. -/
def getUnsigned : Cell → Option Nat
  | .integer n => if 0 ≤ n then some n.toNat else none
  | _ => none

def getInteger : Cell → Option Int
  | .integer n => some n
  | _ => none

theorem getOptionalText_ofText? (s : Option String) : getOptionalText (.ofText? s) = some s := by
  cases s <;> rfl

theorem getUnsigned_natCast (n : Nat) : getUnsigned (.integer n) = some n := by
  rw [getUnsigned, if_pos (Int.natCast_nonneg n), Int.toNat_natCast]

namespace Sql

/-- `alert_from_row`. -/
def alertFromRow (row : SqlRecord) : Option AlertRecord := do
  let status ← getText (row "status")
  let severity ← getText (row "severity")
  pure {
    fingerprint := ← getText (row "fingerprint")
    status := ← (AlertStatus.fromStr status).toOption
    severity := ← (Severity.fromStr severity).toOption
    eventType := ← getText (row "event_type")
    source := ← getText (row "source")
    hostId := ← getText (row "host_id")
    openedAt := ← getText (row "opened_at")
    lastSeen := ← getText (row "last_seen")
    resolvedAt := ← getOptionalText (row "resolved_at")
    eventCount := ← getUnsigned (row "event_count")
    lastEventId := ← getText (row "last_event_id") }

/-- The status a text stands for; the struct of the source keeps the text. -/
def jobStatusOf (status : String) : Option JobStatus :=
  [JobStatus.pending, .inFlight, .sent, .failed].find? fun s => s.asStr = status

/-- `notification_from_row`. -/
def notificationFromRow (row : SqlRecord) : Option NotificationJob := do
  pure {
    id := ← getUnsigned (row "id")
    eventId := ← getText (row "event_id")
    fingerprint := ← getText (row "fingerprint")
    channel := ← getText (row "channel")
    payload := ← getText (row "payload")
    status := ← (getText (row "status")).bind jobStatusOf
    attempts := ← getUnsigned (row "attempts")
    nextAttemptAt := ← getText (row "next_attempt_at")
    lastError := ← getOptionalText (row "last_error")
    retryable := (← getInteger (row "retryable")) ≠ 0
    sentAt := ← getOptionalText (row "sent_at") }

end Sql

/-- The cell a record shows under the name of a column. -/
theorem cell_of_shows {ρ : Type} {S : TableSchema} {cells : ρ → SqlRecord} {r : SqlRecord} {x : ρ}
    (h : Shows S cells r x) {n : String} (hn : n ∈ S.columns.map Column.name) : r n = cells x n := by
  obtain ⟨c, hc, rfl⟩ := List.mem_map.mp hn
  exact h c hc

/-- **A row of the alerts table** is read as the record it was written from. -/
theorem alertFromRow_of_shows {r : SqlRecord} {alert : AlertRecord}
    (h : Shows alertSchema AlertRecord.cells r alert) : Sql.alertFromRow r = some alert := by
  have hcell : ∀ n ∈ alertSchema.columns.map Column.name, r n = alert.cells n :=
    fun n => cell_of_shows h
  unfold Sql.alertFromRow
  rw [hcell "status" (by decide), hcell "severity" (by decide), hcell "fingerprint" (by decide),
    hcell "event_type" (by decide), hcell "source" (by decide), hcell "host_id" (by decide),
    hcell "opened_at" (by decide), hcell "last_seen" (by decide), hcell "resolved_at" (by decide),
    hcell "event_count" (by decide), hcell "last_event_id" (by decide)]
  show (do
    let status ← (AlertStatus.fromStr alert.status.asStr).toOption
    let severity ← (Severity.fromStr alert.severity.asStr).toOption
    let resolvedAt ← getOptionalText (.ofText? alert.resolvedAt)
    let eventCount ← getUnsigned (.integer alert.eventCount)
    pure { alert with status, severity, resolvedAt, eventCount }) = some alert
  rw [AlertStatus.fromStr_asStr, Severity.fromStr_asStr, getOptionalText_ofText?,
    getUnsigned_natCast]
  rfl

theorem jobStatusOf_asStr (status : JobStatus) : Sql.jobStatusOf status.asStr = some status := by
  cases status <;> decide

/-- **A row of the notifications table** is read as the job it stands for. -/
theorem notificationFromRow_of_shows {r : SqlRecord} {row : NotificationRow}
    (h : Shows notificationSchema NotificationRow.cells r row) :
    Sql.notificationFromRow r = some (notificationFromRow row) := by
  have hcell : ∀ n ∈ notificationSchema.columns.map Column.name, r n = row.cells n :=
    fun n => cell_of_shows h
  unfold Sql.notificationFromRow
  rw [hcell "id" (by decide), hcell "event_id" (by decide), hcell "fingerprint" (by decide),
    hcell "channel" (by decide), hcell "payload" (by decide), hcell "status" (by decide),
    hcell "attempts" (by decide), hcell "next_attempt_at" (by decide),
    hcell "last_error" (by decide), hcell "retryable" (by decide), hcell "sent_at" (by decide)]
  have hretryable : decide ((if row.retryable then (1 : Int) else 0) ≠ 0) = row.retryable := by
    cases row.retryable <;> rfl
  show (do
    let id ← getUnsigned (.integer row.id)
    let status ← Sql.jobStatusOf row.status.asStr
    let attempts ← getUnsigned (.integer row.attempts)
    let lastError ← getOptionalText (.ofText? row.lastError)
    let sentAt ← getOptionalText (.ofText? row.sentAt)
    pure { notificationFromRow row with
      id, status, attempts, lastError, sentAt
      retryable := decide ((if row.retryable then (1 : Int) else 0) ≠ 0) }) = _
  rw [getUnsigned_natCast, jobStatusOf_asStr, getUnsigned_natCast, getOptionalText_ofText?,
    getOptionalText_ofText?, hretryable]
  rfl

/-! ## 4. What a file holds -/

/-- The table, if there is one, stores these values. -/
def Keeps {ρ : Type} (S : TableSchema) (cells : ρ → SqlRecord) (t : Option SqlTable) (xs : List ρ) :
    Prop :=
  match t with
  | none => xs = []
  | some t => t.Stores S cells xs

/-- What an earlier server leaves: each table in its present form or not created yet, or the
    notifications table without the column `retryable`. -/
structure DatabaseFile.Holds (file : DatabaseFile) (db : Db) : Prop where
  events : Keeps eventSchema EventRow.cells file.events db.events.rows
  alerts : Keeps alertSchema AlertRecord.cells file.alerts db.alerts.rows
  notifications :
    Keeps notificationSchema NotificationRow.cells file.notifications db.notifications.rows ∨
      (Keeps earlierSchema NotificationRow.cells file.notifications db.notifications.rows ∧
        ∀ row ∈ db.notifications.rows, row.retryable = true)
  sequence : file.sequence = db.notifications.seq

/-- The tables of the database are these rows; `kept` is its enrollments table. -/
structure Database.Reads (kept : SqlTable) (sql : Database) (db : Db) : Prop where
  events : sql.events.Stores eventSchema EventRow.cells db.events.rows
  alerts : sql.alerts.Stores alertSchema AlertRecord.cells db.alerts.rows
  notifications :
    sql.notifications.Stores notificationSchema NotificationRow.cells db.notifications.rows
  sequence : sql.sequence = db.notifications.seq
  enrollments : sql.enrollments = kept

theorem stores_createIfNotExists {ρ : Type} {S : TableSchema} {cells : ρ → SqlRecord}
    {t : Option SqlTable} {xs : List ρ} (h : Keeps S cells t xs) :
    (createIfNotExists S t).Stores S cells xs := by
  cases t with
  | none =>
    have hxs : xs = [] := h
    rw [hxs]
    exact .create
  | some t => exact h

theorem mem_names {ρ : Type} {t : SqlTable} {S : TableSchema} {cells : ρ → SqlRecord} {xs : List ρ}
    (h : t.Stores S cells xs) {n : String} : n ∈ t.names ↔ n ∈ S.columns.map Column.name := by
  rw [SqlTable.names, List.mem_map, List.mem_map]
  exact exists_congr fun c => and_congr_left fun _ => h.columns c

/-- **An initialised file holds what it held.** -/
theorem initialize_reads {file : DatabaseFile} {db : Db} (h : file.Holds db) :
    (initializeDatabase file).Reads (initializeDatabase file).enrollments db where
  events := stores_createIfNotExists h.events
  alerts := stores_createIfNotExists h.alerts
  notifications := by
    have hpresent : Keeps notificationSchema NotificationRow.cells file.notifications
        db.notifications.rows → (initializeDatabase file).notifications.Stores notificationSchema
          NotificationRow.cells db.notifications.rows := by
      intro hkeeps
      have hstores := stores_createIfNotExists hkeeps
      have hhas : retryableColumn.name ∈
          (createIfNotExists notificationSchema file.notifications).names :=
        (mem_names hstores).mpr (by decide)
      rw [initializeDatabase]
      simp only [dif_pos hhas]
      exact hstores
    rcases h.notifications with hkeeps | ⟨hkeeps, hretryable⟩
    · exact hpresent hkeeps
    · cases ht : file.notifications with
      | none =>
        rw [ht] at hkeeps
        exact hpresent (by rw [ht]; exact hkeeps)
      | some t =>
        rw [ht] at hkeeps
        have hstores : t.Stores earlierSchema NotificationRow.cells db.notifications.rows := hkeeps
        have hnot : retryableColumn.name ∉ t.names := fun hin =>
          absurd ((mem_names hstores).mp hin) (by decide)
        have hnot' : retryableColumn.name ∉
            (createIfNotExists notificationSchema file.notifications).names := by
          rw [ht]
          exact hnot
        have hcolumns : ∀ d, d ∈ notificationSchema.columns ↔
            d ∈ earlierSchema.columns ∨ d = retryableColumn := by
          intro d
          show _ ↔ d ∈ notificationSchema.columns.filter (fun c => decide (c ≠ retryableColumn)) ∨ _
          rw [List.mem_filter, decide_eq_true_eq]
          constructor
          · intro hd
            by_cases hc : d = retryableColumn
            · exact .inr hc
            · exact .inl ⟨hd, hc⟩
          · intro hd
            rcases hd with hd | rfl
            · exact hd.1
            · decide
        have hadd : (t.addColumn retryableColumn hnot).Stores notificationSchema
            NotificationRow.cells db.notifications.rows :=
          hstores.addColumn hcolumns rfl fun row hrow => by
            show Cell.integer (if row.retryable then 1 else 0) = _
            rw [hretryable row hrow]
            rfl
        rw [initializeDatabase]
        simp only [dif_neg hnot']
        simp only [ht]
        exact hadd
  sequence := h.sequence
  enrollments := rfl

/-- **A file that was initialised is left as it is.** -/
theorem initialize_file {kept : SqlTable} {sql : Database} {db : Db} (h : sql.Reads kept db) :
    initializeDatabase sql.file = sql := by
  have hhas : retryableColumn.name ∈ sql.notifications.names :=
    (mem_names h.notifications).mpr (by decide)
  show ({ events := sql.events
          alerts := sql.alerts
          notifications := if hasRetryable : retryableColumn.name ∈ sql.notifications.names then
            sql.notifications else sql.notifications.addColumn retryableColumn hasRetryable
          enrollments := sql.enrollments
          sequence := sql.sequence } : Database) = sql
  rw [dif_pos hhas]

end Beacon
