/-
  File:      Beacon/Server/Http.lean
  Subject:   `POST /v1/events` and `GET /v1/alerts` (`server.rs`, `accept_event`, `list_alerts`).

  The handler checks the credential, validates the event and calls `accept`. Whether the
  presented token is a credential, and whether the database serves the call, come from outside
  (`Handling`); a call the database fails leaves no trace, as its transaction is dropped.

  * `acceptEvent_cases` -- the handler refuses and changes nothing, or makes one call of `accept`;
  * `committed_of_success` -- **a success answer means the event is in the events table**;
  * `Inquiry.respond_unauthorized` -- neither handler does anything without a credential.
-/
import Beacon.Server.Queue

namespace Beacon

open Foundation

structure Response where
  status : Nat
  body : Json

/-- `StatusCode::is_success`. -/
def Response.isSuccess (r : Response) : Bool := 200 ≤ r.status && r.status ≤ 299

def errorBody (text : String) : Json := .obj [("error", .str text)]

/-- A record as a JSON value; the members of a value are sorted. -/
def AlertRecord.toJson (alert : AlertRecord) : Json :=
  .obj [("event_count", .num (.int alert.eventCount)),
    ("event_type", .str alert.eventType),
    ("fingerprint", .str alert.fingerprint),
    ("host_id", .str alert.hostId),
    ("last_event_id", .str alert.lastEventId),
    ("last_seen", .str alert.lastSeen),
    ("opened_at", .str alert.openedAt),
    ("resolved_at", alert.resolvedAt.elim .null .str),
    ("severity", .str alert.severity.asStr),
    ("source", .str alert.source),
    ("status", .str alert.status.asStr)]

def acceptedBody (eventId : String) (result : EventResult) : Json :=
  .obj [("alert", result.alert.toJson), ("duplicate", .bool result.duplicate),
    ("event_id", .str eventId), ("status", .str "accepted")]

/-- What a request meets: its credential, the clock, and the text of a database error if the
    database fails the call. -/
structure Handling where
  authorized : Bool
  fault : Option String
  receivedAt : DateTime
  queuedAt : DateTime

def Handling.call (env : Handling) (event : Event) : AcceptCall :=
  ⟨event, env.receivedAt, env.queuedAt⟩

section AcceptEvent

variable [Formats] (store : ServerEventStore) (env : Handling) (event : Event) (db : Db)

def acceptEvent : Response × Db :=
  if !env.authorized then (⟨401, errorBody "unauthorized"⟩, db)
  else match event.validate with
    | .error message => (⟨400, errorBody message⟩, db)
    | .ok () =>
      match env.fault with
      | some text => (⟨500, errorBody text⟩, db)
      | none =>
        match Transaction.transact (store.accept (env.call event)) db with
        | (.ok result, db) => (⟨202, acceptedBody event.eventId result⟩, db)
        | (.error (.raised .eventConflict), db) =>
          (⟨409, errorBody StoreError.eventConflict.message⟩, db)
        | (.error (.raised error), db) => (⟨500, errorBody error.message⟩, db)
        | (.error .refused, db) => (⟨500, errorBody ""⟩, db)

/-- The events table holds the event. -/
def Db.Holds (db : Db) (event : Event) : Prop :=
  ∃ row, db.events.get? event.eventId = some row ∧ row.payload = event.toString

/-- **What the handler does**: it refuses the event and changes nothing, or it answers with a
    success after a call of `accept` that leaves the event in the events table. -/
theorem acceptEvent_cases :
    ((acceptEvent store env event db).1.isSuccess = false ∧
      (acceptEvent store env event db).2 = db) ∨
    ((acceptEvent store env event db).1.isSuccess = true ∧ event.Valid ∧
      (acceptEvent store env event db).2 = ((Op.accept (env.call event)).perform store db).2 ∧
      (acceptEvent store env event db).2.Holds event) := by
  have ho := transact_accept store (env.call event) db
  rw [perform_accept]
  unfold acceptEvent
  cases env.authorized with
  | false => exact .inl ⟨rfl, rfl⟩
  | true =>
    cases hv : event.validate with
    | error m => exact .inl ⟨rfl, rfl⟩
    | ok u =>
      cases env.fault with
      | some text => exact .inl ⟨rfl, rfl⟩
      | none =>
        revert ho
        generalize Transaction.transact (store.accept (env.call event)) db = o
        intro ho
        cases ho with
        | invalid m _ => exact .inl ⟨rfl, rfl⟩
        | conflict row _ _ _ => exact .inl ⟨rfl, rfl⟩
        | missing row _ _ _ _ => exact .inl ⟨rfl, rfl⟩
        | duplicate row alert _ hid hp _ => exact .inr ⟨rfl, hv, rfl, row, hid, hp⟩
        | fresh events _ _ hr =>
          refine .inr ⟨rfl, hv, rfl, (env.call event).row, ?_, rfl⟩
          refine Table.get?_of_mem (t := events) (r := (env.call event).row) ?_
          rw [hr]
          exact List.mem_append_right _ (List.mem_singleton_self _)

variable {store env event db}

/-- **A success answer is given for committed events only.** -/
theorem committed_of_success (h : (acceptEvent store env event db).1.isSuccess = true) :
    event.Valid ∧
      (acceptEvent store env event db).2 = ((Op.accept (env.call event)).perform store db).2 ∧
      (acceptEvent store env event db).2.Holds event := by
  rcases acceptEvent_cases store env event db with ⟨hno, _⟩ | ⟨_, hyes⟩
  · rw [h] at hno
    cases hno
  · exact hyes

/-- **A refused event leaves no trace.** -/
theorem unchanged_of_refusal (h : (acceptEvent store env event db).1.isSuccess = false) :
    (acceptEvent store env event db).2 = db := by
  rcases acceptEvent_cases store env event db with ⟨_, hsame⟩ | ⟨hyes, _⟩
  · exact hsame
  · rw [h] at hyes
    cases hyes

/-- A valid event with a new id is accepted, if the credential and the database are good. -/
theorem accepted_of_fresh (ha : env.authorized = true) (hf : env.fault = none)
    (hv : event.Valid) (hid : db.events.get? event.eventId = none) :
    (acceptEvent store env event db).1.isSuccess = true := by
  have ho := transact_accept store (env.call event) db
  have hv' : event.validate = .ok () := hv
  unfold acceptEvent
  rw [ha, hv', hf]
  revert ho
  generalize Transaction.transact (store.accept (env.call event)) db = o
  intro ho
  cases ho with
  | fresh events _ _ _ => rfl
  | invalid m h => exact absurd (h.symm.trans hv') nofun
  | conflict row _ h _ => exact absurd (h.symm.trans hid) nofun
  | missing row _ h _ _ => exact absurd (h.symm.trans hid) nofun
  | duplicate row alert _ h _ _ => exact absurd (h.symm.trans hid) nofun

/-- **A committed event stays committed.** -/
theorem holds_perform (h : db.Holds event) (op : Op) : (op.perform store db).2.Holds event := by
  obtain ⟨row, hid, hp⟩ := h
  rcases perform_cases store db op with ⟨call, events, _, _, _, hr, hperf⟩ | ⟨p, f, hf, _, hdb⟩
  · rw [hperf]
    refine ⟨row, ?_, hp⟩
    rw [← Table.key_of_get? hid]
    refine Table.get?_of_mem (t := events) (r := row) ?_
    rw [hr]
    exact List.mem_append_left _ (Table.mem_of_get? hid)
  · rw [hdb]
    exact ⟨row, hid, hp⟩

end AcceptEvent

/-! ## 2. `GET /v1/alerts` -/

structure AlertQuery where
  status : Option String
  limit : Nat

/-- `SELECT .. FROM alerts [WHERE status = ?1] ORDER BY last_seen DESC LIMIT ?2`. -/
def Db.listAlerts (db : Db) (status : Option AlertStatus) (limit : Nat) : List AlertRecord :=
  ((db.alerts.rows.filter fun alert => status.all fun status => alert.status = status).mergeSort
    fun a b => b.lastSeen ≤ a.lastSeen).take (max 1 (min limit 500))

def alertsBody (alerts : List AlertRecord) : Json :=
  .obj [("alerts", .arr (alerts.map AlertRecord.toJson))]

def listAlerts (env : Handling) (query : AlertQuery) (db : Db) : Response :=
  if !env.authorized then ⟨401, errorBody "unauthorized"⟩
  else match query.status.mapM AlertStatus.fromStr with
    | .error message => ⟨400, errorBody message⟩
    | .ok status =>
      match env.fault with
      | some text => ⟨500, errorBody text⟩
      | none => ⟨200, alertsBody (db.listAlerts status query.limit)⟩

/-! ## 3. Requests with a credential -/

/-- What a request asks for, once its body or its parameters are read. -/
inductive Target where
  | events (event : Event)
  | alerts (query : AlertQuery)

/-- A request; `authorization` is the header, where there is one that is text. -/
structure Inquiry where
  authorization : Option String
  target : Target

/-- The token a request presents. -/
def Inquiry.presented (q : Inquiry) : Option String :=
  q.authorization.bind (Text.stripPrefix "Bearer ")

/-- The answer, once the credential is looked up, and the tables it leaves. -/
def Inquiry.respond [Formats] (q : Inquiry) (store : ServerEventStore) (env : Handling) (db : Db) :
    Response × Db :=
  match q.target with
  | .events event => acceptEvent store env event db
  | .alerts query => (listAlerts env query db, db)

/-- **Who is not authorized is told so, and nothing else happens.** -/
theorem Inquiry.respond_unauthorized [Formats] (q : Inquiry) (store : ServerEventStore)
    {env : Handling} (h : env.authorized = false) (db : Db) :
    q.respond store env db = (⟨401, errorBody "unauthorized"⟩, db) := by
  unfold Inquiry.respond
  split
  · rw [acceptEvent, h]
    rfl
  · rw [listAlerts, h]
    rfl

end Beacon
