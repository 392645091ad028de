/-
  File:      Beacon/Model.lean
  Subject:   The event protocol: events, alert records and event validation (`model.rs`).

  An event is what a producer sends; an alert record is what the server keeps for one
  fingerprint. `Event.validate` is the gate both the spool and the server put before an event;
  its errors carry the texts of the source. `Event.toJson` is the object the derived serialiser
  writes, field by field in the order of the declaration, and `Event.toString` its compact text,
  which the server keeps and compares.

  The two parsers the gate calls (UUID and RFC 3339) are third-party code: `Formats` takes them
  as parameters.

  * `Event.valid_iff` -- what `validate` admits;
  * `Event.toJson_injective`, `Event.toString_injective` -- two float-free events with one text
    are one event;
  * `Event.head_of_toString` -- with or without floats, the text fixes all but the facts;
  * `AlertStatus.fromStr_asStr` and its siblings -- the text a table keeps reads back.
-/
import Beacon.Foundation.Json
import Beacon.Foundation.Rfc3339
import Beacon.Foundation.SortedMap
import Beacon.Foundation.Text

namespace Beacon

open Foundation

/-- The third-party parsers: whether `Uuid::parse_str` accepts, and the instant
    `DateTime::parse_from_rfc3339` reads. -/
class Formats where
  uuidParseStr : String → Bool
  parseFromRfc3339 : String → Option DateTime

/-! ## 1. Enumerations -/

inductive EventState where
  | firing
  | resolved
  | info
  deriving DecidableEq, Repr

def EventState.asStr : EventState → String
  | .firing => "firing"
  | .resolved => "resolved"
  | .info => "info"

def EventState.fromStr (value : String) : Except String EventState :=
  if value = "firing" then .ok .firing
  else if value = "resolved" then .ok .resolved
  else if value = "info" then .ok .info
  else .error s!"invalid event state: {value}"

inductive Severity where
  | critical
  | warning
  | info
  deriving DecidableEq, Repr

def Severity.asStr : Severity → String
  | .critical => "critical"
  | .warning => "warning"
  | .info => "info"

def Severity.fromStr (value : String) : Except String Severity :=
  if value = "critical" then .ok .critical
  else if value = "warning" then .ok .warning
  else if value = "info" then .ok .info
  else .error s!"invalid severity: {value}"

inductive AlertStatus where
  | firing
  | resolved
  | info
  deriving DecidableEq, Repr

def AlertStatus.asStr : AlertStatus → String
  | .firing => "firing"
  | .resolved => "resolved"
  | .info => "info"

def AlertStatus.fromStr (value : String) : Except String AlertStatus :=
  if value = "firing" then .ok .firing
  else if value = "resolved" then .ok .resolved
  else if value = "info" then .ok .info
  else .error s!"invalid alert status: {value}"

/-- A state reads back from its text. -/
theorem EventState.fromStr_asStr (s : EventState) : fromStr s.asStr = .ok s := by
  cases s <;> rfl

/-- A severity reads back from the text a row keeps. -/
theorem Severity.fromStr_asStr (s : Severity) : fromStr s.asStr = .ok s := by
  cases s <;> rfl

/-- A status reads back from the text a row keeps, so a table of records is a table of rows. -/
theorem AlertStatus.fromStr_asStr (s : AlertStatus) : fromStr s.asStr = .ok s := by
  cases s <;> rfl

theorem EventState.asStr_injective {s t : EventState} (h : s.asStr = t.asStr) : s = t := by
  have e : fromStr s.asStr = fromStr t.asStr := by rw [h]
  rw [fromStr_asStr, fromStr_asStr] at e
  exact Except.ok.inj e

theorem Severity.asStr_injective {s t : Severity} (h : s.asStr = t.asStr) : s = t := by
  have e : fromStr s.asStr = fromStr t.asStr := by rw [h]
  rw [fromStr_asStr, fromStr_asStr] at e
  exact Except.ok.inj e

/-! ## 2. Events and alert records -/

/-- A normalised event. `facts` is the sorted map of the source. -/
@[ext] structure Event where
  schemaVersion : Nat
  eventId : String
  eventType : String
  source : String
  hostId : String
  state : EventState
  severity : Severity
  fingerprint : String
  occurredAt : String
  facts : SortedMap String Json

/-- The server's record for one fingerprint. -/
@[ext] structure AlertRecord where
  fingerprint : String
  status : AlertStatus
  severity : Severity
  eventType : String
  source : String
  hostId : String
  openedAt : String
  lastSeen : String
  resolvedAt : Option String
  eventCount : Nat
  lastEventId : String
  deriving DecidableEq, Repr

/-! ## 3. Validation -/

def requireField (name value : String) (maxBytes : Nat) : Except String Unit :=
  if Text.isBlank value then .error s!"{name} cannot be empty"
  else if value.utf8ByteSize > maxBytes then .error s!"{name} exceeds the {maxBytes}-byte limit"
  else .ok ()

/-- One entry of the facts: the key, then the size of the encoded value. -/
def validateFact (key : String) (value : Json) : Except String Unit := do
  requireField "fact key" key 64
  if value.text.utf8ByteSize > 4096 then
    .error s!"fact '{key}' exceeds the 4096-byte value limit"

def Event.validate [Formats] (event : Event) : Except String Unit := do
  if event.schemaVersion ≠ 1 then
    .error s!"unsupported event schema version: {event.schemaVersion}"
  requireField "event_id" event.eventId 128
  if Formats.uuidParseStr event.eventId = false then
    .error "event_id must be a UUID"
  requireField "event_type" event.eventType 128
  requireField "source" event.source 128
  requireField "host_id" event.hostId 128
  requireField "fingerprint" event.fingerprint 256
  requireField "occurred_at" event.occurredAt 64
  if (Formats.parseFromRfc3339 event.occurredAt).isNone then
    .error "occurred_at must be RFC3339"
  if event.facts.length > 32 then
    .error "facts cannot contain more than 32 fields"
  event.facts.entries.forM fun entry => validateFact entry.1 entry.2

/-- The event passes `validate`. -/
def Event.Valid [Formats] (event : Event) : Prop := event.validate = .ok ()

instance [Formats] (event : Event) : Decidable event.Valid :=
  match h : event.validate with
  | .ok () => .isTrue h
  | .error e => .isFalse fun h' => by
    rw [Event.Valid, h] at h'
    cases h'

theorem seq_ok {x : Except String Unit} {f : Unit → Except String Unit} :
    (x >>= f) = .ok () ↔ x = .ok () ∧ f () = .ok () := by
  cases x with
  | error e => exact ⟨nofun, fun h => by cases h.1⟩
  | ok a => exact ⟨fun h => ⟨rfl, h⟩, fun h => h.2⟩

/-- A check passes where what it refuses is not the case, and what follows passes. -/
theorem guard_ok {p : Prop} [Decidable p] {message : String} {f : Unit → Except String Unit}
    {x : Except String Unit} :
    (if p then Except.error message >>= f else x) = .ok () ↔ ¬ p ∧ x = .ok () := by
  by_cases hp : p
  · rw [if_pos hp]
    exact ⟨nofun, fun h => absurd hp h.1⟩
  · rw [if_neg hp]
    exact ⟨fun h => ⟨hp, h⟩, fun h => h.2⟩

theorem forM_ok {α : Type} {f : α → Except String Unit} {l : List α}
    (h : l.forM f = .ok ()) : ∀ a ∈ l, f a = .ok () := by
  induction l with
  | nil => exact fun a ha => (List.not_mem_nil ha).elim
  | cons b l ih =>
    obtain ⟨hb, hl⟩ := seq_ok.mp h
    exact List.forall_mem_cons.mpr ⟨hb, ih hl⟩

theorem requireField_ok {name value : String} {b : Nat} :
    requireField name value b = .ok () ↔ Text.isBlank value = false ∧ value.utf8ByteSize ≤ b := by
  unfold requireField
  cases Text.isBlank value with
  | true => simp
  | false => simp

/-- **What `validate` admits.** -/
theorem Event.valid_iff [Formats] {event : Event} : event.Valid ↔
    event.schemaVersion = 1 ∧ requireField "event_id" event.eventId 128 = .ok () ∧
    Formats.uuidParseStr event.eventId = true ∧
    requireField "event_type" event.eventType 128 = .ok () ∧
    requireField "source" event.source 128 = .ok () ∧
    requireField "host_id" event.hostId 128 = .ok () ∧
    requireField "fingerprint" event.fingerprint 256 = .ok () ∧
    requireField "occurred_at" event.occurredAt 64 = .ok () ∧
    (Formats.parseFromRfc3339 event.occurredAt).isSome ∧
    event.facts.length ≤ 32 ∧
    event.facts.entries.forM (fun entry => validateFact entry.1 entry.2) = .ok () := by
  unfold Event.Valid Event.validate
  by_cases h1 : event.schemaVersion = 1
  · by_cases h2 : Formats.uuidParseStr event.eventId = true
    · cases h3 : Formats.parseFromRfc3339 event.occurredAt with
      | none => simp [h1, h2, seq_ok]
      | some t =>
        rcases Nat.lt_or_ge 32 event.facts.length with h4 | h4
        · have h5 : ¬ event.facts.length ≤ 32 := Nat.not_le_of_lt h4
          simp [h1, h2, h4, h5, seq_ok]
        · have h5 : ¬ 32 < event.facts.length := Nat.not_lt_of_le h4
          simp [h1, h2, h4, h5, seq_ok]
    · simp [h1, h2, seq_ok]
  · simp [h1, seq_ok]

/-- An event that passes has an id. -/
theorem Event.eventId_ne [Formats] {event : Event} (h : event.Valid) : event.eventId ≠ "" := by
  intro he
  have hid := (requireField_ok.mp (valid_iff.mp h).2.1).1
  rw [he] at hid
  exact absurd hid (by decide)

/-! ## 4. The text of an event -/

/-- The members before the facts. -/
def Event.head (event : Event) : List (String × Json) :=
  [("schema_version", .num (.int event.schemaVersion)),
    ("event_id", .str event.eventId),
    ("event_type", .str event.eventType),
    ("source", .str event.source),
    ("host_id", .str event.hostId),
    ("state", .str event.state.asStr),
    ("severity", .str event.severity.asStr),
    ("fingerprint", .str event.fingerprint),
    ("occurred_at", .str event.occurredAt)]

/-- The object the derived serialiser writes. -/
def Event.toJson (event : Event) : Json :=
  .obj (event.head ++ [("facts", .obj event.facts.entries)])

/-- `serde_json::to_string(event)`. -/
def Event.toString (event : Event) : String := event.toJson.text

/-- No fact holds a floating-point number. -/
def Event.floatFree (event : Event) : Bool := Json.floatFreeMembers event.facts.entries

theorem Event.toJson_injective {e f : Event} (h : e.toJson = f.toJson) : e = f := by
  simp only [toJson, head, List.cons_append, List.nil_append, Json.obj.injEq, List.cons.injEq, Prod.mk.injEq, Json.num.injEq,
    Number.int.injEq, Json.str.injEq, true_and, and_true, Int.natCast_inj] at h
  obtain ⟨h1, h2, h3, h4, h5, h6, h7, h8, h9, h10⟩ := h
  exact Event.ext h1 h2 h3 h4 h5 (EventState.asStr_injective h6) (Severity.asStr_injective h7)
    h8 h9 (SortedMap.ext h10)

theorem Event.floatFree_toJson {e : Event} (h : e.floatFree = true) :
    e.toJson.floatFree = true := by
  unfold floatFree at h
  simp only [toJson, head, List.cons_append, List.nil_append, Json.floatFree,
    Json.floatFreeMembers, Bool.true_and, Bool.and_true]
  exact h

/-- **Two float-free events with one text are one event.** -/
theorem Event.toString_injective {e f : Event} (he : e.floatFree = true)
    (hf : f.floatFree = true) (h : e.toString = f.toString) : e = f :=
  toJson_injective (Json.print_injective (floatFree_toJson he) (floatFree_toJson hf) h)

/-- Equal texts have equal members before the facts, whatever the facts are. -/
theorem Event.head_of_toString {e f : Event} (h : e.toString = f.toString) : e.head = f.head := by
  have hp : Json.printMembers true (e.head ++ [("facts", .obj e.facts.entries)]) =
      Json.printMembers true (f.head ++ [("facts", .obj f.facts.entries)]) :=
    (List.cons.inj (String.ofList_inj.mp h)).2
  exact Json.printMembers_leading true _ _ _ _ rfl rfl rfl hp

theorem Event.same_of_head {e f : Event} (h : e.head = f.head) :
    e.eventId = f.eventId ∧ e.state = f.state ∧ e.fingerprint = f.fingerprint := by
  simp only [head, List.cons.injEq, Prod.mk.injEq, Json.str.injEq, true_and] at h
  exact ⟨h.2.1, EventState.asStr_injective h.2.2.2.2.2.1, h.2.2.2.2.2.2.2.1⟩

theorem Event.fingerprint_of_toString {e f : Event} (h : e.toString = f.toString) :
    e.fingerprint = f.fingerprint := (same_of_head (head_of_toString h)).2.2

/-! ## 5. Sample events -/

namespace Sample

def id1 : String := "00000000-0000-4000-8000-000000000001"
def id2 : String := "00000000-0000-4000-8000-000000000002"
def id3 : String := "00000000-0000-4000-8000-000000000003"

/-- The instants of the sample events, a minute apart. -/
def times : List (String × DateTime) :=
  [("2026-01-01T00:00:00Z", ⟨1767225600000000000⟩),
    ("2026-01-01T00:01:00Z", ⟨1767225660000000000⟩),
    ("2026-01-01T00:02:00Z", ⟨1767225720000000000⟩)]

/-- The parsers on the texts of the sample events. -/
@[reducible] def formats : Formats where
  uuidParseStr s := s = id1 || s = id2 || s = id3
  parseFromRfc3339 s := times.lookup s

def event (id occurredAt : String) (state : EventState) (severity : Severity) : Event :=
  { schemaVersion := 1
    eventId := id
    eventType := "backup.restic.stale"
    source := "restic-age-check"
    hostId := "backup"
    state := state
    severity := severity
    fingerprint := "backup/restic/age"
    occurredAt := occurredAt
    facts := .empty }

/-- An event whose facts are a number, nested values, and a text with characters to escape. -/
def measured : Event :=
  { event id1 "2026-01-01T00:00:00Z" .firing .critical with
    facts := ⟨[("age_seconds", .num (.int 172800)),
      ("last", .obj [("ok", .bool false),
        ("ratios", .arr [.num (.float "-0.0"), .num (.int (-3)), .null])]),
      ("path", .str "/srv/\"backup\"\t\\\n")], by decide⟩ }

theorem valid_measured : @Event.Valid formats measured := by decide +kernel

end Sample

end Beacon
