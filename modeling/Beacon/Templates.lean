/-
  File:      Beacon/Templates.lean
  Subject:   Message templates and the renderer of notification payloads (`notification.rs`).

  A template is literal text with placeholders in braces. `validateTemplate` is the check made
  when the configuration is loaded; `renderTemplate` is the loop that fills a template, with the
  fallbacks it has for text the check would have refused. `renderEvent` picks icon, label,
  fallbacks and format by the status of the alert, not by the state of the event.

  * `MessageTemplates.validate_default` -- the templates used without a configuration pass;
  * `renderEvent_reviewed` -- **what a message shows**: two events that agree on the reviewed data
    have one message, whatever else they hold.
-/
import Beacon.Model

namespace Beacon

open Foundation

/-! ## 1. Configuration -/

structure FieldTemplate where
  label : String
  fact : String
  deriving DecidableEq, Repr

structure StateMessage where
  detail : String := ""
  action : String := ""
  deriving DecidableEq, Repr

def defaultFiringFormat : String :=
  "\x7bicon\x7d \x7bstatus\x7d\n\x7bhost\x7d | \x7btitle\x7d\n\n\x7bdetail\x7d\n\n" ++
  "Action: \x7baction\x7d\nSeverity: \x7bseverity\x7d"

def defaultResolvedFormat : String :=
  "\x7bicon\x7d \x7bstatus\x7d\n\x7bhost\x7d | \x7btitle\x7d\n\n\x7bdetail\x7d\n\n" ++
  "Action: \x7baction\x7d"

def defaultInfoFormat : String :=
  "\x7bicon\x7d \x7bstatus\x7d\n\x7bhost\x7d | \x7btitle\x7d\n\n\x7bdetail\x7d"

def defaultTitle : String := "Monitored condition"

structure MessageFormats where
  firing : String := defaultFiringFormat
  resolved : String := defaultResolvedFormat
  info : String := defaultInfoFormat
  deriving DecidableEq, Repr

structure EventMessages where
  title : String := defaultTitle
  firing : StateMessage := {}
  resolved : StateMessage := {}
  info : StateMessage := {}
  fields : List FieldTemplate := []
  deriving DecidableEq, Repr

structure MessageTemplates where
  formats : MessageFormats := {}
  events : SortedMap String EventMessages := .empty
  deriving DecidableEq

/-! ## 2. Validation -/

def placeholders : List String :=
  ["icon", "status", "host", "title", "detail", "action", "severity", "fields"]

/-- The loop of `validate_template` over what is left of the template. -/
def validatePlaceholders (name : String) (rest : List Char) : Except String Unit :=
  match _h : Text.splitOnce '\x7b' rest with
  | none =>
    if '\x7d' ∈ rest then
      .error s!"Telegram template '{name}' contains an unmatched closing brace"
    else .ok ()
  | some (_, afterStart) =>
    match _h' : Text.splitOnce '\x7d' afterStart with
    | none => .error "Telegram template contains an unclosed placeholder"
    | some (placeholder, rest') =>
      if String.ofList placeholder ∈ placeholders then validatePlaceholders name rest'
      else .error ("Telegram template '" ++ name ++ "' uses unsupported placeholder '" ++
        String.ofList placeholder ++ "'")
termination_by rest.length
decreasing_by
  have h1 := Text.splitOnce_length _h
  have h2 := Text.splitOnce_length _h'
  omega

def validateTemplate (name template : String) : Except String Unit := do
  if template.isEmpty || template.utf8ByteSize > 4096 then
    .error s!"Telegram template '{name}' must be between 1 and 4096 bytes"
  validatePlaceholders name template.toList

def StateMessage.validate (eventType : String) (state : StateMessage) : Except String Unit :=
  if state.detail.utf8ByteSize > 1024 || state.action.utf8ByteSize > 512 then
    .error s!"Telegram template content for '{eventType}' is too long"
  else .ok ()

def FieldTemplate.validate (eventType : String) (field : FieldTemplate) : Except String Unit :=
  if Text.isBlank field.label || field.label.utf8ByteSize > 128 || Text.isBlank field.fact ||
      field.fact.utf8ByteSize > 64 then
    .error s!"Telegram template field for '{eventType}' is invalid"
  else .ok ()

/-- The checks of one configured event type. -/
def EventMessages.validate (eventType : String) (message : EventMessages) :
    Except String Unit := do
  if Text.isBlank eventType || eventType.utf8ByteSize > 128 then
    .error "Telegram template event type is invalid"
  if Text.isBlank message.title || message.title.utf8ByteSize > 256 then
    .error s!"Telegram template title for '{eventType}' is invalid"
  [message.firing, message.resolved, message.info].forM (StateMessage.validate eventType)
  if message.fields.length > 16 then
    .error s!"Telegram template fields for '{eventType}' cannot exceed 16 items"
  message.fields.forM (FieldTemplate.validate eventType)

def MessageTemplates.validate (templates : MessageTemplates) : Except String Unit := do
  validateTemplate "firing" templates.formats.firing
  validateTemplate "resolved" templates.formats.resolved
  validateTemplate "info" templates.formats.info
  if templates.events.length > 256 then
    .error "Telegram templates cannot contain more than 256 event types"
  templates.events.entries.forM fun entry => entry.2.validate entry.1

/-! ## 3. Rendering -/

/-- `render_template`: a placeholder without a value is dropped, and an unclosed one reaches to
    the end of the text. -/
def renderTemplate (values : List (String × String)) (rest : List Char) : List Char :=
  match _h : Text.splitOnce '\x7b' rest with
  | none => rest
  | some (before, afterStart) =>
    match _h' : Text.splitOnce '\x7d' afterStart with
    | none => before ++ ((values.lookup (String.ofList afterStart)).getD "").toList
    | some (placeholder, rest') =>
      before ++ ((values.lookup (String.ofList placeholder)).getD "").toList ++
        renderTemplate values rest'
termination_by rest.length
decreasing_by
  have h1 := Text.splitOnce_length _h
  have h2 := Text.splitOnce_length _h'
  omega

def humanHost (host : String) : String :=
  if host = "media" then "Media"
  else if host = "ops" then "Ops"
  else if host = "backup" then "Backup"
  else if host = "pve" then "PVE"
  else if host = "private-cloud" then "Private Cloud"
  else "Infrastructure"

def humanSeverity : Severity → String
  | .critical => "critical"
  | .warning => "warning"
  | .info => "info"

/-- The text of a scalar fact; arrays, objects and null have none. -/
def scalarText : Json → Option String
  | .str s => some s
  | .num n => some (String.ofList (Json.printNumber n))
  | .bool b => some (if b then "true" else "false")
  | _ => none

/-- One line of `render_fields`; a field whose fact is absent or not a scalar has none. -/
def renderField (event : Event) (field : FieldTemplate) : Option String := do
  let value ← event.facts.get? field.fact
  let value ← scalarText value
  let value := String.ofList ((value.toList.filter fun c => !Text.isControl c).take 256)
  pure (field.label ++ ": " ++ value)

def renderFields (event : Event) (fields : List FieldTemplate) : String :=
  "\n".intercalate (fields.filterMap (renderField event))

/-- What a status puts into a message before any template. -/
structure Wording where
  icon : String
  status : String
  fallbackDetail : String
  fallbackAction : String
  deriving DecidableEq, Repr

def AlertStatus.wording : AlertStatus → Wording
  | .firing => ⟨"🚨", "ALERT FIRING", "A monitored condition requires attention.",
      "Check the corresponding runbook."⟩
  | .resolved => ⟨"✅", "ALERT RESOLVED", "The monitored condition has recovered.",
      "No immediate action required."⟩
  | .info => ⟨"ℹ️", "INFORMATION", "An operational event was recorded.",
      "No immediate action required."⟩

def MessageFormats.format (formats : MessageFormats) : AlertStatus → String
  | .firing => formats.firing
  | .resolved => formats.resolved
  | .info => formats.info

def EventMessages.stateMessage (message : EventMessages) : AlertStatus → StateMessage
  | .firing => message.firing
  | .resolved => message.resolved
  | .info => message.info

/-- A configured text, unless there is none or it is empty. -/
def configured (text : Option String) (fallback : String) : String :=
  (text.filter fun t => !t.isEmpty).getD fallback

/-- The values of the placeholders in a message. -/
def messageValues (event : Event) (status : AlertStatus) (severity : Severity)
    (templates : MessageTemplates) : List (String × String) :=
  let message := templates.events.get? event.eventType
  let state := message.map fun m => m.stateMessage status
  [("icon", status.wording.icon),
    ("status", status.wording.status),
    ("host", humanHost event.hostId),
    ("title", (message.map EventMessages.title).getD defaultTitle),
    ("detail", configured (state.map StateMessage.detail) status.wording.fallbackDetail),
    ("action", configured (state.map StateMessage.action) status.wording.fallbackAction),
    ("severity", humanSeverity severity),
    ("fields", (message.map fun m => renderFields event m.fields).getD "")]

/-- The message of `event` under a status: its format, filled with its values. -/
def renderMessage (event : Event) (status : AlertStatus) (severity : Severity)
    (templates : MessageTemplates) : String :=
  String.ofList (renderTemplate (messageValues event status severity templates)
    (templates.formats.format status).toList)

def renderEvent (event : Event) (alert : AlertRecord) (templates : MessageTemplates) : String :=
  renderMessage event alert.status alert.severity templates

/-- **The templates used without a configuration pass the check.** -/
theorem MessageTemplates.validate_default : ({} : MessageTemplates).validate = .ok () := by
  decide +kernel

/-! ## 4. What a message shows -/

/-- The text a fact is shown as, if it is shown. -/
def renderedFact (event : Event) (fact : String) : Option String := do
  let value ← event.facts.get? fact
  let value ← scalarText value
  pure (String.ofList ((value.toList.filter fun c => !Text.isControl c).take 256))

/-- A line shows its label and its fact. -/
theorem renderField_eq (event : Event) (field : FieldTemplate) : renderField event field =
    (renderedFact event field.fact).map fun value => field.label ++ ": " ++ value := by
  unfold renderField renderedFact
  cases event.facts.get? field.fact with
  | none => rfl
  | some value => cases value <;> rfl

/-- The lines show the facts they name. -/
theorem renderFields_congr {e f : Event} {fields : List FieldTemplate}
    (h : ∀ field ∈ fields, renderedFact e field.fact = renderedFact f field.fact) :
    renderFields e fields = renderFields f fields := by
  unfold renderFields
  refine congrArg _ (List.filterMap_congr fun field hfield => ?_)
  rw [renderField_eq, renderField_eq, h field hfield]

/-- **Nothing but reviewed data is shown.** Under any templates, two events with alerts of one
    status and severity have one message if they agree on the entry configured for their type, on
    the name shown for their host, and on what is shown for the facts the entry lists. -/
theorem renderEvent_reviewed (templates : MessageTemplates) (e f : Event) (a b : AlertRecord)
    (hstatus : a.status = b.status) (hseverity : a.severity = b.severity)
    (hentry : templates.events.get? e.eventType = templates.events.get? f.eventType)
    (hhost : humanHost e.hostId = humanHost f.hostId)
    (hfacts : ∀ message, templates.events.get? e.eventType = some message →
      ∀ field ∈ message.fields, renderedFact e field.fact = renderedFact f field.fact) :
    renderEvent e a templates = renderEvent f b templates := by
  have hfields : (templates.events.get? e.eventType).map (fun m => renderFields e m.fields) =
      (templates.events.get? f.eventType).map (fun m => renderFields f m.fields) := by
    rw [← hentry]
    exact Option.map_congr fun m hm => renderFields_congr (hfacts m hm)
  have hvalues : messageValues e a.status a.severity templates =
      messageValues f b.status b.severity templates := by
    simp only [messageValues]
    rw [hfields, hentry, hhost, hstatus, hseverity]
  unfold renderEvent renderMessage
  rw [hvalues, hstatus]

namespace Sample

/-- Templates that show one fact of a stale backup. -/
def ageTemplates : MessageTemplates :=
  { events := ⟨[("backup.restic.stale",
      { title := "Backup too old", fields := [⟨"Age", "age_hours"⟩] })], List.pairwise_singleton _ _⟩ }

/-- A record of the stale backup. -/
def ageRecord (count : Nat) : AlertRecord :=
  ⟨"backup/restic/age", .firing, .critical, "backup.restic.stale", "restic-age-check", "backup",
    "2026-01-01T00:00:00+00:00", "2026-01-01T00:00:00+00:00", none, count, id1⟩

/-- A stale backup with its age and another fact. -/
def aged (id secret : String) : Event :=
  { event id "2026-01-01T00:00:00Z" .firing .critical with
    facts := ⟨[("age_hours", .num (.int 40)), ("token", .str secret)],
      List.pairwise_pair.mpr (show "age_hours" < "token" by decide)⟩ }

end Sample

/-- The theorem at two events that differ in their id and in a fact no field lists. -/
theorem renderEvent_reviewed_age :
    renderEvent (Sample.aged Sample.id1 "first") (Sample.ageRecord 1) Sample.ageTemplates =
      renderEvent (Sample.aged Sample.id2 "second") (Sample.ageRecord 2) Sample.ageTemplates := by
  refine renderEvent_reviewed Sample.ageTemplates _ _ _ _ rfl rfl rfl rfl fun message hm => ?_
  have hentry : Sample.ageTemplates.events.get? "backup.restic.stale" =
      some { title := "Backup too old", fields := [⟨"Age", "age_hours"⟩] } := by decide +kernel
  obtain rfl := Option.some.inj (hentry.symm.trans hm)
  simp only [List.mem_singleton, forall_eq]
  decide +kernel

end Beacon
