/-
  File:      Beacon/Messages.lean
  Subject:   What a message is made of: the text the operator configured, and the values of the
             facts a producer sends.

  The mapped facts of an event come into a message through `{fields}` only. A line of a mapped
  fact is its label, a colon and a blank, and then a hole; so a message is one skeleton
  (`Foundation/Skeleton.lean`) that the event has no part in beyond its type, the name of its host
  and which facts it has, and the facts are put into the holes.

  * `renderMessage_skeleton` -- a message is its skeleton, filled with the facts;
  * `payloads_differ_in_values` -- **a producer cannot forge the structure of a message**.
-/
import Beacon.Foundation.Skeleton
import Beacon.Placeholders

namespace Beacon

open Foundation

/-! ## 1. Facts -/

/-- The text of a fact, if the event has it as a scalar. -/
def factText (event : Event) (fact : String) : Option String :=
  (event.facts.get? fact).bind scalarText

/-- What a message shows of a mapped fact. -/
def valuePart (event : Event) (field : FieldTemplate) : List Char :=
  (factText event field.fact).elim [] fun text =>
    (text.toList.filter fun c => !Text.isControl c).take 256

/-- The fields configured for a type of events. -/
def MessageTemplates.mapped (templates : MessageTemplates) (eventType : String) :
    List FieldTemplate := (templates.events.get? eventType).elim [] EventMessages.fields

/-- The fields that have a line in the message of an event. -/
def shownFields (templates : MessageTemplates) (event : Event) : List FieldTemplate :=
  (templates.mapped event.eventType).filter fun field => (factText event field.fact).isSome

/-- **A part of a message that comes from a fact** is a prefix of its text without control
    characters, of 256 characters at most. -/
theorem valuePart_prefix {event : Event} {field : FieldTemplate} {text : String}
    (h : factText event field.fact = some text) :
    valuePart event field <+: text.toList.filter (fun c => !Text.isControl c) ∧
      (valuePart event field).length ≤ 256 := by
  rw [valuePart, h]
  exact ⟨List.take_prefix _ _, (List.length_take_le _ _)⟩

theorem newline_not_mem_valuePart (event : Event) (field : FieldTemplate) :
    '\n' ∉ valuePart event field := by
  intro hin
  unfold valuePart at hin
  cases h : factText event field.fact with
  | none =>
    rw [h] at hin
    exact List.not_mem_nil hin
  | some text =>
    rw [h] at hin
    have hfree := (List.mem_filter.mp (List.mem_of_mem_take hin)).2
    exact absurd hfree (by decide)

/-! ## 2. Fields -/

/-- What stands in a line before the fact. -/
def FieldTemplate.lead (field : FieldTemplate) : List Char := (field.label ++ ": ").toList

/-- The lines of `{fields}`, their facts left open. -/
def fieldsSkeleton (fields : List FieldTemplate) : Skeleton Char FieldTemplate :=
  List.intercalate [.text ['\n']] (fields.map fun field => [.text field.lead, .hole field])

theorem holes_fieldsSkeleton (fields : List FieldTemplate) :
    (fieldsSkeleton fields).holes = fields := by
  rw [fieldsSkeleton, Skeleton.holes_intercalate, List.flatMap_map]
  exact List.flatMap_singleton' fields

theorem led_fieldsSkeleton (fields : List FieldTemplate) :
    Skeleton.Led FieldTemplate.lead (fieldsSkeleton fields) := by
  refine Skeleton.Led.intercalate fun line hline => ?_
  obtain ⟨field, _, rfl⟩ := List.mem_map.mp hline
  exact .hole _ field List.suffix_rfl .nil

theorem renderField_factText (event : Event) (field : FieldTemplate) : renderField event field =
    (factText event field.fact).map fun _ =>
      field.label ++ ": " ++ String.ofList (valuePart event field) := by
  unfold renderField valuePart factText
  cases event.facts.get? field.fact with
  | none => rfl
  | some value => cases value <;> rfl

/-- The lines that are shown. -/
theorem lines_eq (event : Event) (fields : List FieldTemplate) :
    fields.filterMap (renderField event) =
      (fields.filter fun field => (factText event field.fact).isSome).map fun field =>
        field.label ++ ": " ++ String.ofList (valuePart event field) := by
  induction fields with
  | nil => rfl
  | cons field fields ih =>
    rw [List.filterMap_cons, renderField_factText, ih, List.filter_cons]
    cases factText event field.fact <;> rfl

/-- **The text of `{fields}`** is its lines, filled with the facts. -/
theorem renderFields_skeleton (event : Event) (fields : List FieldTemplate) :
    (renderFields event fields).toList =
      (fieldsSkeleton (fields.filter fun field => (factText event field.fact).isSome)).fill
        (valuePart event) := by
  rw [renderFields, lines_eq, String.toList_intercalate, fieldsSkeleton, Skeleton.fill_intercalate,
    List.map_map, List.map_map]
  refine congrArg (List.intercalate ['\n']) (List.map_congr_left fun field _ => ?_)
  simp [FieldTemplate.lead]

/-! ## 3. Messages -/

/-- The values of the placeholders other than `{fields}`. -/
def fixedValues (templates : MessageTemplates) (eventType host : String) (status : AlertStatus)
    (severity : Severity) : List (String × String) :=
  let message := templates.events.get? eventType
  let state := message.map fun m => m.stateMessage status
  [("icon", status.wording.icon),
    ("status", status.wording.status),
    ("host", host),
    ("title", (message.map EventMessages.title).getD defaultTitle),
    ("detail", configured (state.map StateMessage.detail) status.wording.fallbackDetail),
    ("action", configured (state.map StateMessage.action) status.wording.fallbackAction),
    ("severity", humanSeverity severity)]

variable (templates : MessageTemplates) (event : Event) (status : AlertStatus) (severity : Severity)

theorem messageValues_eq : messageValues event status severity templates =
    fixedValues templates event.eventType (humanHost event.hostId) status severity ++
      [("fields", renderFields event (templates.mapped event.eventType))] := by
  have hlines : (((templates.events.get? event.eventType).map fun m =>
      renderFields event m.fields).getD "") =
      renderFields event (templates.mapped event.eventType) := by
    unfold MessageTemplates.mapped
    cases templates.events.get? event.eventType <;> rfl
  rw [← hlines]
  rfl

theorem valueOf_fields : valueOf (messageValues event status severity templates) "fields".toList =
    (renderFields event (templates.mapped event.eventType)).toList := by
  rw [valueOf, messageValues_eq, List.lookup_append]
  rfl

theorem valueOf_fixed {name : List Char} (h : String.ofList name ≠ "fields") :
    valueOf (messageValues event status severity templates) name =
      valueOf (fixedValues templates event.eventType (humanHost event.hostId) status severity)
        name := by
  have hlast : List.lookup (String.ofList name)
      [("fields", renderFields event (templates.mapped event.eventType))] = none := by
    rw [List.lookup_cons, beq_eq_false_iff_ne.mpr h]
    rfl
  rw [valueOf, messageValues_eq, List.lookup_append, hlast, Option.or_none, valueOf]

/-- A message with its facts left open: what is put for the placeholders of a format. -/
def messageSkeleton (eventType host : String) (shown : List FieldTemplate) (format : Cut) :
    Skeleton Char FieldTemplate :=
  (Skeleton.ofMarked format).replace fun name =>
    if String.ofList name = "fields" then fieldsSkeleton shown
    else [.text (valueOf (fixedValues templates eventType host status severity) name)]

/-- **A message is its skeleton, filled with the facts.** -/
theorem renderMessage_skeleton {format : Cut}
    (h : format.join = (templates.formats.format status).toList) :
    (renderMessage event status severity templates).toList =
      (messageSkeleton templates status severity event.eventType (humanHost event.hostId)
        (shownFields templates event) format).fill (valuePart event) := by
  rw [renderMessage, String.toList_ofList, ← h, renderTemplate_join, messageSkeleton,
    Skeleton.fill_replace, ← Skeleton.fill_ofMarked]
  refine Skeleton.fill_congr fun name _ => ?_
  by_cases hname : String.ofList name = "fields"
  · have hfields : name = "fields".toList := by rw [← hname, String.toList_ofList]
    rw [if_pos hname, hfields, valueOf_fields, renderFields_skeleton]
    rfl
  · rw [if_neg hname, valueOf_fixed templates event status severity hname, Skeleton.fill_text,
      Skeleton.fill_nil, List.append_nil]

/-- How often a format shows the fields. -/
def fieldsCount (format : Cut) : Nat := format.marks.countP fun m => String.ofList m.name = "fields"

/-- The holes of a message are the shown fields, once for each `{fields}`. -/
theorem holes_messageSkeleton (eventType host : String) (shown : List FieldTemplate)
    (format : Cut) : (messageSkeleton templates status severity eventType host shown format).holes =
      (List.replicate (fieldsCount format) shown).flatten := by
  rw [messageSkeleton, Skeleton.holes_replace, Skeleton.holes_ofMarked, fieldsCount]
  induction format.marks with
  | nil => rfl
  | cons m marks ih =>
    rw [List.map_cons, List.flatMap_cons, ih, List.countP_cons]
    by_cases hname : String.ofList m.name = "fields"
    · rw [if_pos hname, if_pos (decide_eq_true hname), holes_fieldsSkeleton, List.replicate_succ,
        List.flatten_cons]
    · rw [if_neg hname, if_neg (by simp [hname])]
      rfl

/-- Every fact in a message comes right behind its label. -/
theorem led_messageSkeleton (eventType host : String) (shown : List FieldTemplate)
    (format : Cut) : Skeleton.Led FieldTemplate.lead
      (messageSkeleton templates status severity eventType host shown format) := by
  refine Skeleton.Led.replace fun name _ => ?_
  by_cases hname : String.ofList name = "fields"
  · rw [if_pos hname]
    exact led_fieldsSkeleton shown
  · rw [if_neg hname]
    exact .text _ .nil

/-! ## 4. Pairs of events -/

/-- The same mapped facts are there: the same lines are shown. -/
theorem shownFields_congr {e f : Event} (htype : e.eventType = f.eventType)
    (hfacts : ∀ field ∈ templates.mapped e.eventType,
      (factText e field.fact).isSome = (factText f field.fact).isSome) :
    shownFields templates e = shownFields templates f := by
  unfold shownFields
  rw [← htype]
  exact List.filter_congr hfacts

/-- **A producer cannot forge the structure of a message.** Under checked templates, the payloads
    of two events of one type, with one name for their hosts and the same mapped facts as scalars,
    have the same number of line breaks, and are one skeleton filled in two ways. Its holes are
    the shown fields in the order they are configured in, once for each `{fields}` of the format;
    each hole stands behind `label: `, and what is put into it is a prefix of at most 256
    characters of the fact's text without control characters. -/
theorem payloads_differ_in_values {templates : MessageTemplates}
    (h : templates.validate = .ok ()) (alert : AlertRecord) {e f : Event}
    (htype : e.eventType = f.eventType) (hhost : humanHost e.hostId = humanHost f.hostId)
    (hfacts : ∀ field ∈ templates.mapped e.eventType,
      (factText e field.fact).isSome = (factText f field.fact).isSome) :
    (renderEvent e alert templates).toList.count '\n' =
      (renderEvent f alert templates).toList.count '\n' ∧
    ∃ format : Cut, format.join = (templates.formats.format alert.status).toList ∧
    ∃ s : Skeleton Char FieldTemplate,
      (renderEvent e alert templates).toList = s.fill (valuePart e) ∧
      (renderEvent f alert templates).toList = s.fill (valuePart f) ∧
      s.holes = (List.replicate (fieldsCount format) (shownFields templates e)).flatten ∧
      (∀ before field behind, s = before ++ .hole field :: behind →
        ∀ v, (field.label ++ ": ").toList <:+ Skeleton.fill v before) ∧
      ∀ field ∈ s.holes, ∀ event, event = e ∨ event = f →
        ∃ text, factText event field.fact = some text ∧
          valuePart event field <+: text.toList.filter (fun c => !Text.isControl c) ∧
          (valuePart event field).length ≤ 256 := by
  obtain ⟨format, hformat, _⟩ := renderMessage_eq_fill h e alert.status alert.severity
  let s := messageSkeleton templates alert.status alert.severity e.eventType (humanHost e.hostId)
    (shownFields templates e) format
  have hshown := shownFields_congr templates htype hfacts
  have he : (renderEvent e alert templates).toList = s.fill (valuePart e) :=
    renderMessage_skeleton templates e alert.status alert.severity hformat
  have hf : (renderEvent f alert templates).toList = s.fill (valuePart f) := by
    have hmessage := renderMessage_skeleton templates f alert.status alert.severity hformat
    rwa [← htype, ← hhost, ← hshown] at hmessage
  have hholes := holes_messageSkeleton templates alert.status alert.severity e.eventType
    (humanHost e.hostId) (shownFields templates e) format
  refine ⟨?_, format, hformat, s, he, hf, hholes, fun before field behind hs v => ?_, ?_⟩
  · rw [he, hf, Skeleton.count_fill_of_free fun field _ => newline_not_mem_valuePart e field,
      Skeleton.count_fill_of_free fun field _ => newline_not_mem_valuePart f field]
  · exact (led_messageSkeleton templates alert.status alert.severity e.eventType
      (humanHost e.hostId) (shownFields templates e) format).suffix_fill v hs
  · intro field hfield event hevent
    rw [hholes] at hfield
    obtain ⟨fields, hfields, hmem⟩ := List.mem_flatten.mp hfield
    rw [List.eq_of_mem_replicate hfields] at hmem
    have hsome : (factText event field.fact).isSome := by
      rcases hevent with rfl | rfl
      · exact (List.mem_filter.mp hmem).2
      · rw [hshown] at hmem
        exact (List.mem_filter.mp hmem).2
    obtain ⟨text, htext⟩ := Option.isSome_iff_exists.mp hsome
    exact ⟨text, htext, valuePart_prefix htext⟩

namespace Sample

/-- Templates that show two facts of a stale backup, in a format of their own. -/
def fieldTemplates : MessageTemplates :=
  { formats := { firing := "\x7btitle\x7d\n\x7bfields\x7d\nSeverity: \x7bseverity\x7d" }
    events := ⟨[("backup.restic.stale",
      { title := "Backup too old", fields := [⟨"Age", "age_hours"⟩, ⟨"Token", "token"⟩] })],
      List.pairwise_singleton _ _⟩ }

/-- A fact that looks like another line of the message. -/
def forged : Event := aged id1 "first\nSeverity: info"

end Sample

/-- The theorem at a fact with a line break in it. -/
theorem payloads_differ_in_values_forged :
    (renderEvent Sample.forged (Sample.ageRecord 1) Sample.fieldTemplates).toList.count '\n' =
      (renderEvent (Sample.aged Sample.id2 "second") (Sample.ageRecord 1)
        Sample.fieldTemplates).toList.count '\n' := by
  have hvalid : Sample.fieldTemplates.validate = .ok () := by decide +kernel
  have hmapped : Sample.fieldTemplates.mapped "backup.restic.stale" =
      [⟨"Age", "age_hours"⟩, ⟨"Token", "token"⟩] := by decide +kernel
  have hfacts : ∀ field ∈ Sample.fieldTemplates.mapped Sample.forged.eventType,
      (factText Sample.forged field.fact).isSome =
        (factText (Sample.aged Sample.id2 "second") field.fact).isSome := by
    intro field hfield
    rcases List.mem_pair.mp (hmapped ▸ hfield) with rfl | rfl <;> decide +kernel
  exact (payloads_differ_in_values hvalid (Sample.ageRecord 1) (e := Sample.forged)
    (f := Sample.aged Sample.id2 "second") rfl rfl hfacts).1

-- the break is dropped, and the rest stays in its line
example : renderEvent Sample.forged (Sample.ageRecord 1) Sample.fieldTemplates =
    "Backup too old\nAge: 40\nToken: firstSeverity: info\nSeverity: critical" := by
  decide +kernel

end Beacon
