/-
  File:      Beacon/MessageLengths.lean
  Subject:   How long a message is.

  The check bounds a format, a title, a text and a field each on its own, and the format by 1 and
  4096 bytes, the bounds of a text that can be sent. What is sent is the filled format: a format
  may repeat its placeholders, and one of `{fields}` alone may have nothing to show.

  * `length_renderMessage` -- the length of a message, from the lengths of its parts;
  * `payload_sendable_iff` -- **when a payload can be sent**;
  * `sendable_of_alwaysFits` -- a bound on the format alone that the check could make;
  * `default_formats_sendable` -- the default formats keep it.
-/
import Beacon.Foundation.JsonSize
import Beacon.Messages
import Beacon.Server.Store
import Mathlib.Algebra.Order.BigOperators.Group.List

namespace Beacon

open Foundation

/-! ## 1. Lengths -/

/-- The bounds of a text `sendMessage` takes. -/
def Sendable (text : String) : Prop := text ≠ "" ∧ text.length ≤ 4096

instance (text : String) : Decidable (Sendable text) := inferInstanceAs (Decidable (_ ∧ _))

/-- The characters of a line: its label, two more, and at most 256 of the fact. -/
def lineLength (event : Event) (field : FieldTemplate) : Nat :=
  field.label.length + 2 + min 256 ((factText event field.fact).elim 0 fun text =>
    text.toList.countP fun c => !Text.isControl c)

/-- The characters of lines with a line break between any two. -/
def fieldsLength (event : Event) (fields : List FieldTemplate) : Nat :=
  (fields.map (lineLength event)).sum + (fields.length - 1)

/-- The characters a placeholder is replaced by. -/
def placeholderLength (templates : MessageTemplates) (event : Event) (status : AlertStatus)
    (severity : Severity) (name : String) : Nat :=
  if name = "fields" then fieldsLength event (shownFields templates event)
  else (((fixedValues templates event.eventType (humanHost event.hostId) status severity).lookup
    name).getD "").length

/-- The characters of a format around its placeholders, and those of the placeholders. -/
def filledLength (length : String → Nat) (format : Cut) : Nat :=
  (Skeleton.ofMarked format).texts.length +
    (format.marks.map fun m => length (String.ofList m.name)).sum

/-- Nothing but `{fields}`, once or more often. -/
def OnlyFields (format : Cut) : Prop :=
  (∀ m ∈ format.marks, m.before = [] ∧ String.ofList m.name = "fields") ∧ format.rest = []

instance (format : Cut) : Decidable (OnlyFields format) := inferInstanceAs (Decidable (_ ∧ _))

theorem length_intercalate {α : Type} (sep : α) (lines : List (List α)) :
    (List.intercalate [sep] lines).length = (lines.map List.length).sum + (lines.length - 1) := by
  induction lines with
  | nil => rfl
  | cons l lines ih =>
    cases lines with
    | nil => simp
    | cons l' lines =>
      rw [List.intercalate_cons_cons, List.length_append, List.length_append, ih,
        List.length_singleton]
      simp only [List.map_cons, List.sum_cons, List.length_cons]
      omega

theorem length_valuePart (event : Event) (field : FieldTemplate) :
    (valuePart event field).length = min 256 ((factText event field.fact).elim 0 fun text =>
      text.toList.countP fun c => !Text.isControl c) := by
  unfold valuePart
  cases factText event field.fact with
  | none => rfl
  | some text => exact List.length_take.trans (congrArg _ List.countP_eq_length_filter.symm)

theorem length_renderFields (event : Event) (fields : List FieldTemplate) :
    (renderFields event fields).length =
      fieldsLength event (fields.filter fun field => (factText event field.fact).isSome) := by
  rw [← String.length_toList, renderFields, lines_eq, String.toList_intercalate, List.map_map]
  refine (length_intercalate '\n' _).trans ?_
  rw [List.map_map, List.length_map, fieldsLength]
  congr 2
  refine List.map_congr_left fun field _ => ?_
  have hvalue := String.length_ofList.trans (length_valuePart event field)
  show (field.label ++ ": " ++ String.ofList (valuePart event field)).toList.length = _
  rw [String.length_toList, String.length_append, String.length_append, hvalue]
  rfl

section Length

variable (templates : MessageTemplates) (event : Event) (status : AlertStatus) (severity : Severity)

theorem length_valueOf (name : List Char) :
    (valueOf (messageValues event status severity templates) name).length =
      placeholderLength templates event status severity (String.ofList name) := by
  unfold placeholderLength
  by_cases hname : String.ofList name = "fields"
  · have hfields : name = "fields".toList := by rw [← hname, String.toList_ofList]
    rw [if_pos hname, hfields, valueOf_fields, String.length_toList, length_renderFields]
    rfl
  · rw [if_neg hname, valueOf_fixed templates event status severity hname, valueOf,
      String.length_toList]

/-- **The length of a message.** -/
theorem length_renderMessage {format : Cut}
    (h : format.join = (templates.formats.format status).toList) :
    (renderMessage event status severity templates).length =
      filledLength (placeholderLength templates event status severity) format := by
  rw [renderMessage, String.length_ofList, ← h, renderTemplate_join, ← Skeleton.fill_ofMarked,
    Skeleton.length_fill, Skeleton.holes_ofMarked, List.map_map, filledLength]
  refine congrArg (_ + List.sum ·) (List.map_congr_left fun m _ => ?_)
  exact length_valueOf templates event status severity m.name

end Length

/-! ## 2. What the check bounds -/

/-- What the check says of the messages of one event type. -/
structure EventMessages.Bounded (message : EventMessages) : Prop where
  title : Text.isBlank message.title = false
  title_size : message.title.utf8ByteSize ≤ 256
  detail_size : ∀ status, (message.stateMessage status).detail.utf8ByteSize ≤ 1024
  action_size : ∀ status, (message.stateMessage status).action.utf8ByteSize ≤ 512
  fields_length : message.fields.length ≤ 16
  label_size : ∀ field ∈ message.fields, field.label.utf8ByteSize ≤ 128

theorem StateMessage.sizes {eventType : String} {state : StateMessage}
    (h : state.validate eventType = .ok ()) :
    state.detail.utf8ByteSize ≤ 1024 ∧ state.action.utf8ByteSize ≤ 512 := by
  unfold StateMessage.validate at h
  split at h
  · cases h
  · rename_i hsizes
    rw [Bool.or_eq_true, decide_eq_true_eq, decide_eq_true_eq] at hsizes
    omega

theorem FieldTemplate.label_size {eventType : String} {field : FieldTemplate}
    (h : field.validate eventType = .ok ()) : field.label.utf8ByteSize ≤ 128 := by
  unfold FieldTemplate.validate at h
  split at h
  · cases h
  · rename_i hsizes
    simp only [Bool.or_eq_true, decide_eq_true_eq] at hsizes
    omega

theorem EventMessages.bounded {eventType : String} {message : EventMessages}
    (h : message.validate eventType = .ok ()) : message.Bounded := by
  obtain ⟨_, h⟩ := guard_ok.mp h
  obtain ⟨htitle, h⟩ := guard_ok.mp h
  obtain ⟨hstates, h⟩ := seq_ok.mp h
  obtain ⟨hlength, h⟩ := guard_ok.mp h
  rw [Bool.or_eq_true, decide_eq_true_eq] at htitle
  have hstate : ∀ status, (message.stateMessage status).validate eventType = .ok () := by
    intro status
    refine forM_ok hstates _ ?_
    cases status <;> simp [EventMessages.stateMessage]
  exact
    { title := Bool.eq_false_iff.mpr fun hblank => htitle (.inl hblank)
      title_size := Nat.not_lt.mp fun hlong => htitle (.inr hlong)
      detail_size := fun status => (StateMessage.sizes (hstate status)).1
      action_size := fun status => (StateMessage.sizes (hstate status)).2
      fields_length := Nat.not_lt.mp hlength
      label_size := fun field hfield => FieldTemplate.label_size (forM_ok h field hfield) }

/-- **Checked templates have bounded entries.** -/
theorem MessageTemplates.bounded {templates : MessageTemplates} (h : templates.validate = .ok ())
    {eventType : String} {message : EventMessages}
    (hmessage : templates.events.get? eventType = some message) : message.Bounded := by
  obtain ⟨_, h⟩ := seq_ok.mp h
  obtain ⟨_, h⟩ := seq_ok.mp h
  obtain ⟨_, h⟩ := seq_ok.mp h
  obtain ⟨_, h⟩ := guard_ok.mp h
  obtain ⟨entry, hentry, rfl⟩ := Option.map_eq_some_iff.mp hmessage
  exact EventMessages.bounded (forM_ok h entry (List.mem_of_find?_eq_some hentry))

/-! ## 3. Empty messages -/

theorem length_pos_of_ne {s : String} (h : s ≠ "") : 0 < s.length :=
  Nat.pos_of_ne_zero fun hzero => h (String.length_eq_zero_iff.mp hzero)

theorem configured_ne {text : Option String} {fallback : String} (h : fallback ≠ "") :
    configured text fallback ≠ "" := by
  unfold configured
  cases text with
  | none => exact h
  | some t =>
    by_cases ht : t = ""
    · rw [ht]
      exact h
    · rw [Option.filter_some, if_pos (by simpa using ht)]
      exact ht

theorem humanHost_ne (host : String) : humanHost host ≠ "" := by
  unfold humanHost
  split_ifs <;> decide

theorem wording_ne (status : AlertStatus) : status.wording.icon ≠ "" ∧
    status.wording.status ≠ "" ∧ status.wording.fallbackDetail ≠ "" ∧
    status.wording.fallbackAction ≠ "" := by
  cases status <;> decide

section Empty

variable {templates : MessageTemplates} (h : templates.validate = .ok ()) (event : Event)
  (status : AlertStatus) (severity : Severity)

include h in
theorem title_ne (eventType : String) :
    ((templates.events.get? eventType).map EventMessages.title).getD defaultTitle ≠ "" := by
  cases hmessage : templates.events.get? eventType with
  | none => exact show defaultTitle ≠ "" by decide
  | some message =>
    intro hempty
    have hblank := (MessageTemplates.bounded h hmessage).title
    rw [show message.title = "" from hempty] at hblank
    cases hblank

include h in
/-- **Every placeholder but `{fields}` shows something.** -/
theorem placeholderLength_pos {name : String} (hname : name ∈ placeholders)
    (hne : name ≠ "fields") : 0 < placeholderLength templates event status severity name := by
  obtain ⟨hicon, hstatus, hdetail, haction⟩ := wording_ne status
  rw [placeholderLength, if_neg hne]
  refine length_pos_of_ne ?_
  simp only [placeholders, List.mem_cons, List.not_mem_nil, or_false] at hname
  rcases hname with rfl | rfl | rfl | rfl | rfl | rfl | rfl | rfl
  · exact hicon
  · exact hstatus
  · exact humanHost_ne event.hostId
  · exact title_ne h event.eventType
  · exact configured_ne hdetail
  · exact configured_ne haction
  · exact show humanSeverity severity ≠ "" by cases severity <;> decide
  · exact absurd rfl hne

/-- `{fields}` shows something exactly if a line is shown. -/
theorem fieldsLength_eq_zero {fields : List FieldTemplate} :
    fieldsLength event fields = 0 ↔ fields = [] := by
  cases fields with
  | nil => exact iff_of_true rfl rfl
  | cons field fields =>
    refine iff_of_false (fun hzero => ?_) (List.cons_ne_nil field fields)
    rw [fieldsLength, List.map_cons, List.sum_cons, lineLength] at hzero
    omega

theorem texts_ofMarked_eq_nil {format : Cut} : (Skeleton.ofMarked format).texts = [] ↔
    (∀ m ∈ format.marks, m.before = []) ∧ format.rest = [] := by
  rw [Skeleton.texts, Skeleton.fill_ofMarked, Marked.fill, List.append_eq_nil_iff,
    List.flatMap_eq_nil_iff]
  simp

include h in
/-- **When a message is empty**: its format is made of `{fields}` only, and no line is shown. -/
theorem filledLength_eq_zero {format : Cut}
    (hformat : format.join = (templates.formats.format status).toList) (hknown : Known format)
    (hne : templates.formats.format status ≠ "") :
    filledLength (placeholderLength templates event status severity) format = 0 ↔
      OnlyFields format ∧ shownFields templates event = [] := by
  rw [filledLength, Nat.add_eq_zero_iff, List.length_eq_zero_iff, texts_ofMarked_eq_nil,
    List.sum_eq_zero_iff_forall_eq_nat, List.forall_mem_map]
  constructor
  · intro hlengths
    obtain ⟨⟨hbefore, hrest⟩, hzero⟩ := hlengths
    have hfields : ∀ m ∈ format.marks, String.ofList m.name = "fields" := by
      intro m hm
      by_contra hother
      have hpos := placeholderLength_pos h event status severity (hknown m hm) hother
      exact absurd (hzero m hm) (Nat.ne_of_gt hpos)
    refine ⟨⟨fun m hm => ⟨hbefore m hm, hfields m hm⟩, hrest⟩, ?_⟩
    cases hmarks : format.marks with
    | nil =>
      -- the format is not empty, so there is a placeholder
      have hempty : format.join = [] := by rw [Marked.join, hmarks, hrest]; rfl
      rw [hempty, eq_comm, String.toList_eq_nil_iff] at hformat
      exact absurd hformat hne
    | cons m marks =>
      have hm : m ∈ format.marks := by rw [hmarks]; exact List.mem_cons_self
      have hlines := hzero m hm
      rw [placeholderLength, if_pos (hfields m hm)] at hlines
      exact (fieldsLength_eq_zero event).mp hlines
  · intro hfields
    obtain ⟨⟨honly, hrest⟩, hshown⟩ := hfields
    refine ⟨⟨fun m hm => (honly m hm).1, hrest⟩, fun m hm => ?_⟩
    rw [placeholderLength, if_pos (honly m hm).2, hshown]
    rfl

end Empty

/-- A message can be sent exactly if its cut says so. -/
theorem sendable_iff_cut {templates : MessageTemplates} (h : templates.validate = .ok ())
    (event : Event) (alert : AlertRecord) {format : Cut}
    (hformat : format.join = (templates.formats.format alert.status).toList) :
    Sendable (renderEvent event alert templates) ↔
      (OnlyFields format → shownFields templates event ≠ []) ∧
      filledLength (placeholderLength templates event alert.status alert.severity) format ≤
        4096 := by
  obtain ⟨name, hname⟩ := MessageTemplates.format_admitted h alert.status
  obtain ⟨hpos, _, t, ht, hknown, _⟩ := validateTemplate_ok.mp hname
  obtain rfl := Marked.join_injective t format (ht.trans hformat.symm)
  have hne : templates.formats.format alert.status ≠ "" := by
    intro hempty
    rw [hempty] at hpos
    exact absurd hpos (by decide)
  have hlength := length_renderMessage templates event alert.status alert.severity hformat
  have hzero := filledLength_eq_zero h event alert.status alert.severity hformat hknown hne
  rw [Sendable, renderEvent, hlength, ← not_and, ← hzero, ← hlength, ne_eq,
    String.length_eq_zero_iff]

/-- **When a payload can be sent.** Under checked templates, the payload of an event is not empty
    exactly if its format is not made of `{fields}` only or a mapped fact is shown, and has at
    most 4096 characters exactly if the format around the placeholders and what each of them is
    replaced by have. -/
theorem payload_sendable_iff {templates : MessageTemplates} (h : templates.validate = .ok ())
    (event : Event) (alert : AlertRecord) :
    Sendable (renderEvent event alert templates) ↔
      ∃ format : Cut, format.join = (templates.formats.format alert.status).toList ∧
        (OnlyFields format → shownFields templates event ≠ []) ∧
        filledLength (placeholderLength templates event alert.status alert.severity) format ≤
          4096 := by
  constructor
  · intro hs
    obtain ⟨format, hformat, _⟩ := renderMessage_eq_fill h event alert.status alert.severity
    exact ⟨format, hformat, (sendable_iff_cut h event alert hformat).mp hs⟩
  · intro hs
    obtain ⟨format, hformat, hbounds⟩ := hs
    exact (sendable_iff_cut h event alert hformat).mpr hbounds

namespace Sample

/-- A stale backup without facts. -/
def stale : Event := event id1 "2026-01-01T00:00:00Z" .firing .critical

/-- The fields twice and nothing else, of two facts. -/
def fieldsTwice : MessageTemplates where
  formats := { firing := "\x7bfields\x7d\x7bfields\x7d" }
  events := ⟨[("backup.restic.stale",
    { fields := [⟨"Age", "age_seconds"⟩, ⟨"Path", "path"⟩] })], by decide⟩

/-- The fields and nothing else. -/
def fieldsOnly : MessageTemplates := { formats := { firing := "\x7bfields\x7d" } }

theorem fieldsOnly_valid : fieldsOnly.validate = .ok () := by decide +kernel

/-- `{title}` 216 times. -/
def titles : Cut :=
  ⟨List.replicate 216 ⟨[], "title".toList, List.not_mem_nil, by decide⟩, [], List.not_mem_nil⟩

def repeated : MessageTemplates := { formats := { firing := String.ofList titles.join } }

theorem repeated_valid : repeated.validate = .ok () := by
  have hbytes : (String.ofList titles.join).utf8ByteSize = 1512 := by
    rw [String.utf8ByteSize_ofList]
    decide +kernel
  have hfiring : validateTemplate "firing" repeated.formats.firing = .ok () := by
    refine validateTemplate_ok.mpr
      ⟨hbytes ▸ (by decide), hbytes ▸ (by decide), titles, String.toList_ofList.symm, ?_,
        List.not_mem_nil⟩
    intro m hm
    rw [List.eq_of_mem_replicate hm]
    decide
  exact seq_ok.mpr ⟨hfiring, by decide +kernel⟩

end Sample

/-- The theorem at a format of `{fields}` only, twice, with two facts to show: control characters
    do not count. -/
theorem payload_sendable_iff_fields :
    renderEvent Sample.measured (nextAlert none Sample.measured) Sample.fieldsTwice =
      "Age: 172800\nPath: /srv/\"backup\"\\Age: 172800\nPath: /srv/\"backup\"\\" ∧
    Sendable (renderEvent Sample.measured (nextAlert none Sample.measured) Sample.fieldsTwice) :=
  ⟨by decide +kernel,
    (@payload_sendable_iff Sample.fieldsTwice (by decide +kernel) Sample.measured
      (nextAlert none Sample.measured)).mpr
      ⟨⟨List.replicate 2 ⟨[], "fields".toList, List.not_mem_nil, by decide⟩, [], List.not_mem_nil⟩,
        by decide +kernel, by decide +kernel, by decide +kernel⟩⟩

/-- **An empty payload and one of 4104 characters**, of a valid event and the alert it opens, under
    checked templates. -/
theorem unsendable_payloads :
    @Event.Valid Sample.formats Sample.stale ∧
    (Sample.fieldsOnly.validate = .ok () ∧
      ¬ Sendable (renderEvent Sample.stale (nextAlert none Sample.stale) Sample.fieldsOnly)) ∧
    (Sample.repeated.validate = .ok () ∧
      ¬ Sendable (renderEvent Sample.stale (nextAlert none Sample.stale) Sample.repeated)) := by
  refine ⟨by decide +kernel, ⟨Sample.fieldsOnly_valid, by decide +kernel⟩, Sample.repeated_valid, ?_⟩
  intro hs
  have hformat : Sample.titles.join = Sample.repeated.formats.firing.toList :=
    String.toList_ofList.symm
  have hlength := length_renderMessage Sample.repeated Sample.stale .firing .critical hformat
  have hlong : 4096 < filledLength
      (placeholderLength Sample.repeated Sample.stale .firing .critical) Sample.titles := by
    decide +kernel
  exact absurd (hlength ▸ hs.2) (Nat.not_le_of_lt hlong)

/-! ## 4. Formats that always fit -/

/-- What the check allows a placeholder to be replaced by: a title of 256, a text of 1024 and one
    of 512, 16 lines of a label of 128, two characters and 256 of a fact. -/
def longestLengths : List (String × Nat) :=
  [("icon", 2), ("status", 14), ("host", 14), ("title", 256), ("detail", 1024), ("action", 512),
    ("severity", 8), ("fields", 16 * (128 + 2 + 256) + 15)]

def longest (name : String) : Nat := (longestLengths.lookup name).getD 0

/-- The format has text or another placeholder beside `{fields}`, and what the check allows for
    its placeholders does not exceed 4096 characters. -/
def alwaysFits (template : String) : Bool :=
  (Marked.cut template.toList : Option Cut).any fun format =>
    !decide (OnlyFields format) && decide (filledLength longest format ≤ 4096)

theorem length_le_utf8ByteSize (s : String) : s.length ≤ s.utf8ByteSize := by
  rw [← String.length_toList, ← Json.utf8Len_toList]
  induction s.toList with
  | nil => exact Nat.le_refl 0
  | cons c cs ih =>
    have hpos := c.utf8Size_pos
    rw [List.length_cons, String.utf8Len_cons]
    omega

theorem length_configured_le {text : Option String} {fallback : String} {bytes : Nat}
    (htext : ∀ t, text = some t → t.utf8ByteSize ≤ bytes) (hfallback : fallback.length ≤ bytes) :
    (configured text fallback).length ≤ bytes := by
  unfold configured
  cases text with
  | none => exact hfallback
  | some t =>
    rw [Option.filter_some]
    split_ifs
    · exact Nat.le_trans (length_le_utf8ByteSize t) (htext t rfl)
    · exact hfallback

theorem length_humanHost_le (host : String) : (humanHost host).length ≤ 14 := by
  unfold humanHost
  split_ifs <;> decide

theorem length_wording_le (status : AlertStatus) : status.wording.icon.length ≤ 2 ∧
    status.wording.status.length ≤ 14 ∧ status.wording.fallbackDetail.length ≤ 1024 ∧
    status.wording.fallbackAction.length ≤ 512 := by
  cases status <;> decide

section Longest

variable {templates : MessageTemplates} (h : templates.validate = .ok ()) (event : Event)
  (status : AlertStatus) (severity : Severity)

include h

theorem length_title_le (eventType : String) :
    (((templates.events.get? eventType).map EventMessages.title).getD defaultTitle).length ≤ 256 := by
  cases hmessage : templates.events.get? eventType with
  | none => exact show defaultTitle.length ≤ 256 by decide
  | some message =>
    exact Nat.le_trans (length_le_utf8ByteSize message.title)
      (MessageTemplates.bounded h hmessage).title_size

theorem mapped_bounded (eventType : String) : (templates.mapped eventType).length ≤ 16 ∧
    ∀ field ∈ templates.mapped eventType, field.label.utf8ByteSize ≤ 128 := by
  unfold MessageTemplates.mapped
  cases hmessage : templates.events.get? eventType with
  | none => exact ⟨Nat.zero_le 16, fun _ hfield => (List.not_mem_nil hfield).elim⟩
  | some message =>
    have hbounded := MessageTemplates.bounded h hmessage
    exact ⟨hbounded.fields_length, hbounded.label_size⟩

theorem fieldsLength_le :
    fieldsLength event (shownFields templates event) ≤ 16 * (128 + 2 + 256) + 15 := by
  obtain ⟨hlength, hlabels⟩ := mapped_bounded h event.eventType
  have hshown : (shownFields templates event).length ≤ 16 :=
    Nat.le_trans (List.length_filter_le _ _) hlength
  have hline : ∀ n ∈ (shownFields templates event).map (lineLength event), n ≤ 128 + 2 + 256 := by
    intro n hn
    obtain ⟨field, hfield, rfl⟩ := List.mem_map.mp hn
    have hlabel := hlabels field (List.mem_of_mem_filter hfield)
    have hchars := length_le_utf8ByteSize field.label
    rw [lineLength]
    omega
  have hsum := List.sum_le_card_nsmul _ _ hline
  rw [List.length_map, nsmul_eq_mul, Nat.cast_id] at hsum
  rw [fieldsLength]
  omega

/-- **What the check allows** bounds what a placeholder is replaced by. -/
theorem placeholderLength_le {name : String} (hname : name ∈ placeholders) :
    placeholderLength templates event status severity name ≤ longest name := by
  obtain ⟨hicon, hstatus, hdetail, haction⟩ := length_wording_le status
  have hstate : ∀ state,
      (templates.events.get? event.eventType).map (fun m => m.stateMessage status) = some state →
      state.detail.utf8ByteSize ≤ 1024 ∧ state.action.utf8ByteSize ≤ 512 := by
    intro state hs
    obtain ⟨message, hmessage, rfl⟩ := Option.map_eq_some_iff.mp hs
    have hbounded := MessageTemplates.bounded h hmessage
    exact ⟨hbounded.detail_size status, hbounded.action_size status⟩
  unfold placeholderLength
  by_cases hfields : name = "fields"
  · rw [if_pos hfields, hfields]
    exact fieldsLength_le h event
  rw [if_neg hfields]
  simp only [placeholders, List.mem_cons, List.not_mem_nil, or_false] at hname
  rcases hname with rfl | rfl | rfl | rfl | rfl | rfl | rfl | rfl
  · exact hicon
  · exact hstatus
  · exact length_humanHost_le event.hostId
  · exact length_title_le h event.eventType
  · refine length_configured_le (fun t ht => ?_) hdetail
    obtain ⟨state, hs, rfl⟩ := Option.map_eq_some_iff.mp ht
    exact (hstate state hs).1
  · refine length_configured_le (fun t ht => ?_) haction
    obtain ⟨state, hs, rfl⟩ := Option.map_eq_some_iff.mp ht
    exact (hstate state hs).2
  · exact show (humanSeverity severity).length ≤ 8 by cases severity <;> decide
  · exact absurd rfl hfields

end Longest

theorem filledLength_mono {f g : String → Nat} {format : Cut}
    (h : ∀ m ∈ format.marks, f (String.ofList m.name) ≤ g (String.ofList m.name)) :
    filledLength f format ≤ filledLength g format :=
  Nat.add_le_add_left (List.sum_le_sum h) _

/-- **A payload of a format that always fits can be sent**, whatever the event. -/
theorem sendable_of_alwaysFits {templates : MessageTemplates} (h : templates.validate = .ok ())
    (event : Event) (alert : AlertRecord)
    (hfits : alwaysFits (templates.formats.format alert.status) = true) :
    Sendable (renderEvent event alert templates) := by
  obtain ⟨format, hcut, hbounds⟩ := (Option.any_eq_true _ _).mp hfits
  rw [Bool.and_eq_true, Bool.not_eq_true', decide_eq_false_iff_not, decide_eq_true_eq] at hbounds
  obtain ⟨t, ht, hknown, _⟩ := renderMessage_eq_fill h event alert.status alert.severity
  have hformat := Marked.join_of_cut hcut
  obtain rfl := Marked.join_injective t format (ht.trans hformat.symm)
  refine (sendable_iff_cut h event alert hformat).mpr ⟨fun honly => absurd honly hbounds.1, ?_⟩
  exact Nat.le_trans (filledLength_mono fun m hm => placeholderLength_le h event alert.status
    alert.severity (hknown m hm)) hbounds.2

/-- **Under the default formats every payload can be sent**, whatever is configured beside them. -/
theorem default_formats_sendable {templates : MessageTemplates} (h : templates.validate = .ok ())
    (hformats : templates.formats = {}) (event : Event) (alert : AlertRecord) :
    Sendable (renderEvent event alert templates) := by
  refine sendable_of_alwaysFits h event alert ?_
  rw [hformats]
  cases alert.status <;> decide +kernel

end Beacon
