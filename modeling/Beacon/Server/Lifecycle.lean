/-
  File:      Beacon/Server/Lifecycle.lean
  Subject:   The lifecycle of alerts over a list of accepted events.

  An arrival is a newly accepted event together with the alert it found. A list of arrivals is
  coherent when every arrival found what the last arrival of its fingerprint had left. For a
  coherent list the record of a fingerprint is a function of its own events alone
  (`alertOf_eq_lifecycle`), and `Record` says what that function is, column by column:

  * `record_of_coherent` -- **the record of a fingerprint in closed form**: an induction over
    the arrivals with one case for each branch of the transition;
  * `announces_iff` -- for a Firing event, an event count of 1 means that the event opened an
    episode.
-/
import Mathlib.Data.List.Induction
import Beacon.Server.Store

namespace Beacon

open Foundation

/-! ## 1. Arrivals -/

/-- A newly accepted event and the alert it found. -/
@[ext] structure Arrival where
  call : AcceptCall
  before : Option AlertRecord

namespace Arrival

def event (a : Arrival) : Event := a.call.event

/-- The alert the arrival leaves. -/
def alert (a : Arrival) : AlertRecord := nextAlert a.before a.event

/-- The event arrived while the status of its alert was Firing. -/
def wasFiring (a : Arrival) : Bool := a.before.any fun alert => alert.status = .firing

/-- A Firing event that arrived while the status was not Firing. -/
def opens (a : Arrival) : Bool := a.event.state = .firing && !a.wasFiring

/-- An Info event that arrived while the status was Firing. -/
def quiet (a : Arrival) : Bool := a.event.state = .info && a.wasFiring

end Arrival

/-- The arrivals of one fingerprint. -/
def ofFingerprint (f : String) (as : List Arrival) : List Arrival :=
  as.filter fun a => a.event.fingerprint = f

/-- The alert of a fingerprint after some arrivals: what the last one left. -/
def alertOf (f : String) (as : List Arrival) : Option AlertRecord :=
  (ofFingerprint f as).getLast?.map Arrival.alert

/-- Every arrival found what the arrivals before it had left. -/
inductive Coherent : List Arrival → Prop
  | nil : Coherent []
  | snoc {as : List Arrival} {a : Arrival} (h : Coherent as)
      (hb : a.before = alertOf a.event.fingerprint as) : Coherent (as ++ [a])

theorem ofFingerprint_snoc (f : String) (as : List Arrival) (a : Arrival) :
    ofFingerprint f (as ++ [a]) =
      if a.event.fingerprint = f then ofFingerprint f as ++ [a] else ofFingerprint f as := by
  unfold ofFingerprint
  rw [List.filter_append]
  by_cases h : a.event.fingerprint = f
  · simp [h]
  · simp [h]

theorem alertOf_snoc (f : String) (as : List Arrival) (a : Arrival) :
    alertOf f (as ++ [a]) = if a.event.fingerprint = f then some a.alert else alertOf f as := by
  unfold alertOf
  rw [ofFingerprint_snoc]
  split
  · rw [List.getLast?_append]
    rfl
  · rfl

theorem ofFingerprint_idem (f : String) (as : List Arrival) :
    ofFingerprint f (ofFingerprint f as) = ofFingerprint f as := by
  unfold ofFingerprint
  rw [List.filter_filter]
  simp

theorem alertOf_ofFingerprint (f : String) (as : List Arrival) :
    alertOf f (ofFingerprint f as) = alertOf f as := by
  unfold alertOf
  rw [ofFingerprint_idem]

theorem fingerprint_of_mem {f : String} {as : List Arrival} {a : Arrival}
    (h : a ∈ ofFingerprint f as) : a.event.fingerprint = f := by
  simpa [ofFingerprint] using (List.mem_filter.mp h).2

theorem mem_of_mem_ofFingerprint {f : String} {as : List Arrival} {a : Arrival}
    (h : a ∈ ofFingerprint f as) : a ∈ as := (List.mem_filter.mp h).1

/-- The arrivals of one fingerprint are coherent on their own. -/
theorem coherent_ofFingerprint {as : List Arrival} (h : Coherent as) (f : String) :
    Coherent (ofFingerprint f as) := by
  induction h with
  | nil => exact .nil
  | snoc h hb ih =>
    rw [ofFingerprint_snoc]
    split
    · rename_i hf
      refine .snoc ih ?_
      rw [hb, hf, alertOf_ofFingerprint]
    · exact ih

/-- The arrival found what an earlier part of the history had left. -/
theorem coherent_before {as : List Arrival} (h : Coherent as) {a : Arrival} (ha : a ∈ as) :
    ∃ before, Coherent before ∧ a.before = alertOf a.event.fingerprint before := by
  induction h with
  | nil => cases ha
  | @snoc as b h hb ih =>
    rcases List.mem_append.mp ha with ha | ha
    · exact ih ha
    · rw [List.mem_singleton.mp ha]
      exact ⟨as, h, hb⟩

theorem coherent_snoc {as : List Arrival} {a : Arrival} :
    Coherent (as ++ [a]) ↔ Coherent as ∧ a.before = alertOf a.event.fingerprint as := by
  refine ⟨fun h => ?_, fun h => .snoc h.1 h.2⟩
  generalize hl : as ++ [a] = l at h
  cases h with
  | nil => simp at hl
  | snoc h hb =>
    obtain ⟨rfl, e⟩ := List.append_inj' hl rfl
    cases e
    exact ⟨h, hb⟩

theorem coherent_init {as bs : List Arrival} (h : Coherent (as ++ bs)) : Coherent as := by
  induction bs using List.reverseRecOn with
  | nil => rwa [List.append_nil] at h
  | append_singleton bs b ih =>
    rw [← List.append_assoc] at h
    exact ih (coherent_snoc.mp h).1

/-- The coherent list of some calls. -/
def arriveAll (calls : List AcceptCall) : List Arrival :=
  calls.foldl (fun as call => as ++ [⟨call, alertOf call.event.fingerprint as⟩]) []

/-- A coherent list is fixed by its calls. -/
theorem coherent_eq {as : List Arrival} (h : Coherent as) :
    as = arriveAll (as.map Arrival.call) := by
  induction h with
  | nil => rfl
  | @snoc as a h hb ih =>
    unfold arriveAll at ih ⊢
    rw [List.map_append, List.map_singleton, List.foldl_append, ← ih]
    simp only [List.foldl_cons, List.foldl_nil]
    congr 2
    exact Arrival.ext rfl hb

/-! ## 2. The lifecycle is a fold -/

/-- The record of a fingerprint from its events alone. -/
def lifecycle (f : String) (es : List Event) : Option AlertRecord :=
  (es.filter fun e => e.fingerprint = f).foldl (fun alert e => some (nextAlert alert e)) none

theorem lifecycle_snoc (f : String) (es : List Event) (e : Event) :
    lifecycle f (es ++ [e]) =
      if e.fingerprint = f then some (nextAlert (lifecycle f es) e) else lifecycle f es := by
  unfold lifecycle
  rw [List.filter_append, List.foldl_append]
  by_cases h : e.fingerprint = f
  · simp [h]
  · simp [h]

/-- **What the arrivals left is the fold of the transition over their events.** -/
theorem alertOf_eq_lifecycle {as : List Arrival} (h : Coherent as) (f : String) :
    alertOf f as = lifecycle f (as.map Arrival.event) := by
  induction h generalizing f with
  | nil => rfl
  | @snoc as a h hb ih =>
    rw [alertOf_snoc, List.map_append, List.map_singleton, lifecycle_snoc]
    split
    · rename_i hf
      rw [Arrival.alert, hb, ih, hf]
    · exact ih f

/-! ## 3. The record in closed form -/

/-- The 1-based index of the latest opening event, or 1 if there is none. -/
def openingIndex (es : List Arrival) : Nat :=
  match es.reverse.findIdx? Arrival.opens with
  | some back => es.length - back
  | none => 1

/-- The status of an event's own state. -/
def EventState.status : EventState → AlertStatus
  | .firing => .firing
  | .resolved => .resolved
  | .info => .info

/-- The last event that is not an Info. -/
def lastNonInfo (es : List Arrival) : Option Arrival :=
  (es.filter fun a => a.event.state ≠ .info).getLast?

/-- Firing iff the last event that is not an Info is Firing, otherwise the state of the last. -/
def statusAfter (es : List Arrival) (last : Arrival) : AlertStatus :=
  if (lastNonInfo es).any (fun a => a.event.state = .firing) then .firing
  else last.event.state.status

/-- The columns of the record `alert` of the arrivals `es`, the last of which is `last`. -/
structure Record (es : List Arrival) (last : Arrival) (alert : AlertRecord) : Prop where
  status : alert.status = statusAfter es last
  lastEventId : alert.lastEventId = last.event.eventId
  openedAt : (es[openingIndex es - 1]?).map (fun a => a.event.occurredAt) = some alert.openedAt
  eventCount : alert.eventCount = es.length - openingIndex es + 1
  resolvedAt : alert.resolvedAt =
    if alert.status = .resolved then some last.event.occurredAt else none
  severity : (es.filter fun a => !a.quiet).getLast?.map (fun a => a.event.severity) =
    some alert.severity

theorem openingIndex_snoc (es : List Arrival) (a : Arrival) :
    openingIndex (es ++ [a]) =
      if a.opens then es.length + 1
      else if es = [] then 1 else openingIndex es := by
  unfold openingIndex
  rw [List.reverse_append, List.reverse_singleton, List.singleton_append, List.findIdx?_cons]
  by_cases ha : a.opens = true
  · simp [ha]
  · rw [if_neg ha, if_neg ha]
    by_cases he : es = []
    · subst he
      rfl
    · rw [if_neg he]
      cases hf : es.reverse.findIdx? Arrival.opens with
      | none => rfl
      | some back =>
        simp only [Option.map_some, List.length_append, List.length_singleton]
        omega

theorem openingIndex_le {es : List Arrival} (h : es ≠ []) :
    1 ≤ openingIndex es ∧ openingIndex es ≤ es.length := by
  have hpos : 0 < es.length := List.length_pos_iff.mpr h
  unfold openingIndex
  split
  · rename_i back hb
    have hlt : back < es.reverse.length := (List.findIdx?_eq_some_iff_getElem.mp hb).1
    rw [List.length_reverse] at hlt
    omega
  · omega

theorem lastNonInfo_snoc (es : List Arrival) (a : Arrival) :
    lastNonInfo (es ++ [a]) = if a.event.state ≠ .info then some a else lastNonInfo es := by
  unfold lastNonInfo
  rw [List.filter_append]
  by_cases h : a.event.state = .info
  · simp [h]
  · simp [h]

/-- The record is Firing exactly when the last event that is not an Info is Firing. -/
theorem statusAfter_eq_firing {es : List Arrival} {last : Arrival} (h : es.getLast? = some last) :
    statusAfter es last = .firing ↔ (lastNonInfo es).any (fun a => a.event.state = .firing) := by
  unfold statusAfter
  split
  · rename_i hany
    exact ⟨fun _ => hany, fun _ => rfl⟩
  · rename_i hany
    refine ⟨fun hs => ?_, fun h' => absurd h' hany⟩
    -- the last event is not Firing: else it is the last one that is not an Info
    obtain ⟨init, rfl⟩ := List.getLast?_eq_some_iff.mp h
    cases hst : last.event.state with
    | firing => simp [lastNonInfo_snoc, hst] at hany
    | resolved =>
      rw [hst] at hs
      cases hs
    | info =>
      rw [hst] at hs
      cases hs

/-! ## 4. The transition, column by column -/

section Columns

variable (a : Arrival)

/-- Every branch takes the id and the time of the event. -/
theorem alert_of_event :
    a.alert.lastEventId = a.event.eventId ∧ a.alert.lastSeen = a.event.occurredAt := by
  unfold Arrival.alert nextAlert
  cases a.before <;> cases a.event.state <;> constructor <;> simp only [newAlert]
  all_goals split <;> rfl

theorem status_alert : a.alert.status =
    if a.event.state = .info ∧ a.wasFiring = true then .firing else a.event.state.status := by
  unfold Arrival.alert nextAlert Arrival.wasFiring
  cases a.before with
  | none => cases hs : a.event.state <;> simp [newAlert, EventState.status]
  | some old =>
    cases hs : a.event.state with
    | firing => by_cases hf : old.status = .firing <;> simp [hf, EventState.status]
    | resolved => simp [EventState.status]
    | info => by_cases hf : old.status = .firing <;> simp [hf, EventState.status]

/-- A first event, or an opening one, starts the opening time and the count. -/
theorem opened_alert (h : a.before = none ∨ a.opens = true) :
    a.alert.openedAt = a.event.occurredAt ∧ a.alert.eventCount = 1 := by
  unfold Arrival.opens Arrival.wasFiring at h
  unfold Arrival.alert nextAlert
  cases hb : a.before with
  | none => cases hs : a.event.state <;> exact ⟨rfl, rfl⟩
  | some old =>
    rw [hb] at h
    cases hs : a.event.state with
    | firing =>
      have hf : old.status ≠ .firing := by simpa [hs] using h
      simp [hf]
    | resolved => simp [hs] at h
    | info => simp [hs] at h

/-- Every other event counts one more and keeps the opening time. -/
theorem kept_alert {old : AlertRecord} (hb : a.before = some old) (h : a.opens = false) :
    a.alert.openedAt = old.openedAt ∧ a.alert.eventCount = old.eventCount + 1 := by
  unfold Arrival.opens Arrival.wasFiring at h
  rw [hb] at h
  unfold Arrival.alert nextAlert
  rw [hb]
  cases hs : a.event.state with
  | firing =>
    have hf : old.status = .firing := by simpa [hs] using h
    simp [hf]
  | resolved => exact ⟨rfl, rfl⟩
  | info => by_cases hf : old.status = .firing <;> simp [hf]

theorem resolvedAt_alert (h : a.quiet = false) : a.alert.resolvedAt =
    if a.alert.status = .resolved then some a.event.occurredAt else none := by
  unfold Arrival.quiet Arrival.wasFiring at h
  unfold Arrival.alert nextAlert
  cases hb : a.before with
  | none => cases hs : a.event.state <;> simp [newAlert, hs]
  | some old =>
    rw [hb] at h
    cases hs : a.event.state with
    | firing => by_cases hf : old.status = .firing <;> simp [hf]
    | resolved => simp
    | info =>
      have hf : old.status ≠ .firing := by simpa [hs] using h
      simp [hf]

theorem severity_alert (h : a.quiet = false) : a.alert.severity = a.event.severity := by
  unfold Arrival.quiet Arrival.wasFiring at h
  unfold Arrival.alert nextAlert
  cases hb : a.before with
  | none => cases hs : a.event.state <;> rfl
  | some old =>
    rw [hb] at h
    cases hs : a.event.state with
    | firing => by_cases hf : old.status = .firing <;> simp [hf]
    | resolved => rfl
    | info =>
      have hf : old.status ≠ .firing := by simpa [hs] using h
      simp [hf]

/-- An Info received while Firing changes neither the resolution nor the severity. -/
theorem quiet_alert {old : AlertRecord} (hb : a.before = some old) (h : a.quiet = true) :
    a.alert.resolvedAt = old.resolvedAt ∧ a.alert.severity = old.severity ∧
      a.alert.status = .firing ∧ old.status = .firing := by
  unfold Arrival.quiet Arrival.wasFiring at h
  rw [hb] at h
  simp only [Option.any_some, Bool.and_eq_true, decide_eq_true_eq] at h
  unfold Arrival.alert nextAlert
  rw [hb, h.1]
  simp [h.2]

end Columns

/-! ## 5. The record after one more arrival -/

section Step

variable {es : List Arrival} {a : Arrival}

theorem record_status (hb : a.before = es.getLast?.map Arrival.alert)
    (ih : ∀ last, es.getLast? = some last → Record es last last.alert) :
    a.alert.status = statusAfter (es ++ [a]) a := by
  rw [status_alert]
  unfold statusAfter
  rw [lastNonInfo_snoc]
  cases hs : a.event.state with
  | firing => simp [hs, EventState.status]
  | resolved => simp [hs, EventState.status]
  | info =>
    -- the record before was Firing exactly when the last event that is no Info is
    have hw : a.wasFiring = (lastNonInfo es).any fun a => a.event.state = .firing := by
      unfold Arrival.wasFiring
      rw [hb]
      cases hl : es.getLast? with
      | none =>
        rw [List.getLast?_eq_none_iff.mp hl]
        rfl
      | some last =>
        rw [Option.map_some, Option.any_some, (ih last hl).status, Bool.eq_iff_iff,
          decide_eq_true_eq]
        exact statusAfter_eq_firing hl
    simp [hw]

theorem record_opening (hb : a.before = es.getLast?.map Arrival.alert)
    (ih : ∀ last, es.getLast? = some last → Record es last last.alert) :
    ((es ++ [a])[openingIndex (es ++ [a]) - 1]?).map (fun a => a.event.occurredAt) =
        some a.alert.openedAt ∧
      a.alert.eventCount = (es ++ [a]).length - openingIndex (es ++ [a]) + 1 := by
  rw [openingIndex_snoc, List.length_append, List.length_singleton]
  by_cases ho : a.opens = true
  · obtain ⟨h1, h2⟩ := opened_alert a (Or.inr ho)
    rw [if_pos ho, h1, h2]
    simp
  · rw [if_neg ho]
    by_cases he : es = []
    · have hnone : a.before = none := by rw [hb, he]; rfl
      obtain ⟨h1, h2⟩ := opened_alert a (Or.inl hnone)
      rw [if_pos he, h1, h2, he]
      simp
    · rw [if_neg he]
      obtain ⟨hlow, hhigh⟩ := openingIndex_le he
      obtain ⟨last, hl⟩ := Option.ne_none_iff_exists'.mp (mt List.getLast?_eq_none_iff.mp he)
      have hold : a.before = some last.alert := by rw [hb, hl]; rfl
      obtain ⟨h1, h2⟩ := kept_alert a hold (Bool.eq_false_iff.mpr ho)
      have hr := ih last hl
      have hlt : openingIndex es - 1 < es.length := by omega
      rw [h1, h2, List.getElem?_append_left hlt, hr.openedAt, hr.eventCount]
      exact ⟨rfl, by omega⟩

theorem record_severity (hb : a.before = es.getLast?.map Arrival.alert)
    (ih : ∀ last, es.getLast? = some last → Record es last last.alert) :
    ((es ++ [a]).filter fun a => !a.quiet).getLast?.map (fun a => a.event.severity) =
        some a.alert.severity ∧
      a.alert.resolvedAt = if a.alert.status = .resolved then some a.event.occurredAt else none := by
  rw [List.filter_append]
  cases hq : a.quiet with
  | false =>
    rw [severity_alert a hq]
    exact ⟨by simp [hq], resolvedAt_alert a hq⟩
  | true =>
    have hsome : ∃ old, a.before = some old := by
      cases hbf : a.before with
      | none => simp [Arrival.quiet, Arrival.wasFiring, hbf] at hq
      | some old => exact ⟨old, rfl⟩
    obtain ⟨old, hold⟩ := hsome
    obtain ⟨h1, h2, h3, h4⟩ := quiet_alert a hold hq
    rw [hb] at hold
    obtain ⟨last, hl, rfl⟩ := Option.map_eq_some_iff.mp hold
    have hr := ih last hl
    rw [h1, h2, h3, hr.resolvedAt, h4]
    refine ⟨?_, rfl⟩
    rw [← hr.severity]
    simp [hq]

theorem record_snoc (hb : a.before = es.getLast?.map Arrival.alert)
    (ih : ∀ last, es.getLast? = some last → Record es last last.alert) :
    Record (es ++ [a]) a a.alert where
  status := record_status hb ih
  lastEventId := (alert_of_event a).1
  openedAt := (record_opening hb ih).1
  eventCount := (record_opening hb ih).2
  resolvedAt := (record_severity hb ih).2
  severity := (record_severity hb ih).1

end Step

/-- **The record of a fingerprint in closed form.** -/
theorem record_of_coherent {as : List Arrival} (h : Coherent as) (f : String) {last : Arrival}
    (hl : (ofFingerprint f as).getLast? = some last) :
    Record (ofFingerprint f as) last last.alert := by
  induction h generalizing last with
  | nil => cases hl
  | @snoc as a h hb ih =>
    rw [ofFingerprint_snoc] at hl ⊢
    split at hl
    · rename_i hf
      rw [if_pos hf]
      rw [List.getLast?_append] at hl
      cases hl
      refine record_snoc ?_ (fun last hl => ih hl)
      rw [hb, hf]
      rfl
    · rename_i hf
      rw [if_neg hf]
      exact ih hl

/-! ## 6. The event count as a test for an opening -/

/-- A record that exists has counted an event. -/
theorem count_pos {as : List Arrival} (h : Coherent as) {f : String} {alert : AlertRecord}
    (ha : alertOf f as = some alert) : 1 ≤ alert.eventCount := by
  obtain ⟨last, hl, rfl⟩ := Option.map_eq_some_iff.mp ha
  rw [(record_of_coherent h f hl).eventCount]
  omega

/-- **The proxy test of `accept`**: for a Firing event, an event count of 1 says that the event
    arrived while the status was not Firing. -/
theorem announces_iff {as : List Arrival} (h : Coherent as) {a : Arrival}
    (hb : a.before = alertOf a.event.fingerprint as) :
    announces a.event a.alert = true ↔ a.event.state ≠ .firing ∨ a.opens = true := by
  unfold announces
  rw [Bool.or_eq_true, decide_eq_true_eq, decide_eq_true_eq]
  cases hs : a.event.state with
  | resolved => simp
  | info => simp
  | firing =>
    cases ho : a.opens with
    | true => simp [(opened_alert a (Or.inr ho)).2]
    | false =>
      cases hbf : a.before with
      | none => simp [Arrival.opens, Arrival.wasFiring, hbf, hs] at ho
      | some old =>
        have hpos : 1 ≤ old.eventCount := count_pos h (hb ▸ hbf)
        have hcount := (kept_alert a hbf ho).2
        have hne : a.alert.eventCount ≠ 1 := by omega
        simp [hne]

end Beacon
