/-
  File:      Beacon/Server/LastSeen.lean
  Subject:   The column `last_seen` of an alert over any run of `accept`.

  Each of the branches of `transition_alert` puts the time of the arriving event into `last_seen`
  (`alert_of_event`), and none compares it with the time that stands there. So the column follows
  the order of acceptance; it is the latest time as long as this is the order in which the events
  occurred.

  * `last_seen_of_run` -- **the column after any run**, and what it says of events accepted in the
    order of their times;
  * `moved_back` -- a late retry moves it back.
-/
import Beacon.Server.AlertRecords

namespace Beacon

open Foundation

variable [Formats]

/-- The instant an event occurred at. -/
def Event.instant (event : Event) : Option DateTime := Formats.parseFromRfc3339 event.occurredAt

/-- The arrivals occurred in this order. -/
def InOrder (es : List Arrival) : Prop :=
  es.Pairwise fun a b => ∀ s t, a.event.instant = some s → b.event.instant = some t → s ≤ t

/-- A valid event occurred at an instant. -/
theorem instant_of_valid {event : Event} (h : event.Valid) : ∃ t, event.instant = some t := by
  obtain ⟨_, _, _, _, _, _, _, _, htime, _⟩ := Event.valid_iff.mp h
  exact Option.isSome_iff_exists.mp htime

/-- In order, the last arrival is the latest. -/
theorem le_last {es : List Arrival} {last a : Arrival} {s t : DateTime} (h : InOrder es)
    (hlast : es.getLast? = some last) (ha : a ∈ es) (hs : a.event.instant = some s)
    (ht : last.event.instant = some t) : s ≤ t := by
  obtain ⟨init, rfl⟩ := List.getLast?_eq_some_iff.mp hlast
  rcases List.mem_append.mp ha with ha | ha
  · exact (List.pairwise_append.mp h).2.2 a ha last List.mem_cons_self s t hs ht
  · rw [List.mem_singleton.mp ha, ht] at hs
    cases hs
    exact Int.le_refl _

section History

variable {store : ServerEventStore} {as : List Arrival} {db : Db} {f : String} {alert : AlertRecord}

/-- The alert of a fingerprint was seen when its last event occurred, and opened when one of its
    events did. -/
theorem History.seen (h : History store as db) (ha : db.alerts.get? f = some alert) :
    ∃ last, (ofFingerprint f as).getLast? = some last ∧
      alert.lastSeen = last.event.occurredAt ∧
      ∃ first ∈ ofFingerprint f as, alert.openedAt = first.event.occurredAt := by
  rw [h.alerts] at ha
  obtain ⟨last, hlast, rfl⟩ := Option.map_eq_some_iff.mp ha
  refine ⟨last, hlast, (alert_of_event last).2, ?_⟩
  obtain ⟨first, hfirst, hopened⟩ :=
    Option.map_eq_some_iff.mp (record_of_coherent h.coherent f hlast).openedAt
  exact ⟨first, List.mem_of_getElem? hfirst, hopened.symm⟩

end History

/-- An arrival is that of the call, with the alert the call found. -/
theorem call_of_arrival {store : ServerEventStore} {db : Db} {op : Op} {a : Arrival}
    (h : (stepOf store db op).arrival? = some a) :
    ∃ call, op = .accept call ∧ a = ⟨call, db.alerts.get? call.event.fingerprint⟩ := by
  unfold Step.arrival? at h
  split at h
  · rename_i call _ hop
    exact ⟨call, hop, (Option.some.inj h).symm⟩
  · cases h

/-- What one more call does to the arrivals of a fingerprint. -/
theorem ofFingerprint_arrivals_snoc (store : ServerEventStore) (ops : List Op) (op : Op)
    (f : String) :
    ofFingerprint f (arrivals store (ops ++ [op])) = ofFingerprint f (arrivals store ops) ∨
      ∃ call before, op = .accept call ∧ call.event.fingerprint = f ∧
        ofFingerprint f (arrivals store (ops ++ [op])) =
          ofFingerprint f (arrivals store ops) ++ [⟨call, before⟩] := by
  rw [arrivals_snoc]
  cases ha : (stepOf store (performAll store .empty ops) op).arrival? with
  | none =>
    rw [Option.toList_none, List.append_nil]
    exact .inl rfl
  | some a =>
    rw [Option.toList_some, ofFingerprint_snoc]
    by_cases hf : a.event.fingerprint = f
    · rw [if_pos hf]
      obtain ⟨call, rfl, rfl⟩ := call_of_arrival ha
      exact .inr ⟨call, _, rfl, hf, rfl⟩
    · rw [if_neg hf]
      exact .inl rfl

/-- **`last_seen` after any run** is the time of the event of the fingerprint that was accepted
    last. If the events of the fingerprint were accepted in the order in which they occurred, then
    it is the latest of their times and not before the opening, and a call that keeps this order
    does not move it back; a call that accepts an event moves it to the time of that event. -/
theorem last_seen_of_run (store : ServerEventStore) (ops : List Op) (f : String)
    (hes : ofFingerprint f (arrivals store ops) ≠ []) :
    let es := ofFingerprint f (arrivals store ops)
    ∃ alert last seen opened, (performAll store .empty ops).alerts.get? f = some alert ∧
      es.getLast? = some last ∧ alert.lastSeen = last.event.occurredAt ∧
      Formats.parseFromRfc3339 alert.lastSeen = some seen ∧
      Formats.parseFromRfc3339 alert.openedAt = some opened ∧
      (InOrder es → opened ≤ seen ∧ ∀ a ∈ es, ∃ t, a.event.instant = some t ∧ t ≤ seen) ∧
      ∀ op, let after := performAll store .empty (ops ++ [op])
        ∃ alert' seen', after.alerts.get? f = some alert' ∧
          Formats.parseFromRfc3339 alert'.lastSeen = some seen' ∧
          (InOrder (ofFingerprint f (arrivals store (ops ++ [op]))) → seen ≤ seen') ∧
          (alert' = alert ∨ ∃ call, op = .accept call ∧ call.event.fingerprint = f ∧
            alert'.lastSeen = call.event.occurredAt) := by
  intro es
  have hist := history_run store ops
  have hlen : 1 ≤ es.length := List.length_pos_of_ne_nil hes
  obtain ⟨alert, halert⟩ := Option.isSome_iff_exists.mp ((alert_isSome hist f).mpr hlen)
  obtain ⟨last, hlast, hseen, first, hfirst, hopened⟩ := hist.seen halert
  have hvalid : ∀ a ∈ es, ∃ t, a.event.instant = some t := fun a ha =>
    instant_of_valid (hist.valid a (mem_of_mem_ofFingerprint ha))
  obtain ⟨seen, hs⟩ := hvalid last (List.mem_of_getLast? hlast)
  obtain ⟨opened, ho⟩ := hvalid first hfirst
  have hs' : Formats.parseFromRfc3339 alert.lastSeen = some seen := by rw [hseen]; exact hs
  have ho' : Formats.parseFromRfc3339 alert.openedAt = some opened := by rw [hopened]; exact ho
  refine ⟨alert, last, seen, opened, halert, hlast, hseen, hs', ho', ?_, ?_⟩
  · intro hord
    refine ⟨le_last hord hlast hfirst ho hs, fun a ha => ?_⟩
    obtain ⟨t, ht⟩ := hvalid a ha
    exact ⟨t, ht, le_last hord hlast ha ht hs⟩
  · intro op after
    have hist' := history_run store (ops ++ [op])
    rcases ofFingerprint_arrivals_snoc store ops op f with hsame | ⟨call, before, rfl, hf, hmore⟩
    · have hkept : after.alerts.get? f = some alert := by
        rw [hist'.alerts, alertOf, hsame, ← alertOf, ← hist.alerts]
        exact halert
      exact ⟨alert, seen, hkept, hs', fun _ => Int.le_refl _, .inl rfl⟩
    · have hlast' : (ofFingerprint f (arrivals store (ops ++ [.accept call]))).getLast? =
          some ⟨call, before⟩ := by rw [hmore, List.getLast?_concat]
      have hmem := List.mem_of_getLast? hlast'
      obtain ⟨t, ht⟩ := instant_of_valid (hist'.valid _ (mem_of_mem_ofFingerprint hmem))
      obtain ⟨alert', halert'⟩ : ∃ alert', after.alerts.get? f = some alert' := by
        rw [hist'.alerts, alertOf, hlast']
        exact ⟨_, rfl⟩
      obtain ⟨last', hl, hseen', _⟩ := hist'.seen halert'
      obtain rfl : last' = ⟨call, before⟩ := Option.some.inj (hl.symm.trans hlast')
      refine ⟨alert', t, halert', by rw [hseen']; exact ht, fun hord => ?_,
        .inr ⟨call, rfl, hf, hseen'⟩⟩
      have hbefore : last ∈ ofFingerprint f (arrivals store (ops ++ [.accept call])) := by
        rw [hmore]
        exact List.mem_append_left _ (List.mem_of_getLast? hlast)
      exact le_last hord hlast' hbefore hs ht

/-! ## Two runs of the store -/

namespace Sample

/-- Two firing events, the second one of the two minutes `first` and `second`. -/
def pair (first second : String) : List Op :=
  [.accept (call (event id1 first .firing .critical)),
    .accept (call (event id2 second .firing .critical))]

end Sample

omit [Formats] in
theorem last_seen_of_run_sample :
    ∃ alert, (@performAll Sample.formats Sample.silentStore .empty
        (Sample.pair "2026-01-01T00:00:00Z" "2026-01-01T00:01:00Z")).alerts.get?
          "backup/restic/age" = some alert ∧
      alert.lastSeen = "2026-01-01T00:01:00Z" := by
  have hes : ofFingerprint "backup/restic/age" (@arrivals Sample.formats Sample.silentStore
      (Sample.pair "2026-01-01T00:00:00Z" "2026-01-01T00:01:00Z")) ≠ [] :=
    List.ne_nil_of_length_pos (by decide +kernel)
  obtain ⟨alert, last, _, _, halert, hlast, hseen, _⟩ :=
    @last_seen_of_run Sample.formats Sample.silentStore _ "backup/restic/age" hes
  refine ⟨alert, halert, hseen.trans ?_⟩
  have htime : (ofFingerprint "backup/restic/age" (@arrivals Sample.formats Sample.silentStore
      (Sample.pair "2026-01-01T00:00:00Z" "2026-01-01T00:01:00Z"))).getLast?.map
        (fun a => a.event.occurredAt) = some "2026-01-01T00:01:00Z" := by decide +kernel
  rw [hlast] at htime
  exact Option.some.inj htime

omit [Formats] in
/-- **A late retry moves `last_seen` back**: of two firing events the one that occurred first is
    accepted last. The alert was seen before it was opened, and before the other event. -/
theorem moved_back :
    let ops := Sample.pair "2026-01-01T00:01:00Z" "2026-01-01T00:00:00Z"
    let before := (@performAll Sample.formats Sample.silentStore .empty (ops.take 1)).alerts
    let after := (@performAll Sample.formats Sample.silentStore .empty ops).alerts
    ∃ seen opened, seen < opened ∧
      (before.get? "backup/restic/age").bind (fun a => Sample.formats.parseFromRfc3339 a.lastSeen)
        = some opened ∧
      (after.get? "backup/restic/age").bind (fun a => Sample.formats.parseFromRfc3339 a.openedAt)
        = some opened ∧
      (after.get? "backup/restic/age").bind (fun a => Sample.formats.parseFromRfc3339 a.lastSeen)
        = some seen :=
  ⟨⟨1767225600000000000⟩, ⟨1767225660000000000⟩, by decide +kernel, by decide +kernel,
    by decide +kernel, by decide +kernel⟩

end Beacon
