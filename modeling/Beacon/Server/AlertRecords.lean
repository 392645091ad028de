/-
  File:      Beacon/Server/AlertRecords.lean
  Subject:   The alerts table after any run of the store.

  * `alert_row_of_run` -- **the row of a fingerprint is the closed form of its own arrivals**:
    which columns of which event it holds, that it exists exactly when there is one, and that
    no event of another fingerprint has a part in it.
-/
import Beacon.Server.History

namespace Beacon

open Foundation

variable [Formats]

/-- A fingerprint has a row exactly when an event of it was accepted. -/
theorem alert_isSome {store : ServerEventStore} {as : List Arrival} {db : Db}
    (h : History store as db) (f : String) :
    (db.alerts.get? f).isSome ↔ 1 ≤ (ofFingerprint f as).length := by
  rw [h.alerts, alertOf, Option.isSome_map]
  cases ofFingerprint f as with
  | nil => simp
  | cons a es => simp

/-- The events of one fingerprint, accepted alone, leave the same row. -/
theorem alert_of_own_events (store : ServerEventStore) (ops : List Op) (f : String) :
    (performAll store .empty ops).alerts.get? f =
      (performAll store .empty
        ((ofFingerprint f (arrivals store ops)).map fun a => .accept a.call)).alerts.get? f := by
  have hist := history_run store ops
  have own : (ofFingerprint f (arrivals store ops)).map (fun a => Op.accept a.call) =
      ((ofFingerprint f (arrivals store ops)).map Arrival.call).map Op.accept := by
    rw [List.map_map]
    rfl
  rw [own]
  have hsub : (ofFingerprint f (arrivals store ops)).Sublist (arrivals store ops) :=
    List.filter_sublist
  have hcalls := arrivals_of_fresh store ((ofFingerprint f (arrivals store ops)).map Arrival.call)
    (by
      intro c hc
      obtain ⟨a, ha, rfl⟩ := List.mem_map.mp hc
      exact hist.valid a (mem_of_mem_ofFingerprint ha))
    (by
      rw [List.map_map]
      exact (hsub.map _).nodup hist.ids_nodup)
  have hist' := history_run store
    (((ofFingerprint f (arrivals store ops)).map Arrival.call).map Op.accept)
  have hevents : (arrivals store
      (((ofFingerprint f (arrivals store ops)).map Arrival.call).map Op.accept)).map Arrival.event =
      (ofFingerprint f (arrivals store ops)).map Arrival.event := by
    have hmap : ∀ as : List Arrival,
        as.map Arrival.event = (as.map Arrival.call).map AcceptCall.event := by
      intro as
      rw [List.map_map]
      rfl
    rw [hmap, hcalls, ← hmap]
  rw [hist.alerts, hist'.alerts, ← alertOf_ofFingerprint,
    alertOf_eq_lifecycle (coherent_ofFingerprint hist.coherent f),
    alertOf_eq_lifecycle hist'.coherent, hevents]

/-- **The alerts table after any run**, from the empty store, of `accept` calls with worker calls
    anywhere between them. With `es` the newly accepted events of `f` in commit order: no call
    ever misses an alert; a row exists iff there is an event; the row is `Record es`; and it is
    the row that these events leave when they are accepted alone. -/
theorem alert_row_of_run (store : ServerEventStore) (ops : List Op) (f : String) :
    let db := performAll store .empty ops
    let es := ofFingerprint f (arrivals store ops)
    (∀ s ∈ trace store .empty ops, s.answer ≠ .error (.raised .missingAlertState)) ∧
    ((db.alerts.get? f).isSome ↔ 1 ≤ es.length) ∧
    (∀ alert, db.alerts.get? f = some alert →
      ∃ last, es.getLast? = some last ∧ Record es last alert) ∧
    db.alerts.get? f =
      (performAll store .empty (es.map fun a => .accept a.call)).alerts.get? f := by
  intro db es
  have hist : History store (arrivals store ops) db := history_run store ops
  refine ⟨fun s hs => missing_never hs, alert_isSome hist f, ?_, alert_of_own_events store ops f⟩
  intro alert ha
  rw [hist.alerts] at ha
  obtain ⟨last, hl, rfl⟩ := Option.map_eq_some_iff.mp ha
  exact ⟨last, hl, record_of_coherent hist.coherent f hl⟩

end Beacon
