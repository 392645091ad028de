/-
  File:      Beacon/Server/Idempotence.lean
  Subject:   Accepting an event twice: what a call answers, and that only new events count.

  The store keeps the text of an event and compares texts; for events without floating-point
  facts equal texts are equal events (`Event.toString_injective`), so the answers can be said in
  terms of events. Calls that were a duplicate, a conflict or invalid leave nothing behind, and
  the tables do not depend on the clock except for the two columns that hold its readings.

  * `accept_classified` -- the four answers of a call on a history;
  * `sameButTimes_perform` -- the clock enters no other column (a two-run step lemma);
  * `accept_idempotent` -- **the answers and the tables of any run of `accept`**.
-/
import Beacon.Server.History

namespace Beacon

open Foundation

variable [Formats]

/-! ## 1. The answers -/

section Answers

variable {store : ServerEventStore} {as : List Arrival} {db : Db}

/-- **The four answers of `accept`**, by validity and by what the id is known for. -/
theorem accept_classified (h : History store as db) (call : AcceptCall) :
    let answer := ((Op.accept call).perform store db).1
    let row := db.events.get? call.event.eventId
    (¬ call.event.Valid ∧ ∃ m, answer = .error (.raised (.invalid m))) ∨
    (call.event.Valid ∧ row = none ∧ ∃ alert, answer = .ok (.accepted ⟨false, alert⟩)) ∨
    (call.event.Valid ∧ (∃ r, row = some r ∧ r.payload = call.event.toString) ∧
      ∃ alert, answer = .ok (.accepted ⟨true, alert⟩)) ∨
    (call.event.Valid ∧ (∃ r, row = some r ∧ r.payload ≠ call.event.toString) ∧
      answer = .error (.raised .eventConflict)) := by
  intro answer row
  have hm := h.not_missing (.accept call)
  have ho := transact_accept store call db
  revert hm
  show ((Op.accept call).perform store db).1 ≠ _ → _
  simp only [answer, perform_accept]
  revert ho
  generalize Transaction.transact (store.accept call) db = o
  intro ho hm
  cases ho with
  | invalid m hv =>
    refine Or.inl ⟨fun hv' => ?_, m, rfl⟩
    rw [Event.Valid, hv] at hv'
    cases hv'
  | fresh events hv hid hr => exact Or.inr (Or.inl ⟨hv, hid, _, rfl⟩)
  | duplicate r alert hv hid hp ha =>
    exact Or.inr (Or.inr (Or.inl ⟨hv, ⟨r, hid, hp⟩, alert, rfl⟩))
  | conflict r hv hid hp => exact Or.inr (Or.inr (Or.inr ⟨hv, ⟨r, hid, hp⟩, rfl⟩))
  | missing r hv hid hp ha => exact absurd rfl hm

/-- The event first accepted under an id is the only one. -/
theorem History.find?_held (h : History store as db) {id : String} {e : Event} :
    (as.map Arrival.event).find? (fun e => e.eventId = id) = some e ↔
      e ∈ as.map Arrival.event ∧ e.eventId = id := by
  have hn : ((as.map Arrival.event).map Event.eventId).Nodup := by
    rw [List.map_map]
    exact h.ids_nodup
  exact Table.get?_eq_some (t := (⟨_, hn⟩ : Table String Event Event.eventId))

/-- The stored text of an id is the text of the event held under it. -/
theorem History.row_held (h : History store as db) {id : String} {r : EventRow}
    (hr : db.events.get? id = some r) :
    ∃ e, (as.map Arrival.event).find? (fun e => e.eventId = id) = some e ∧
      r.payload = e.toString := by
  obtain ⟨a, ha, hid, rfl⟩ := h.get?_event.mp hr
  exact ⟨a.event, h.find?_held.mpr ⟨List.mem_map_of_mem ha, hid⟩, rfl⟩

theorem History.not_held (h : History store as db) {id : String}
    (hr : db.events.get? id = none) :
    (as.map Arrival.event).find? (fun e => e.eventId = id) = none := by
  rw [List.find?_eq_none]
  simp only [List.forall_mem_map, decide_eq_true_eq]
  exact h.fresh_event.mp hr

/-- The answers in terms of the events held, where equal texts are equal events. -/
theorem accept_answers (h : History store as db) {held : List Event}
    (hheld : held = as.map Arrival.event) (call : AcceptCall)
    (htext : ∀ e ∈ held, e.toString = call.event.toString ↔ e = call.event) :
    let answer := ((Op.accept call).perform store db).1
    ((∃ alert, answer = .ok (.accepted ⟨false, alert⟩)) ↔
      call.event.Valid ∧ ∀ e ∈ held, e.eventId ≠ call.event.eventId) ∧
    ((∃ alert, answer = .ok (.accepted ⟨true, alert⟩)) ↔
      held.find? (fun e => e.eventId = call.event.eventId) = some call.event) ∧
    (answer = .error (.raised .eventConflict) ↔
      call.event.Valid ∧
        ∃ e, held.find? (fun e => e.eventId = call.event.eventId) = some e ∧ e ≠ call.event) := by
  intro answer
  have hnone : (∀ e ∈ held, e.eventId ≠ call.event.eventId) ↔
      held.find? (fun e => e.eventId = call.event.eventId) = none := by
    simp [List.find?_eq_none]
  rcases accept_classified h call with ⟨hv, m, hans⟩ | ⟨hv, hrow, alert, hans⟩ |
      ⟨hv, ⟨r, hrow, hp⟩, alert, hans⟩ | ⟨hv, ⟨r, hrow, hp⟩, hans⟩
  · -- invalid: only valid events are held
    have hnot : held.find? (fun e => e.eventId = call.event.eventId) ≠ some call.event := by
      intro hf
      rw [hheld] at hf
      obtain ⟨a, ha, he⟩ := List.mem_map.mp (h.find?_held.mp hf).1
      exact hv (he ▸ h.valid a ha)
    simp [answer, hans, hv, hnot]
  · -- new
    have hf : held.find? (fun e => e.eventId = call.event.eventId) = none := by
      rw [hheld]
      exact h.not_held hrow
    rw [hnone, hf]
    simp [answer, hans, hv]
  · -- the text held under the id is that of the event
    obtain ⟨e, hf, hpe⟩ := h.row_held hrow
    rw [← hheld] at hf
    have he : e = call.event := (htext e (List.mem_of_find?_eq_some hf)).mp (hpe ▸ hp)
    rw [hnone, hf, he]
    simp [answer, hans]
  · obtain ⟨e, hf, hpe⟩ := h.row_held hrow
    rw [← hheld] at hf
    have he : e ≠ call.event := fun e' => hp (by rw [hpe, e'])
    rw [hnone, hf]
    simp [answer, hans, hv, he]

end Answers

/-! ## 2. Calls that leave nothing -/

/-- A call that accepted no new event leaves the tables as they were. -/
theorem perform_accept_none {store : ServerEventStore} {db : Db} {call : AcceptCall}
    (h : (stepOf store db (.accept call)).arrival? = none) :
    ((Op.accept call).perform store db).2 = db := by
  have ho := transact_accept store call db
  unfold stepOf at h
  rw [perform_accept] at h ⊢
  revert ho h
  generalize Transaction.transact (store.accept call) db = o
  intro h ho
  cases ho with
  | fresh events hv hid hr => cases h
  | _ => rfl

omit [Formats] in
theorem call_of_arrival? {s : Step} {a : Arrival} (h : s.arrival? = some a) :
    s.op = .accept a.call := by
  unfold Step.arrival? at h
  split at h
  · rename_i hop
    cases h
    exact hop
  · cases h

/-- An arrival comes from a call of the run. -/
theorem op_of_mem_arrivals {store : ServerEventStore} {ops : List Op} {a : Arrival}
    (h : a ∈ arrivals store ops) : Op.accept a.call ∈ ops := by
  obtain ⟨s, hs, ha⟩ := List.mem_filterMap.mp h
  obtain ⟨pre, op, post, rfl, rfl⟩ := mem_trace hs
  have hop : op = .accept a.call := call_of_arrival? ha
  rw [hop]
  exact List.mem_append_right _ List.mem_cons_self

/-- **Dropping every call that was a duplicate, a conflict or invalid changes no table.** -/
theorem performAll_accepted (store : ServerEventStore) (calls : List AcceptCall) :
    performAll store .empty ((arrivals store (calls.map .accept)).map fun a => .accept a.call) =
      performAll store .empty (calls.map .accept) := by
  induction calls using List.reverseRecOn with
  | nil => rfl
  | append_singleton calls call ih =>
    rw [List.map_append, List.map_singleton, arrivals_snoc, performAll_snoc, List.map_append]
    cases ha : (stepOf store (performAll store .empty (calls.map .accept))
        (.accept call)).arrival? with
    | none =>
      rw [perform_accept_none ha, Option.toList_none, List.map_nil, List.append_nil]
      exact ih
    | some a =>
      have hcall : Op.accept call = .accept a.call := call_of_arrival? ha
      rw [Option.toList_some, List.map_singleton, performAll_snoc, ih, ← hcall]

/-! ## 3. The clock -/

/-- Equal tables, except for the readings of the clock that `accept` stores. -/
structure SameButTimes (a b : Db) : Prop where
  events : a.events.rows.map (fun r => { r with receivedAt := "" }) =
    b.events.rows.map fun r => { r with receivedAt := "" }
  alerts : a.alerts = b.alerts
  notifications : a.notifications.rows.map (fun r => { r with nextAttemptAt := "" }) =
    b.notifications.rows.map fun r => { r with nextAttemptAt := "" }
  seq : a.notifications.seq = b.notifications.seq

omit [Formats] in
theorem SameButTimes.fixed {a b : Db} (h : SameButTimes a b) :
    a.notifications.rows.map NotificationRow.fixed = b.notifications.rows.map NotificationRow.fixed := by
  have e := congrArg (List.map NotificationRow.fixed) h.notifications
  rw [List.map_map, List.map_map] at e
  exact e

omit [Formats] in
/-- The id of an event is known in both tables or in neither. -/
theorem SameButTimes.get?_event {a b : Db} (h : SameButTimes a b) (id : String) :
    a.events.get? id = none ↔ b.events.get? id = none := by
  have e := congrArg (List.map EventRow.eventId) h.events
  rw [List.map_map, List.map_map] at e
  rw [Table.get?_eq_none_iff_keys, Table.get?_eq_none_iff_keys]
  exact Iff.of_eq (congrArg (id ∉ ·) e)

omit [Formats] in
theorem SameButTimes.insertAll {a b : NotificationTable}
    (hrows : a.rows.map (fun r => { r with nextAttemptAt := "" }) =
      b.rows.map fun r => { r with nextAttemptAt := "" })
    (hseq : a.seq = b.seq) (ms : List Message) (s t : String) :
    ((a.insertAll ms s).rows.map (fun r => { r with nextAttemptAt := "" }) =
      (b.insertAll ms t).rows.map fun r => { r with nextAttemptAt := "" }) ∧
    (a.insertAll ms s).seq = (b.insertAll ms t).seq := by
  induction ms generalizing a b with
  | nil => exact ⟨hrows, hseq⟩
  | cons m ms ih =>
    have hfixed : a.rows.map NotificationRow.fixed = b.rows.map NotificationRow.fixed := by
      have e := congrArg (List.map NotificationRow.fixed) hrows
      rw [List.map_map, List.map_map] at e
      exact e
    show ((a.insertOrIgnore m s).insertAll ms s).rows.map _ = _ ∧ _
    refine ih ?_ ?_
    · unfold NotificationTable.insertOrIgnore
      simp only [hfixed]
      split
      · exact hrows
      · simp only [List.map_append, hrows, hseq]
        rfl
    · unfold NotificationTable.insertOrIgnore
      simp only [hfixed]
      split <;> simp only [hseq]

/-- **The same event at another time**: a step keeps the tables equal but for the times. -/
theorem sameButTimes_perform {store : ServerEventStore} {a b : Db} (h : SameButTimes a b)
    {c d : AcceptCall} (he : c.event = d.event) :
    SameButTimes ((Op.accept c).perform store a).2 ((Op.accept d).perform store b).2 := by
  have hcond : (c.event.Valid ∧ a.events.get? c.event.eventId = none) ↔
      (d.event.Valid ∧ b.events.get? d.event.eventId = none) := by
    rw [he, h.get?_event]
  rcases perform_accept_tables store a c with ⟨hv, hid, ev, hr, hc⟩ | ⟨hn, hc⟩ <;>
    rcases perform_accept_tables store b d with ⟨hv', hid', ev', hr', hd⟩ | ⟨hn', hd⟩
  · rw [hc, hd]
    have halert : a.alertAfter c.event = b.alertAfter d.event := by
      rw [Db.alertAfter, Db.alertAfter, h.alerts, he]
    have hqueue := SameButTimes.insertAll h.notifications h.seq
      (store.messagesFor d.event (b.alertAfter d.event)) c.queuedAt.toRfc3339 d.queuedAt.toRfc3339
    refine ⟨?_, ?_, ?_, ?_⟩
    · show ev.rows.map _ = ev'.rows.map _
      rw [hr, hr', List.map_append, List.map_append, h.events]
      simp only [AcceptCall.row, List.map_cons, List.map_nil, he]
    · show a.alerts.upsert (a.alertAfter c.event) = b.alerts.upsert (b.alertAfter d.event)
      rw [halert, h.alerts]
    · show (a.notifications.insertAll (store.messagesFor c.event (a.alertAfter c.event)) _).rows.map _ = _
      rw [halert, he]
      exact hqueue.1
    · show (a.notifications.insertAll (store.messagesFor c.event (a.alertAfter c.event)) _).seq = _
      rw [halert, he]
      exact hqueue.2
  · exact absurd (hcond.mp ⟨hv, hid⟩) hn'
  · exact absurd (hcond.mpr ⟨hv', hid'⟩) hn
  · rw [hc, hd]
    exact h

/-- Two runs that accept the same events, at any times, leave the same tables but for the times. -/
theorem sameButTimes_run (store : ServerEventStore) {cs ds : List AcceptCall}
    (h : cs.map AcceptCall.event = ds.map AcceptCall.event) {a b : Db} (hab : SameButTimes a b) :
    SameButTimes (performAll store a (cs.map .accept)) (performAll store b (ds.map .accept)) := by
  induction cs generalizing ds a b with
  | nil =>
    cases ds with
    | nil => exact hab
    | cons d ds => cases h
  | cons c cs ih =>
    cases ds with
    | nil => cases h
    | cons d ds =>
      obtain ⟨hcd, hrest⟩ := List.cons.inj h
      exact ih hrest (sameButTimes_perform hab hcd)

/-! ## 4. Runs of accept -/

/-- **Accepting is idempotent.** After any run of `accept` calls from the empty store, on events
    without floating-point facts, with `held` the events newly accepted so far in commit order:
    the next call answers duplicate=false iff its event is valid and its id is not held, answers
    duplicate=true iff its event is the one first held under its id, and is refused as a
    conflict iff it is valid and another event is held under its id. The calls that newly
    accepted an event leave the tables of the whole run when they are made alone, exactly with
    the same clock readings and up to these readings with any others. -/
theorem accept_idempotent (store : ServerEventStore) (calls : List AcceptCall)
    (call : AcceptCall) (hff : ∀ c ∈ calls ++ [call], c.event.floatFree = true) :
    let db := performAll store .empty (calls.map .accept)
    let kept := (arrivals store (calls.map .accept)).map Arrival.call
    let held := kept.map AcceptCall.event
    let answer := ((Op.accept call).perform store db).1
    ((∃ alert, answer = .ok (.accepted ⟨false, alert⟩)) ↔
      call.event.Valid ∧ ∀ e ∈ held, e.eventId ≠ call.event.eventId) ∧
    ((∃ alert, answer = .ok (.accepted ⟨true, alert⟩)) ↔
      held.find? (fun e => e.eventId = call.event.eventId) = some call.event) ∧
    (answer = .error (.raised .eventConflict) ↔
      call.event.Valid ∧
        ∃ e, held.find? (fun e => e.eventId = call.event.eventId) = some e ∧ e ≠ call.event) ∧
    performAll store .empty (kept.map .accept) = db ∧
    ∀ later : List AcceptCall, later.map AcceptCall.event = held →
      SameButTimes (performAll store .empty (later.map .accept)) db := by
  intro db kept held answer
  have hist : History store (arrivals store (calls.map .accept)) db := history_run store _
  have hheld : held = (arrivals store (calls.map .accept)).map Arrival.event := by
    show (List.map _ _).map _ = _
    rw [List.map_map]
    rfl
  have hkept : performAll store .empty (kept.map .accept) = db := by
    have hops : kept.map Op.accept =
        (arrivals store (calls.map .accept)).map fun a => Op.accept a.call := by
      show (List.map _ _).map _ = _
      rw [List.map_map]
      rfl
    rw [hops]
    exact performAll_accepted store calls
  -- among float-free events, texts are events
  have htext : ∀ e ∈ held, e.toString = call.event.toString ↔ e = call.event := by
    intro e he
    refine ⟨fun h => Event.toString_injective ?_ ?_ h, fun h => by rw [h]⟩
    · rw [hheld] at he
      obtain ⟨a, ha, rfl⟩ := List.mem_map.mp he
      obtain ⟨c, hc, hop⟩ := List.mem_map.mp (op_of_mem_arrivals ha)
      cases hop
      exact hff _ (List.mem_append_left _ hc)
    · exact hff _ (List.mem_append_right _ (List.mem_singleton_self _))
  have hanswers := accept_answers hist hheld call htext
  refine ⟨hanswers.1, hanswers.2.1, hanswers.2.2, hkept, fun later hl => ?_⟩
  rw [← hkept]
  exact sameButTimes_run store hl ⟨rfl, rfl, rfl, rfl⟩

omit [Formats] in
/-- The theorem at a repeated event: the second call is a duplicate. -/
theorem accept_idempotent_repeated :
    let c := Sample.call (Sample.event Sample.id1 "2026-01-01T00:00:00Z" .firing .critical)
    let db := @performAll Sample.formats Sample.silentStore .empty [.accept c]
    ∃ alert, (@Op.perform Sample.formats Sample.silentStore (.accept c) db).1 =
      .ok (.accepted ⟨true, alert⟩) := by
  intro c db
  have hv : ∀ d ∈ [c], @Event.Valid Sample.formats d.event := by
    intro d hd
    rw [List.mem_singleton.mp hd]
    decide
  have hkept := @arrivals_of_fresh Sample.formats Sample.silentStore [c] hv (List.nodup_singleton _)
  have h := @accept_idempotent Sample.formats Sample.silentStore [c] c (by decide)
  refine h.2.1.mpr ?_
  rw [hkept]
  exact List.find?_cons_of_pos (by decide)

end Beacon
