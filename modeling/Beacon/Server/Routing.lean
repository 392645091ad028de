/-
  File:      Beacon/Server/Routing.lean
  Subject:   Which notification jobs a run of the store leaves, and what they say.

  A row is queued for every channel an event is routed to, unless the event is a Firing one that
  arrived while its fingerprint was Firing. Rows stay, and so do their messages, whatever the
  worker does to their delivery columns.

  * `mem_messagesOf` -- the messages of one arrival;
  * `fixed_performAll` -- ids and messages of a run begin those of every longer run;
  * `notifications_of_run` -- **the notifications table after any run**.
-/
import Beacon.Server.History

namespace Beacon

open Foundation

variable [Formats]

section Messages

variable {store : ServerEventStore} {as : List Arrival} {db : Db}

omit [Formats] in
/-- **The messages of an arrival**: one for each routed channel, if it is announced at all. -/
theorem mem_messagesOf (h : Coherent as) {a : Arrival} (ha : a ∈ as) {m : Message} :
    m ∈ store.messagesOf a ↔ (a.event.state ≠ .firing ∨ a.opens = true) ∧
      ∃ c, store.policy.Routed a.event c ∧ messageFor a.event a.alert store.templates c = m := by
  obtain ⟨before, hc, hb⟩ := coherent_before h ha
  have hann := announces_iff hc hb
  unfold ServerEventStore.messagesOf ServerEventStore.messagesFor
  split
  · rename_i hyes
    simp only [List.mem_map, PolicyCatalog.mem_channelsFor, hann.mp hyes, true_and]
  · rename_i hno
    simp only [List.not_mem_nil, hann.not.mp hno, false_and]

/-- Every row is the message of one arrival. -/
theorem History.arrival_of_row (h : History store as db) {r : NotificationRow}
    (hr : r ∈ db.notifications.rows) : ∃ a ∈ as, r.toMessage ∈ store.messagesOf a := by
  have hm : r.toMessage ∈ db.notifications.messages := NotificationTable.mem_messages.mpr ⟨r, hr, rfl⟩
  rw [h.messages] at hm
  exact List.mem_flatMap.mp hm

/-- Every message of an arrival has a row. -/
theorem History.row_of_message (h : History store as db) {a : Arrival} (ha : a ∈ as)
    {m : Message} (hm : m ∈ store.messagesOf a) : ∃ r ∈ db.notifications.rows, r.toMessage = m := by
  rw [← NotificationTable.mem_messages, h.messages]
  exact List.mem_flatMap.mpr ⟨a, ha, hm⟩

end Messages

/-! ## 1. Rows stay -/

section Stay

variable (store : ServerEventStore)

theorem fixed_perform (db : Db) (op : Op) :
    db.notifications.rows.map NotificationRow.fixed <+:
      (op.perform store db).2.notifications.rows.map NotificationRow.fixed := by
  rcases perform_cases store db op with ⟨call, events, _, _, _, _, hperf⟩ | ⟨p, f, hf, _, hdb⟩
  · rw [hperf]
    exact NotificationTable.fixed_insertAll db.notifications _ _
  · rw [hdb]
    have hsame := NotificationTable.fixed_updateWhere db.notifications p f hf
    exact ⟨[], by rw [List.append_nil]; exact hsame.symm⟩

/-- **Ids and messages of a run begin those of every longer run.** -/
theorem fixed_performAll (db : Db) (ops : List Op) :
    db.notifications.rows.map NotificationRow.fixed <+:
      (performAll store db ops).notifications.rows.map NotificationRow.fixed := by
  induction ops generalizing db with
  | nil => exact List.prefix_refl _
  | cons op ops ih => exact (fixed_perform store db op).trans (ih _)

theorem row_stays (db : Db) (ops : List Op) {r : NotificationRow}
    (hr : r ∈ db.notifications.rows) :
    ∃ r' ∈ (performAll store db ops).notifications.rows,
      r'.id = r.id ∧ r'.toMessage = r.toMessage := by
  have hm : r.fixed ∈ (performAll store db ops).notifications.rows.map NotificationRow.fixed :=
    (fixed_performAll store db ops).subset (List.mem_map_of_mem hr)
  obtain ⟨r', hr', e⟩ := List.mem_map.mp hm
  obtain ⟨hid, hmsg⟩ := Prod.mk.inj e
  exact ⟨r', hr', hid, hmsg⟩

/-- A claimed job says what its row says. -/
theorem message_of_claimed {db : Db} {op : Op} {job : NotificationJob}
    (h : (op.perform store db).1 = .ok (.claimed (some job))) :
    ∃ r ∈ db.notifications.rows, r.id = job.id ∧
      r.toMessage = ⟨job.eventId, job.fingerprint, job.channel, job.payload⟩ := by
  cases op with
  | accept call =>
    rw [perform_accept] at h
    revert h
    cases (Transaction.transact (store.accept call) db).1 <;> nofun
  | complete id now =>
    rw [Op.perform, Op.txn, Transaction.transact_mapAnswer, transact_complete] at h
    cases h
  | fail id update =>
    rw [Op.perform, Op.txn, Transaction.transact_mapAnswer] at h
    cases hn : update.nextAttemptAt with
    | none => rw [transact_fail_none db hn] at h; cases h
    | some next => rw [transact_fail_some db hn] at h; cases h
  | claim now maxAttempts =>
    rw [Op.perform, Op.txn, Transaction.transact_mapAnswer] at h
    cases hd : db.firstDue maxAttempts now with
    | none => rw [transact_claim_none db hd] at h; cases h
    | some row =>
      rw [transact_claim_some db hd] at h
      cases h
      exact ⟨row, List.mem_of_find?_eq_some hd, rfl, rfl⟩

end Stay

/-! ## 2. The table after a run -/

/-- **The notifications table after any run** of `accept`, claim, complete and fail, in any
    order. Every routed channel of an arrival that is not a repeated Firing event has exactly one
    row; a Firing event that arrived while its fingerprint was Firing adds no row at all, so none
    for a channel that has one of the episode; every row belongs to a routed channel of an
    arrival and holds the text rendered when it arrived; no event has two rows for one channel;
    every row is there after every longer run, with its message; and every claim hands out the
    message of its row. -/
theorem notifications_of_run (store : ServerEventStore) (ops : List Op) :
    let db := performAll store .empty ops
    let as := arrivals store ops
    (∀ a ∈ as, ∀ c, store.policy.Routed a.event c →
      (a.event.state ≠ .firing ∨ a.wasFiring = false) →
      ∃! r, r ∈ db.notifications.rows ∧ r.eventId = a.event.eventId ∧ r.channel = c) ∧
    (∀ a ∈ as, a.event.state = .firing → a.wasFiring = true →
      ∀ r ∈ db.notifications.rows, r.eventId ≠ a.event.eventId) ∧
    (∀ r ∈ db.notifications.rows, ∃ a ∈ as, r.eventId = a.event.eventId ∧
      store.policy.Routed a.event r.channel ∧ r.fingerprint = a.event.fingerprint ∧
      r.payload = renderEvent a.event a.alert store.templates) ∧
    (db.notifications.rows.map fun r => (r.eventId, r.channel)).Nodup ∧
    (∀ more, ∀ r ∈ db.notifications.rows,
      ∃ r' ∈ (performAll store .empty (ops ++ more)).notifications.rows,
        r'.id = r.id ∧ r'.toMessage = r.toMessage) ∧
    (∀ s ∈ trace store .empty ops, ∀ job, s.answer = .ok (.claimed (some job)) →
      ∃ r ∈ s.before.notifications.rows, r.id = job.id ∧
        r.toMessage = ⟨job.eventId, job.fingerprint, job.channel, job.payload⟩) := by
  intro db as
  have hist : History store as db := history_run store ops
  refine ⟨?_, ?_, ?_, NotificationTable.keys_nodup _, ?_, ?_⟩
  · intro a ha c hc hann
    have hopens : a.event.state ≠ .firing ∨ a.opens = true := by
      rcases hann with h | h
      · exact Or.inl h
      · by_cases hs : a.event.state = .firing
        · exact Or.inr (by simp [Arrival.opens, hs, h])
        · exact Or.inl hs
    obtain ⟨r, hr, hm⟩ := hist.row_of_message ha
      ((mem_messagesOf hist.coherent ha).mpr ⟨hopens, c, hc, rfl⟩)
    have hid : r.eventId = a.event.eventId := congrArg Message.eventId hm
    have hch : r.channel = c := congrArg Message.channel hm
    refine ⟨r, ⟨hr, hid, hch⟩, ?_⟩
    rintro s ⟨hs, hid', hch'⟩
    exact NotificationTable.eq_of_key hs hr (hid'.trans hid.symm) (hch'.trans hch.symm)
  · intro a ha hs hw r hr e
    obtain ⟨b, hb, hm⟩ := hist.arrival_of_row hr
    have hab : b = a := hist.eq_of_id hb ha ((eventId_of_mem_messagesOf hm).symm.trans e)
    rw [hab] at hm
    rcases ((mem_messagesOf hist.coherent ha).mp hm).1 with h | h
    · exact h hs
    · simp [Arrival.opens, hw] at h
  · intro r hr
    obtain ⟨a, ha, hm⟩ := hist.arrival_of_row hr
    obtain ⟨_, c, hc, e⟩ := (mem_messagesOf hist.coherent ha).mp hm
    have hch : r.channel = c := (congrArg Message.channel e).symm
    exact ⟨a, ha, (congrArg Message.eventId e).symm, hch ▸ hc,
      (congrArg Message.fingerprint e).symm, (congrArg Message.payload e).symm⟩
  · intro more r hr
    rw [performAll_append]
    exact row_stays store db more hr
  · intro s hs job hj
    obtain ⟨pre, op, _, _, rfl⟩ := mem_trace hs
    exact message_of_claimed store hj

end Beacon
