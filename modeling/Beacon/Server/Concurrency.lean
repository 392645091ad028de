/-
  File:      Beacon/Server/Concurrency.lean
  Subject:   Calls of the store interleaved statement by statement.

  Any number of `accept`, claim, complete and fail calls run at once on the store of
  Foundation/Snapshot.lean: a deferred transaction reads the snapshot of its first read, there is
  one writer, and a write on an outdated snapshot is refused. The texts that are interleaved are
  the ones `Op.perform` runs alone, so serializability (`Snapshot.serial_run`) speaks about the
  sequential runs of History.lean.

  * `replay_eq_performAll` -- a replay of committed calls is a sequential run;
  * `id_taken_once` -- in a sequential run an event id is newly accepted once;
  * `concurrent_calls_serial` -- **every interleaving is serial**.
-/
import Beacon.Foundation.Snapshot
import Beacon.Server.History

namespace Beacon

open Foundation

variable [Formats]

section Sequential

variable {store : ServerEventStore}

theorem replay_eq_performAll {ι : Type} (ops : ι → Op) (db : Db) (log : List ι) :
    Snapshot.replay (fun i => (ops i).txn store) db log = performAll store db (log.map ops) := by
  unfold Snapshot.replay performAll
  rw [List.foldl_map]
  rfl

/-- A call that newly accepts is an `accept`; it finds its id unknown and leaves it known. -/
theorem taken_by_perform {db : Db} {op : Op} {alert : AlertRecord}
    (h : (op.perform store db).1 = .ok (.accepted ⟨false, alert⟩)) :
    ∃ call, op = .accept call ∧ db.events.get? call.event.eventId = none ∧
      (op.perform store db).2.events.get? call.event.eventId ≠ none := by
  rcases perform_cases store db op with ⟨call, events, hop, _, hid, hr, hperf⟩ | ⟨_, _, _, ha, _⟩
  · refine ⟨call, hop, hid, fun hnone => ?_⟩
    rw [hperf] at hnone
    have hnone' : events.get? call.event.eventId = none := hnone
    rw [Table.get?_eq_none, hr] at hnone'
    exact hnone' call.row (List.mem_append_right _ (List.mem_singleton_self _)) rfl
  · rw [h] at ha
    cases ha

/-- A known id stays known. -/
theorem known_perform {db : Db} {id : String} (op : Op) (h : db.events.get? id ≠ none) :
    (op.perform store db).2.events.get? id ≠ none := by
  rcases perform_cases store db op with ⟨call, events, _, _, _, hr, hperf⟩ | ⟨p, f, hf, _, hdb⟩
  · rw [hperf]
    intro hnone
    have hnone' : events.get? id = none := hnone
    refine h (Table.get?_eq_none.mpr fun r hrow => ?_)
    rw [Table.get?_eq_none, hr] at hnone'
    exact hnone' r (List.mem_append_left _ hrow)
  · rw [hdb]
    exact h

theorem known_performAll {db : Db} {id : String} (ops : List Op)
    (h : db.events.get? id ≠ none) : (performAll store db ops).events.get? id ≠ none := by
  induction ops generalizing db with
  | nil => exact h
  | cons op ops ih => exact ih (known_perform op h)

/-- **An id is newly accepted once.** Of two calls with one event id at two places of a
    sequential run, the later one is not new. -/
theorem id_taken_once {db : Db} {before between : List Op} {c d : AcceptCall}
    {a b : AlertRecord} (hid : c.event.eventId = d.event.eventId)
    (hc : ((Op.accept c).perform store (performAll store db before)).1 = .ok (.accepted ⟨false, a⟩)) :
    ((Op.accept d).perform store
      (performAll store db (before ++ Op.accept c :: between))).1 ≠ .ok (.accepted ⟨false, b⟩) := by
  intro hd
  obtain ⟨c', hc', _, hknown⟩ := taken_by_perform hc
  obtain ⟨d', hd', hnone, _⟩ := taken_by_perform hd
  cases hc'
  cases hd'
  rw [performAll_append, ← hid] at hnone
  exact known_performAll between hknown hnone

end Sequential

section Concurrent

variable {ι : Type} {store : ServerEventStore} {ops : ι → Op} {db : Db}
  {st : Snapshot.State ι Db StoreError Answer}

/-- A call that published nothing newly accepted nothing. -/
theorem placed_new (hs : Snapshot.Serial (fun i => (ops i).txn store) db st) {i : ι} {v : Nat}
    {alert : AlertRecord} (hi : st.calls i = .done v (.ok (.accepted ⟨false, alert⟩))) :
    st.log[v]? = some i ∧
      ((ops i).perform store (performAll store db ((st.log.take v).map ops))).1 =
        .ok (.accepted ⟨false, alert⟩) := by
  rcases hs.answered i v _ hi with ⟨hv, h⟩ | ⟨_, _, h⟩
  · rw [replay_eq_performAll] at h
    exact ⟨hv, h⟩
  · rw [replay_eq_performAll] at h
    have hperf : (ops i).perform store (performAll store db ((st.log.take v).map ops)) = _ := h
    obtain ⟨call, _, hnone, hknown⟩ := taken_by_perform (congrArg Prod.fst hperf)
    rw [hperf] at hknown
    exact absurd hnone hknown

/-- Two calls at two places of the log do not both newly accept one id. -/
theorem not_both_new (hs : Snapshot.Serial (fun i => (ops i).txn store) db st) {i j : ι}
    {v w : Nat} {c d : AcceptCall} {a b : AlertRecord} (hvw : v < w) (hi : ops i = .accept c)
    (hj : ops j = .accept d) (hid : c.event.eventId = d.event.eventId)
    (hci : st.calls i = .done v (.ok (.accepted ⟨false, a⟩)))
    (hcj : st.calls j = .done w (.ok (.accepted ⟨false, b⟩))) : False := by
  obtain ⟨hv, hpi⟩ := placed_new hs hci
  obtain ⟨_, hpj⟩ := placed_new hs hcj
  rw [hi] at hpi
  rw [hj] at hpj
  -- the log up to `w` is the log up to `v`, the call `i`, and something more
  have hsplit : st.log.take w = st.log.take v ++ i :: (st.log.take w).drop (v + 1) := by
    have hv' : (st.log.take w)[v]? = some i := by
      rw [List.getElem?_take_of_lt hvw, hv]
    obtain ⟨hlt, hget⟩ := List.getElem?_eq_some_iff.mp hv'
    have htake : (st.log.take w).take v = st.log.take v := by
      rw [List.take_take, Nat.min_eq_left (Nat.le_of_lt hvw)]
    calc st.log.take w
        = (st.log.take w).take v ++ (st.log.take w).drop v := (List.take_append_drop _ _).symm
      _ = st.log.take v ++ i :: (st.log.take w).drop (v + 1) := by
        rw [htake, List.drop_eq_getElem_cons hlt, hget]
  rw [hsplit, List.map_append, List.map_cons, hi] at hpj
  exact id_taken_once hid hpi hpj

end Concurrent

/-- **Every interleaving of calls is serial.** For any family of calls on any tables, interleaved
    statement by statement in any way, some of them failed by the store at any statement:
    the tables are those of the committed calls made one after the other in commit order; a call
    that ended in an error is not among them; two `accept` calls of one event id do not both
    answer duplicate=false; and the answer of every call is the one it gets alone, at its own
    place in that order, or, if it published nothing, on the version it read, which it leaves
    as it is. -/
theorem concurrent_calls_serial {ι : Type} [DecidableEq ι] (store : ServerEventStore)
    (ops : ι → Op) (db : Db) (as : List (Snapshot.Action ι)) :
    let st := (Snapshot.machine (fun i => (ops i).txn store) db).run as
    (st.latest = performAll store db (st.log.map ops) ∧ st.log.Nodup) ∧
    (∀ i v e, st.calls i = .done v (.error e) → i ∉ st.log) ∧
    (∀ i j v w c d a b, i ≠ j → ops i = .accept c → ops j = .accept d →
      c.event.eventId = d.event.eventId →
      st.calls i = .done v (.ok (.accepted ⟨false, a⟩)) →
      st.calls j ≠ .done w (.ok (.accepted ⟨false, b⟩))) ∧
    (∀ i v a, st.calls i = .done v (.ok a) →
      let read := performAll store db ((st.log.take v).map ops)
      (st.log[v]? = some i ∧ ((ops i).perform store read).1 = .ok a) ∨
      (i ∉ st.log ∧ v ≤ st.log.length ∧ (ops i).perform store read = (.ok a, read))) ∧
    (∀ i v alert, st.calls i = .done v (.ok (.accepted ⟨false, alert⟩)) → st.log[v]? = some i) := by
  intro st
  have hs : Snapshot.Serial (fun i => (ops i).txn store) db st := Snapshot.serial_run _ db as
  refine ⟨⟨?_, hs.once⟩, hs.failed, ?_, ?_, fun i v alert hi => (placed_new hs hi).1⟩
  · rw [hs.store, replay_eq_performAll]
  · intro i j v w c d a b hij hi hj hid hci hcj
    rcases Nat.lt_trichotomy v w with hvw | rfl | hwv
    · exact not_both_new hs hvw hi hj hid hci hcj
    · have h1 := (placed_new hs hci).1
      rw [(placed_new hs hcj).1] at h1
      exact hij (Option.some.inj h1).symm
    · exact not_both_new hs hwv hj hi hid.symm hcj hci
  · intro i v a hi read
    have hp := hs.answered i v a hi
    unfold Snapshot.Placed at hp
    rw [replay_eq_performAll] at hp
    exact hp

end Beacon
