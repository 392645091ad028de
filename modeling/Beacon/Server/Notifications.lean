/-
  File:      Beacon/Server/Notifications.lean
  Subject:   The notifications table (`server.rs`).

  A row is one message for one channel together with its delivery state. The constraints of the
  schema are fields of the table: ids grow in insertion order and stay below the AUTOINCREMENT
  counter, which an ignored insert advances too, and no two rows have one event and one channel.
  The table changes in two ways only, an INSERT OR IGNORE of a fresh job and an UPDATE that keeps
  id and message of every row, so both keep the constraints by construction.

  * `NotificationTable.rows_updateWhere` and `NotificationTable.rows_insertOrIgnore` -- what the
    two changes do to the rows;
  * `NotificationTable.messages_updateWhere` -- no update changes a message.
-/
import Mathlib.Data.List.Nodup
import Beacon.Foundation.Rfc3339
import Beacon.Foundation.Table

namespace Beacon

open Foundation

/-! ## 1. Rows -/

inductive JobStatus where
  | pending
  | inFlight
  | sent
  | failed
  deriving DecidableEq, Repr

/-- The text of the `status` column. -/
def JobStatus.asStr : JobStatus → String
  | .pending => "pending"
  | .inFlight => "in_flight"
  | .sent => "sent"
  | .failed => "failed"

theorem JobStatus.asStr_injective {s t : JobStatus} (h : s.asStr = t.asStr) : s = t := by
  cases s <;> cases t <;> first | rfl | exact absurd h (by decide)

/-- What is to be delivered: the columns an insert fixes. -/
@[ext] structure Message where
  eventId : String
  fingerprint : String
  channel : String
  payload : String
  deriving DecidableEq, Repr

/-- A row of the table. -/
structure NotificationRow extends Message where
  id : Nat
  status : JobStatus
  attempts : Nat
  nextAttemptAt : String
  lastError : Option String
  retryable : Bool
  claimedAt : Option String
  sentAt : Option String
  deriving DecidableEq, Repr

/-- The columns of UNIQUE(event_id, channel). -/
def Message.key (m : Message) : String × String := (m.eventId, m.channel)

/-- The columns no update names. -/
def NotificationRow.fixed (r : NotificationRow) : Nat × Message := (r.id, r.toMessage)

/-! ## 2. The table -/

/-- The rows in id order and the last id given out. -/
structure NotificationTable where
  rows : List NotificationRow
  seq : Nat
  ids_sorted : (rows.map NotificationRow.fixed).Pairwise fun a b => a.1 < b.1
  ids_le : ∀ f ∈ rows.map NotificationRow.fixed, f.1 ≤ seq
  unique : ((rows.map NotificationRow.fixed).map fun f => f.2.key).Nodup

namespace NotificationTable

theorem ext_rows {t u : NotificationTable} (hr : t.rows = u.rows) (hs : t.seq = u.seq) : t = u := by
  cases t
  cases u
  subst hr hs
  rfl

instance : DecidableEq NotificationTable := fun t u =>
  decidable_of_iff (t.rows = u.rows ∧ t.seq = u.seq)
    ⟨fun h => ext_rows h.1 h.2, fun h => h ▸ ⟨rfl, rfl⟩⟩

def empty : NotificationTable := ⟨[], 0, List.Pairwise.nil, nofun, List.nodup_nil⟩

@[simp] theorem rows_empty : empty.rows = [] := rfl

/-- The messages, in id order. -/
def messages (t : NotificationTable) : List Message := t.rows.map (·.toMessage)

theorem messages_eq (t : NotificationTable) :
    t.messages = (t.rows.map NotificationRow.fixed).map Prod.snd := by
  rw [List.map_map]
  rfl

/-- The row with an id. -/
def get? (t : NotificationTable) (id : Nat) : Option NotificationRow := t.rows.find? (·.id = id)

/-- A job as INSERT writes it, the omitted columns at their defaults. -/
def newRow (id : Nat) (m : Message) (nextAttemptAt : String) : NotificationRow :=
  { m with
    id := id, status := .pending, attempts := 0, nextAttemptAt := nextAttemptAt,
    lastError := none, retryable := true, claimedAt := none, sentAt := none }

/-- `INSERT OR IGNORE`: a message whose event and channel have a row already is dropped, and the id
    it was given is not given again. -/
def insertOrIgnore (t : NotificationTable) (m : Message) (nextAttemptAt : String) :
    NotificationTable :=
  if h : m.key ∈ (t.rows.map NotificationRow.fixed).map fun f => f.2.key then
    { t with
      seq := t.seq + 1
      ids_le := fun f hf => Nat.le_succ_of_le (t.ids_le f hf) }
  else
    { rows := t.rows ++ [newRow (t.seq + 1) m nextAttemptAt]
      seq := t.seq + 1
      ids_sorted := by
        rw [List.map_append, List.pairwise_append]
        refine ⟨t.ids_sorted, List.pairwise_singleton _ _, fun a ha b hb => ?_⟩
        have hle := t.ids_le a ha
        have hb' : b = (t.seq + 1, m) := List.mem_singleton.mp hb
        rw [hb']
        exact Nat.lt_succ_of_le hle
      ids_le := by
        intro f hf
        rw [List.map_append, List.mem_append] at hf
        rcases hf with hf | hf
        · exact Nat.le_succ_of_le (t.ids_le f hf)
        · have hf' : f = (t.seq + 1, m) := List.mem_singleton.mp hf
          rw [hf']
      unique := by
        rw [List.map_append, List.map_append, List.nodup_append]
        refine ⟨t.unique, List.nodup_singleton _, fun a ha b hb e => h ?_⟩
        have hb' : b = m.key := List.mem_singleton.mp hb
        rw [← hb', ← e]
        exact ha }

/-- One `INSERT OR IGNORE` for each message. -/
def insertAll (t : NotificationTable) (ms : List Message) (nextAttemptAt : String) :
    NotificationTable := ms.foldl (fun t m => t.insertOrIgnore m nextAttemptAt) t

/-- `UPDATE .. WHERE p` with an assignment that names neither the id nor a message column. -/
def updateWhere (t : NotificationTable) (p : NotificationRow → Bool)
    (f : NotificationRow → NotificationRow) (hf : ∀ r, (f r).fixed = r.fixed) :
    NotificationTable :=
  have hfix : (t.rows.map fun r => if p r then f r else r).map NotificationRow.fixed =
      t.rows.map NotificationRow.fixed := by
    rw [List.map_map]
    refine List.map_congr_left fun r _ => ?_
    show (if p r then f r else r).fixed = r.fixed
    split
    · exact hf r
    · rfl
  { rows := t.rows.map fun r => if p r then f r else r
    seq := t.seq
    ids_sorted := by rw [hfix]; exact t.ids_sorted
    ids_le := by rw [hfix]; exact t.ids_le
    unique := by rw [hfix]; exact t.unique }

/-! ## 3. What the changes do -/

theorem rows_updateWhere (t : NotificationTable) (p : NotificationRow → Bool)
    (f : NotificationRow → NotificationRow) (hf : ∀ r, (f r).fixed = r.fixed) :
    (t.updateWhere p f hf).rows = t.rows.map fun r => if p r then f r else r := rfl

theorem rows_insertOrIgnore {t : NotificationTable} {m : Message} {at' : String}
    (h : m.key ∉ t.messages.map Message.key) :
    (t.insertOrIgnore m at').rows = t.rows ++ [newRow (t.seq + 1) m at'] := by
  unfold insertOrIgnore
  rw [dif_neg]
  rw [messages_eq, List.map_map] at h
  exact h

/-- A row is found by its id. -/
theorem get?_of_mem {t : NotificationTable} {r : NotificationRow} (h : r ∈ t.rows) :
    t.get? r.id = some r := by
  have hids : (t.rows.map (·.id)).Nodup := by
    have hs := t.ids_sorted
    rw [List.pairwise_map] at hs
    exact List.pairwise_map.mpr (hs.imp fun hlt => Nat.ne_of_lt hlt)
  exact Table.get?_of_mem (t := (⟨t.rows, hids⟩ : Table Nat NotificationRow (·.id))) h

theorem mem_messages {t : NotificationTable} {m : Message} :
    m ∈ t.messages ↔ ∃ r ∈ t.rows, r.toMessage = m := List.mem_map

/-- UNIQUE(event_id, channel). -/
theorem keys_nodup (t : NotificationTable) :
    (t.rows.map fun r => (r.eventId, r.channel)).Nodup := by
  have h := t.unique
  rw [List.map_map] at h
  exact h

theorem eq_of_key {t : NotificationTable} {r s : NotificationRow} (hr : r ∈ t.rows)
    (hs : s ∈ t.rows) (he : r.eventId = s.eventId) (hc : r.channel = s.channel) : r = s :=
  List.inj_on_of_nodup_map t.keys_nodup hr hs (Prod.ext he hc)

theorem get?_eq_some {t : NotificationTable} {id : Nat} {r : NotificationRow} :
    t.get? id = some r ↔ r ∈ t.rows ∧ r.id = id := by
  constructor
  · intro h
    exact ⟨List.mem_of_find?_eq_some h, by simpa using List.find?_some h⟩
  · rintro ⟨hr, rfl⟩
    exact get?_of_mem hr

/-- An update changes the rows it selects and finds every other row as it was. -/
theorem get?_updateWhere (t : NotificationTable) (p : NotificationRow → Bool)
    (f : NotificationRow → NotificationRow) (hf : ∀ r, (f r).fixed = r.fixed) (id : Nat) :
    (t.updateWhere p f hf).get? id = (t.get? id).map fun r => if p r then f r else r := by
  have hid : ∀ r : NotificationRow, (if p r then f r else r).id = r.id := by
    intro r
    split
    · exact congrArg Prod.fst (hf r)
    · rfl
  unfold get?
  rw [rows_updateWhere, List.find?_map]
  congr 1
  refine congrArg (fun q => t.rows.find? q) (funext fun r => ?_)
  simp only [Function.comp_apply, hid r]

/-- **No update changes a message.** -/
theorem messages_updateWhere (t : NotificationTable) (p : NotificationRow → Bool)
    (f : NotificationRow → NotificationRow) (hf : ∀ r, (f r).fixed = r.fixed) :
    (t.updateWhere p f hf).messages = t.messages := by
  unfold messages
  rw [rows_updateWhere, List.map_map]
  refine List.map_congr_left fun r _ => ?_
  show (if p r then f r else r).toMessage = r.toMessage
  split
  · exact congrArg Prod.snd (hf r)
  · rfl

theorem messages_insertOrIgnore {t : NotificationTable} {m : Message} {at' : String}
    (h : m.key ∉ t.messages.map Message.key) :
    (t.insertOrIgnore m at').messages = t.messages ++ [m] := by
  unfold messages
  rw [rows_insertOrIgnore h, List.map_append]
  rfl

/-- **Fresh messages are all inserted, in order.** -/
theorem messages_insertAll {t : NotificationTable} {ms : List Message} {at' : String}
    (hn : (ms.map Message.key).Nodup) (hf : ∀ m ∈ ms, m.key ∉ t.messages.map Message.key) :
    (t.insertAll ms at').messages = t.messages ++ ms := by
  induction ms generalizing t with
  | nil => rw [List.append_nil]; rfl
  | cons m ms ih =>
    rw [List.map_cons, List.nodup_cons] at hn
    have hm : (t.insertOrIgnore m at').messages = t.messages ++ [m] :=
      messages_insertOrIgnore (hf m List.mem_cons_self)
    have hrest : ((t.insertOrIgnore m at').insertAll ms at').messages = _ := ih hn.2 (by
      intro x hx
      rw [hm, List.map_append, List.map_singleton, List.mem_append, List.mem_singleton, not_or]
      refine ⟨hf x (List.mem_cons_of_mem _ hx), fun e => hn.1 ?_⟩
      rw [← e]
      exact List.mem_map_of_mem hx)
    rw [hm, List.append_assoc, List.singleton_append] at hrest
    exact hrest

theorem get?_append {t u : NotificationTable} {r : NotificationRow} (hr : u.rows = t.rows ++ [r])
    (id : Nat) : u.get? id = (t.get? id).or (if r.id = id then some r else none) := by
  unfold get?
  rw [hr, List.find?_append, List.find?_singleton]
  simp only [decide_eq_true_eq]

/-- Inserts change no row and add fresh jobs only. -/
theorem get?_insertAll (t : NotificationTable) (ms : List Message) (at' : String) (id : Nat) :
    (t.insertAll ms at').get? id = t.get? id ∨
      (t.get? id = none ∧ ∃ m, (t.insertAll ms at').get? id = some (newRow id m at')) := by
  induction ms generalizing t with
  | nil => exact .inl rfl
  | cons m ms ih =>
    have hone : (t.insertOrIgnore m at').get? id = t.get? id ∨
        (t.get? id = none ∧ (t.insertOrIgnore m at').get? id = some (newRow id m at')) := by
      unfold insertOrIgnore
      split
      · exact .inl rfl
      · rw [get?_append rfl]
        cases h : t.get? id with
        | some r => exact .inl rfl
        | none =>
          by_cases hid : t.seq + 1 = id
          · subst hid
            exact .inr ⟨rfl, if_pos rfl⟩
          · exact .inl (if_neg hid)
    have hrest : ((t.insertOrIgnore m at').insertAll ms at').get? id = _ ∨ _ := ih _
    rcases hone with hone | ⟨hnone, hnew⟩
    · rw [hone] at hrest
      exact hrest
    · refine .inr ⟨hnone, m, ?_⟩
      rcases hrest with hrest | ⟨habs, _⟩
      · exact hrest.trans hnew
      · rw [hnew] at habs
        cases habs

/-- Ids and messages of the rows stay as they are, whatever is inserted. -/
theorem fixed_insertAll (t : NotificationTable) (ms : List Message) (at' : String) :
    t.rows.map NotificationRow.fixed <+: (t.insertAll ms at').rows.map NotificationRow.fixed := by
  induction ms generalizing t with
  | nil => exact List.prefix_refl _
  | cons m ms ih =>
    have hone : t.rows.map NotificationRow.fixed <+:
        (t.insertOrIgnore m at').rows.map NotificationRow.fixed := by
      unfold insertOrIgnore
      split
      · exact List.prefix_refl _
      · rw [List.map_append]
        exact List.prefix_append _ _
    exact hone.trans (ih (t.insertOrIgnore m at'))

theorem fixed_updateWhere (t : NotificationTable) (p : NotificationRow → Bool)
    (f : NotificationRow → NotificationRow) (hf : ∀ r, (f r).fixed = r.fixed) :
    (t.updateWhere p f hf).rows.map NotificationRow.fixed = t.rows.map NotificationRow.fixed := by
  rw [rows_updateWhere, List.map_map]
  refine List.map_congr_left fun r _ => ?_
  show (if p r then f r else r).fixed = r.fixed
  split
  · exact hf r
  · rfl

end NotificationTable

end Beacon
