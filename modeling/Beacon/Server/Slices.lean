/-
  File:      Beacon/Server/Slices.lean
  Subject:   Calls about different fingerprints, in whatever order they come.

  Agents know nothing of each other, and what one of them sends comes between the requests of the
  others as it happens. What the store has and answers about a fingerprint is decided by the calls
  about this fingerprint alone, in the order among themselves; the others could as well not have
  been made, as long as no event id is used for two fingerprints.

  * `History.slice_eq` -- a history and the history of one fingerprint in it;
  * `arrivals_slice` -- **the arrivals of a fingerprint are those of its own calls**;
  * `interleaving_of_runs` -- **runs that agree on each fingerprint** leave and answer the same.
-/
import Beacon.Server.Chronicle
import Beacon.Server.LastSeen

namespace Beacon

open Foundation

/-! ## 1. One fingerprint -/

/-- The call is about the fingerprint. -/
def Op.about (f : String) : Op → Bool
  | .accept call => call.event.fingerprint = f
  | _ => false

/-- No event id is used for two fingerprints. -/
def OneFingerprint (ops : List Op) : Prop :=
  ∀ c c', .accept c ∈ ops → .accept c' ∈ ops → c.event.eventId = c'.event.eventId →
    c.event.fingerprint = c'.event.fingerprint

/-- What the tables have about a fingerprint. -/
@[ext] structure Slice where
  events : List EventRow
  alert : Option AlertRecord
  messages : List Message
  deriving DecidableEq

def Db.slice (db : Db) (f : String) : Slice where
  events := db.events.rows.filter fun row => row.fingerprint = f
  alert := db.alerts.get? f
  messages := db.notifications.messages.filter fun m => m.fingerprint = f

section Histories

variable {store : ServerEventStore} {as : List Arrival} {db db' : Db} {f : String}

theorem fingerprint_of_mem_messagesOf {a : Arrival} {m : Message} (h : m ∈ store.messagesOf a) :
    m.fingerprint = a.event.fingerprint := by
  unfold ServerEventStore.messagesOf ServerEventStore.messagesFor at h
  split at h
  · obtain ⟨c, _, rfl⟩ := List.mem_map.mp h
    rfl
  · cases h

/-- The messages about a fingerprint are those of its own arrivals. -/
theorem filter_messagesOf (as : List Arrival) :
    (as.flatMap store.messagesOf).filter (fun m => m.fingerprint = f) =
      (ofFingerprint f as).flatMap store.messagesOf := by
  induction as with
  | nil => rfl
  | cons a as ih =>
    rw [List.flatMap_cons, List.filter_append, ih]
    by_cases hf : a.event.fingerprint = f
    · have hown : ofFingerprint f (a :: as) = a :: ofFingerprint f as :=
        List.filter_cons_of_pos (decide_eq_true hf)
      have hall : (store.messagesOf a).filter (fun m => m.fingerprint = f) = store.messagesOf a :=
        List.filter_eq_self.mpr fun m hm =>
          decide_eq_true ((fingerprint_of_mem_messagesOf hm).trans hf)
      rw [hall, hown, List.flatMap_cons]
    · have hother : ofFingerprint f (a :: as) = ofFingerprint f as :=
        List.filter_cons_of_neg (by simpa using hf)
      have hnone : (store.messagesOf a).filter (fun m => m.fingerprint = f) = [] :=
        List.filter_eq_nil_iff.mpr fun m hm h =>
          hf ((fingerprint_of_mem_messagesOf hm).symm.trans (of_decide_eq_true h))
      rw [hnone, hother, List.nil_append]

variable [Formats]

/-- **A history and the history of one fingerprint in it** have the same about the fingerprint. -/
theorem History.slice_eq (h : History store as db) (h' : History store (ofFingerprint f as) db') :
    db.slice f = db'.slice f := by
  have hidem := ofFingerprint_idem f as
  refine Slice.ext ?_ ?_ ?_
  · show db.events.rows.filter _ = db'.events.rows.filter _
    have hrows : ∀ bs : List Arrival, (bs.map fun a => a.call.row).filter
        (fun row => row.fingerprint = f) = (ofFingerprint f bs).map fun a => a.call.row := by
      intro bs
      rw [List.filter_map]
      rfl
    rw [h.events, h'.events, hrows, hrows, hidem]
  · show db.alerts.get? f = db'.alerts.get? f
    rw [h.alerts, h'.alerts, alertOf_ofFingerprint]
  · show db.notifications.messages.filter _ = db'.notifications.messages.filter _
    rw [h.messages, h'.messages, filter_messagesOf, filter_messagesOf, hidem]

/-- The row of an event id, where its events are all of one fingerprint. -/
theorem History.get?_slice (h : History store as db) (h' : History store (ofFingerprint f as) db')
    {id : String} (hone : ∀ a ∈ as, a.event.eventId = id → a.event.fingerprint = f) :
    db.events.get? id = db'.events.get? id := by
  refine Option.ext fun row => ?_
  rw [h.get?_event, h'.get?_event]
  refine exists_congr fun a => ?_
  constructor
  · rintro ⟨ha, hid, hrow⟩
    exact ⟨List.mem_filter.mpr ⟨ha, decide_eq_true (hone a ha hid)⟩, hid, hrow⟩
  · rintro ⟨ha, hid, hrow⟩
    exact ⟨mem_of_mem_ofFingerprint ha, hid, hrow⟩

/-- A call answers the same on tables that have the same under its id and its fingerprint. -/
theorem answer_congr (call : AcceptCall)
    (hevents : db.events.get? call.event.eventId = db'.events.get? call.event.eventId)
    (halerts : db.alerts.get? call.event.fingerprint = db'.alerts.get? call.event.fingerprint) :
    call.answer db = call.answer db' := by
  unfold AcceptCall.answer Db.alertAfter
  rw [hevents, halerts]

end Histories

/-! ## 2. Runs -/

section Runs

variable [Formats] {store : ServerEventStore} {ops ops' : List Op} {op : Op} {f : String}

theorem arrival?_stepOf (db : Db) (call : AcceptCall) :
    (stepOf store db (.accept call)).arrival? =
      if tookEvent (stepOf store db (.accept call)).answer then
        some ⟨call, db.alerts.get? call.event.fingerprint⟩ else none := by
  unfold Step.arrival?
  cases tookEvent (stepOf store db (.accept call)).answer <;> rfl

/-- What arrives was called for. -/
theorem mem_of_arrival {a : Arrival} (h : a ∈ arrivals store ops) : .accept a.call ∈ ops := by
  obtain ⟨s, hs, ha⟩ := List.mem_filterMap.mp h
  obtain ⟨pre, op, post, rfl, rfl⟩ := mem_trace hs
  obtain ⟨call, rfl, rfl⟩ := call_of_arrival ha
  exact List.mem_append_right _ List.mem_cons_self

omit [Formats] in
theorem OneFingerprint.init {more : List Op} (h : OneFingerprint (ops ++ more)) :
    OneFingerprint ops :=
  fun c c' hc hc' => h c c' (List.mem_append_left _ hc) (List.mem_append_left _ hc')

/-- **One call about the fingerprint**: it answers the same, and the same arrives, on the tables of
    the whole run and of the fingerprint's own calls. -/
theorem step_slice {db : Db} {call : AcceptCall} (hone : OneFingerprint (ops ++ [.accept call]))
    (hf : call.event.fingerprint = f)
    (hown : History store (ofFingerprint f (arrivals store ops)) db) :
    (stepOf store (performAll store .empty ops) (.accept call)).answer =
        (stepOf store db (.accept call)).answer ∧
      (stepOf store (performAll store .empty ops) (.accept call)).arrival? =
        (stepOf store db (.accept call)).arrival? := by
  have hwhole := history_run store ops
  have hevents := hwhole.get?_slice hown fun a ha hid =>
    (hone a.call call (List.mem_append_left _ (mem_of_arrival ha))
      (List.mem_append_right _ List.mem_cons_self) hid).trans hf
  have halerts : (performAll store .empty ops).alerts.get? call.event.fingerprint =
      db.alerts.get? call.event.fingerprint := by
    rw [hf]
    exact congrArg Slice.alert (hwhole.slice_eq hown)
  have hanswer : (stepOf store (performAll store .empty ops) (.accept call)).answer =
      (stepOf store db (.accept call)).answer := by
    show ((Op.accept call).perform store _).1 = ((Op.accept call).perform store _).1
    rw [answer_accept, answer_accept, answer_congr call hevents halerts]
  exact ⟨hanswer, by rw [arrival?_stepOf, arrival?_stepOf, hanswer, halerts]⟩

/-- **The arrivals of a fingerprint are those of its own calls.** -/
theorem arrivals_slice (hone : OneFingerprint ops) :
    arrivals store (ops.filter (Op.about f)) = ofFingerprint f (arrivals store ops) := by
  induction ops using List.reverseRecOn with
  | nil => rfl
  | append_singleton ops op ih =>
    have hown := history_run store (ops.filter (Op.about f))
    have hbefore := ih hone.init
    rw [hbefore] at hown
    have hnew : ∀ a ∈ (stepOf store (performAll store .empty ops) op).arrival?.toList,
        op = .accept a.call := by
      intro a ha
      obtain ⟨call, hop, rfl⟩ := call_of_arrival (Option.mem_toList.mp ha)
      exact hop
    rw [List.filter_append, arrivals_snoc store ops op, ofFingerprint, List.filter_append]
    show _ = ofFingerprint f (arrivals store ops) ++ _
    cases habout : op.about f with
    | true =>
      cases op with
      | accept call =>
        have hf : call.event.fingerprint = f := of_decide_eq_true habout
        have hall : ∀ a ∈ (stepOf store (performAll store .empty ops) (.accept call)).arrival?.toList,
            decide (a.event.fingerprint = f) = true := by
          intro a ha
          cases hnew a ha
          exact habout
        obtain ⟨_, harrival⟩ := step_slice hone hf hown
        rw [List.filter_cons_of_pos habout, List.filter_nil, arrivals_snoc, hbefore, ← harrival,
          List.filter_eq_self.mpr hall]
      | claim now maxAttempts | complete id now | fail id update => cases habout
    | false =>
      have hnone : ∀ a ∈ (stepOf store (performAll store .empty ops) op).arrival?.toList,
          ¬ decide (a.event.fingerprint = f) = true := by
        intro a ha hf
        rw [hnew a ha] at habout
        exact Bool.noConfusion (hf.symm.trans habout)
      have hno : ¬ op.about f = true := by
        rw [habout]
        exact Bool.false_ne_true
      rw [List.filter_cons_of_neg hno, List.filter_nil, List.append_nil, hbefore,
        List.filter_eq_nil_iff.mpr hnone, List.append_nil]

/-- The answers to the calls about a fingerprint. -/
def answersAbout (store : ServerEventStore) (f : String) (ops : List Op) :
    List (Except (Fault StoreError) Answer) :=
  ((trace store .empty ops).filter fun s => s.op.about f).map Step.answer

/-- **The answers about a fingerprint are those to its own calls.** -/
theorem answers_slice (hone : OneFingerprint ops) :
    answersAbout store f ops = (trace store .empty (ops.filter (Op.about f))).map Step.answer := by
  induction ops using List.reverseRecOn with
  | nil => rfl
  | append_singleton ops op ih =>
    have hown := history_run store (ops.filter (Op.about f))
    rw [arrivals_slice hone.init] at hown
    have hsteps : ∀ before : List Op, trace store .empty (before ++ [op]) =
        trace store .empty before ++ [stepOf store (performAll store .empty before) op] :=
      fun before => trace_append store .empty before [op]
    rw [answersAbout, hsteps, List.filter_append, List.map_append]
    show answersAbout store f ops ++ _ = _
    rw [ih hone.init, List.filter_append]
    cases habout : op.about f with
    | true =>
      cases op with
      | accept call =>
        obtain ⟨hanswer, _⟩ := step_slice hone (of_decide_eq_true habout) hown
        have hkept : [stepOf store (performAll store .empty ops) (.accept call)].filter
            (fun s => s.op.about f) = [stepOf store (performAll store .empty ops) (.accept call)] :=
          List.filter_cons_of_pos habout
        rw [hkept, List.filter_cons_of_pos habout, List.filter_nil, hsteps, List.map_append,
          List.map_singleton, List.map_singleton, hanswer]
      | claim now maxAttempts | complete id now | fail id update => cases habout
    | false =>
      have hno : ¬ op.about f = true := by
        rw [habout]
        exact Bool.false_ne_true
      have hdropped : [stepOf store (performAll store .empty ops) op].filter
          (fun s => s.op.about f) = [] := List.filter_cons_of_neg hno
      rw [hdropped, List.filter_cons_of_neg hno, List.filter_nil, List.append_nil, List.map_nil,
        List.append_nil]

/-- What a run leaves about a fingerprint, its own calls alone leave. -/
theorem slice_run (hone : OneFingerprint ops) :
    (performAll store .empty ops).slice f =
      (performAll store .empty (ops.filter (Op.about f))).slice f := by
  have hown := history_run store (ops.filter (Op.about f))
  rw [arrivals_slice hone] at hown
  exact (history_run store ops).slice_eq hown

omit [Formats] in
/-- Runs with the same calls about each fingerprint have the same calls. -/
theorem OneFingerprint.of_same (hone : OneFingerprint ops)
    (h : ∀ f, ops.filter (Op.about f) = ops'.filter (Op.about f)) : OneFingerprint ops' := by
  have hmem : ∀ c, .accept c ∈ ops' → .accept c ∈ ops := by
    intro c hc
    have hown : Op.accept c ∈ ops'.filter (Op.about c.event.fingerprint) :=
      List.mem_filter.mpr ⟨hc, decide_eq_true rfl⟩
    rw [← h] at hown
    exact (List.mem_filter.mp hown).1
  exact fun c c' hc hc' => hone c c' (hmem c hc) (hmem c' hc')

/-- **Runs that agree on each fingerprint** leave and answer the same about each: let two runs make
    the same calls of `accept` about every fingerprint, in the same order as far as they are about
    one, and let them make calls about different fingerprints, claims and reports in whatever order.
    If no event id is used for two fingerprints, then about every fingerprint both leave the same
    events, the same alert and the same messages in the same order, and give the same answers. -/
theorem interleaving_of_runs (store : ServerEventStore) (ops ops' : List Op)
    (hone : OneFingerprint ops) (h : ∀ f, ops.filter (Op.about f) = ops'.filter (Op.about f)) :
    ∀ f, (performAll store .empty ops).slice f = (performAll store .empty ops').slice f ∧
      answersAbout store f ops = answersAbout store f ops' := by
  intro f
  have hone' := hone.of_same h
  rw [slice_run hone, slice_run hone', answers_slice hone, answers_slice hone', h f]
  exact ⟨rfl, rfl⟩

end Runs

namespace Sample

/-- Calls about two fingerprints. -/
def backupCall : Op := .accept (call (event id1 "2026-01-01T00:00:00Z" .firing .critical))

def diskCall : Op := .accept (call
  { event id2 "2026-01-01T00:01:00Z" .firing .warning with fingerprint := "disk/root/usage" })

end Sample

/-- The theorem at two calls in either order: the job ids are the other way round, and nothing
    else. -/
theorem interleaving_of_runs_swapped :
    let db := @performAll Sample.formats Sample.telegramStore .empty [Sample.backupCall, Sample.diskCall]
    let db' := @performAll Sample.formats Sample.telegramStore .empty
      [Sample.diskCall, Sample.backupCall]
    db.notifications.rows.map (fun r => (r.id, r.fingerprint)) ≠
        db'.notifications.rows.map (fun r => (r.id, r.fingerprint)) ∧
      ∀ f, db.slice f = db'.slice f := by
  intro db db'
  have hone : OneFingerprint [Sample.backupCall, Sample.diskCall] := by
    have hids : ∀ c, .accept c ∈ [Sample.backupCall, Sample.diskCall] →
        c.event.fingerprint = if c.event.eventId = Sample.id1 then "backup/restic/age"
          else "disk/root/usage" := by
      intro c hc
      rcases List.mem_pair.mp hc with e | e <;> cases e <;> rfl
    intro c c' hc hc' hid
    rw [hids c hc, hids c' hc', hid]
  have hsame : ∀ f, [Sample.backupCall, Sample.diskCall].filter (Op.about f) =
      [Sample.diskCall, Sample.backupCall].filter (Op.about f) := by
    intro f
    cases hbackup : Op.about f Sample.backupCall with
    | false => simp [List.filter_cons, hbackup]
    | true =>
      have hdisk : Op.about f Sample.diskCall = false := by
        rw [← of_decide_eq_true hbackup]
        decide
      simp [hbackup, hdisk]
  refine ⟨by decide +kernel, fun f => ?_⟩
  exact (@interleaving_of_runs Sample.formats Sample.telegramStore _ _ hone hsame f).1

end Beacon
