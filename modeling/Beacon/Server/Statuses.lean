/-
  File:      Beacon/Server/Statuses.lean
  Subject:   The status of an alert and the order of its events.

  The status is settled by the states of the newly accepted events, one after the other: a Firing
  or Resolved event sets it, an Info event sets it unless it is Firing. So it depends on the order
  of arrival, and on nothing else of the events.

  * `sameEnd_iff` -- **two orders of the same states** leave the same status exactly when they end
    the same;
  * `statusOf_calls` -- the status after calls of `accept` with distinct ids.
-/
import Beacon.Server.History

namespace Beacon

open Foundation

/-! ## 1. The status after a list of states -/

/-- What an event does to the status of its alert. -/
def settle (status : Option AlertStatus) (state : EventState) : Option AlertStatus :=
  if state = .info ∧ status = some .firing then some .firing else some state.status

/-- The last state that is not Info. -/
def lastChange (states : List EventState) : Option EventState :=
  (states.filter fun s => s ≠ .info).getLast?

/-- The last state that is not Info is Firing in both lists or in none, and then the last states
    are the same. -/
def SameEnd (l l' : List EventState) : Prop :=
  (lastChange l = some .firing ↔ lastChange l' = some .firing) ∧
    (lastChange l ≠ some .firing → l.getLast? = l'.getLast?)

instance (l l' : List EventState) : Decidable (SameEnd l l') :=
  inferInstanceAs (Decidable (_ ∧ _))

section Statuses

variable {p : Option AlertStatus} {l l' : List EventState}

theorem EventState.status_injective {s t : EventState} (h : s.status = t.status) : s = t := by
  cases s <;> cases t <;> first | rfl | cases h

theorem settle_eq_firing {s : EventState} :
    settle p s = some .firing ↔ s = .firing ∨ (s = .info ∧ p = some .firing) := by
  cases s <;> simp [settle, EventState.status]

theorem lastChange_snoc (l : List EventState) (s : EventState) :
    lastChange (l ++ [s]) = if s = .info then lastChange l else some s := by
  unfold lastChange
  rw [List.filter_append]
  by_cases hs : s = .info
  · simp [hs]
  · simp [hs]

theorem foldl_settle_eq_firing : l.foldl settle p = some .firing ↔
    lastChange l = some .firing ∨ (lastChange l = none ∧ p = some .firing) := by
  induction l using List.reverseRecOn with
  | nil => simp [lastChange]
  | append_singleton l s ih =>
    rw [List.foldl_append, List.foldl_cons, List.foldl_nil, settle_eq_firing, ih, lastChange_snoc]
    cases s <;> simp

/-- A status that is not Firing is that of the last state. -/
theorem foldl_settle_last (hl : l ≠ []) (h : l.foldl settle p ≠ some .firing) :
    l.foldl settle p = l.getLast?.map EventState.status := by
  obtain ⟨init, s, rfl⟩ := (List.eq_nil_or_concat' l).resolve_left hl
  rw [List.foldl_append, List.foldl_cons, List.foldl_nil] at h ⊢
  rw [List.getLast?_concat, settle]
  split
  · rename_i hs
    rw [settle, if_pos hs] at h
    exact absurd rfl h
  · rfl

theorem lastChange_eq_none : lastChange l = none ↔ ∀ s ∈ l, s = .info := by
  unfold lastChange
  rw [List.getLast?_eq_none_iff, List.filter_eq_nil_iff]
  simp

theorem getLast?_of_unchanged (hl : l ≠ []) (h : lastChange l = none) : l.getLast? = some .info := by
  obtain ⟨init, s, rfl⟩ := (List.eq_nil_or_concat' l).resolve_left hl
  rw [List.getLast?_concat, lastChange_eq_none.mp h s (List.mem_append_right _ List.mem_cons_self)]

/-- **Two orders of the same states** leave the same status just when they end the same. -/
theorem sameEnd_iff (hperm : l.Perm l') : l.foldl settle p = l'.foldl settle p ↔ SameEnd l l' := by
  have hnone : lastChange l = none ↔ lastChange l' = none := by
    rw [lastChange_eq_none, lastChange_eq_none]
    exact ⟨fun h s hs => h s (hperm.mem_iff.mpr hs), fun h s hs => h s (hperm.mem_iff.mp hs)⟩
  have hnil : l = [] ↔ l' = [] := ⟨fun h => (h ▸ hperm).nil_eq.symm, fun h => (h ▸ hperm).eq_nil⟩
  have hfiring := foldl_settle_eq_firing (p := p) (l := l)
  have hfiring' := foldl_settle_eq_firing (p := p) (l := l')
  have hends : (l.foldl settle p = some .firing ↔ l'.foldl settle p = some .firing) ↔
      (lastChange l = some .firing ↔ lastChange l' = some .firing) := by
    rw [hfiring, hfiring', ← hnone]
    by_cases hn : lastChange l = none
    · simp [hn, hnone.mp hn]
    · simp [hn]
  constructor
  · intro heq
    refine ⟨hends.mp (by rw [heq]), fun hlast => ?_⟩
    by_cases hl : l = []
    · rw [hl, hnil.mp hl]
    have hl' : l' ≠ [] := fun h => hl (hnil.mpr h)
    by_cases hn : lastChange l = none
    · rw [getLast?_of_unchanged hl hn, getLast?_of_unchanged hl' (hnone.mp hn)]
    · have hnot : l.foldl settle p ≠ some .firing := by
        rw [Ne, hfiring]
        simp [hlast, hn]
      have hlasts : l.getLast?.map EventState.status = l'.getLast?.map EventState.status := by
        rw [← foldl_settle_last hl hnot, heq, foldl_settle_last hl' (heq ▸ hnot)]
      exact Option.map_injective (fun _ _ => EventState.status_injective) hlasts
  · rintro ⟨hlasts, hsame⟩
    have hboth := hends.mpr hlasts
    by_cases hf : l.foldl settle p = some .firing
    · rw [hf, hboth.mp hf]
    by_cases hl : l = []
    · rw [hl, hnil.mp hl]
    have hl' : l' ≠ [] := fun h => hl (hnil.mpr h)
    have hlast : lastChange l ≠ some .firing := fun h => hf (hfiring.mpr (.inl h))
    rw [foldl_settle_last hl hf, foldl_settle_last hl' fun h => hf (hboth.mpr h), hsame hlast]

end Statuses

/-! ## 2. The server -/

section Server

variable [Formats] {store : ServerEventStore} {as : List Arrival} {db : Db} {f : String}

/-- The status of the alert of a fingerprint. -/
def Db.statusOf (db : Db) (f : String) : Option AlertStatus :=
  (db.alerts.get? f).map AlertRecord.status

omit [Formats] in
/-- An alert's status settles by the states that arrive. -/
theorem statusOf_settle {bs : List Arrival} (h : Coherent (as ++ bs))
    (hf : ∀ b ∈ bs, b.event.fingerprint = f) :
    (alertOf f (as ++ bs)).map AlertRecord.status =
      (bs.map fun b => b.event.state).foldl settle ((alertOf f as).map AlertRecord.status) := by
  induction bs using List.reverseRecOn with
  | nil => rw [List.append_nil]; rfl
  | append_singleton bs b ih =>
    rw [← List.append_assoc] at h ⊢
    obtain ⟨hinit, hbefore⟩ := coherent_snoc.mp h
    have hb : b.event.fingerprint = f := hf b (List.mem_append_right _ List.mem_cons_self)
    rw [hb] at hbefore
    have hfiring : b.wasFiring = true ↔
        (alertOf f (as ++ bs)).map AlertRecord.status = some .firing := by
      rw [Arrival.wasFiring, hbefore]
      cases alertOf f (as ++ bs) with
      | none => simp
      | some old => simp
    rw [alertOf_snoc, if_pos hb, List.map_append, List.foldl_append,
      ← ih hinit fun b' hb' => hf b' (List.mem_append_left _ hb')]
    show some b.alert.status = settle _ b.event.state
    simp only [status_alert, settle, hfiring]
    split <;> rfl

omit [Formats] in
/-- The events of a list that the server does not know yet. -/
def Db.unknown (db : Db) (es : List Event) : List Event :=
  es.filter fun e => (db.events.get? e.eventId).isNone

omit [Formats] in
/-- The states of the unknown events are read off the members before the facts. -/
theorem unknown_states {es es' : List Event} (h : es.map Event.head = es'.map Event.head) :
    (db.unknown es).map Event.state = (db.unknown es').map Event.state := by
  induction es generalizing es' with
  | nil =>
    rw [List.map_nil] at h
    rw [List.map_eq_nil_iff.mp h.symm]
  | cons e es ih =>
    obtain ⟨e', es', rfl⟩ : ∃ e' l, es' = e' :: l :=
      List.exists_cons_of_ne_nil fun hnil => by rw [hnil] at h; cases h
    obtain ⟨hhead, htail⟩ := List.cons.inj h
    obtain ⟨hid, hstate, _⟩ := Event.same_of_head hhead
    have hrest := ih htail
    unfold Db.unknown at hrest ⊢
    rw [List.filter_cons, List.filter_cons, hid]
    split
    · rw [List.map_cons, List.map_cons, hstate, hrest]
    · exact hrest

/-- **The status after events of one fingerprint** is settled by those the server did not know. -/
theorem statusOf_calls (h : History store as db) (calls : List AcceptCall)
    (hv : ∀ c ∈ calls, c.event.Valid) (hn : (calls.map fun c => c.event.eventId).Nodup)
    (hf : ∀ c ∈ calls, c.event.fingerprint = f) :
    (performAll store db (calls.map .accept)).statusOf f =
      ((db.unknown (calls.map AcceptCall.event)).map Event.state).foldl settle (db.statusOf f) := by
  obtain ⟨bs, hbs, hmap⟩ := history_calls h calls hv hn
  have hfs : ∀ b ∈ bs, b.event.fingerprint = f := by
    intro b hb
    have hmem : b.event ∈ bs.map Arrival.event := List.mem_map_of_mem hb
    rw [hmap] at hmem
    obtain ⟨c, hc, he⟩ := List.mem_map.mp (List.mem_filter.mp hmem).1
    rw [← he]
    exact hf c hc
  unfold Db.statusOf Db.unknown
  rw [hbs.alerts, h.alerts, statusOf_settle hbs.coherent hfs, ← hmap, List.map_map]
  rfl

end Server

end Beacon
