/-
  File:      Beacon/Agent/Order.lean
  Subject:   The order in which a drain delivers, and the status it leaves.

  `list` sorts the files of the spool by name, a name is an event id, and an id is random. So a
  drain delivers the events of a spool in an order that has nothing to do with the order they
  were enqueued in, while the status of an alert depends on the order of arrival.

  * `list_enqueued` -- a spool lists what was enqueued, in the order of the file names;
  * `drain_calls` -- a drain that delivers everything makes one call of `accept` for each event;
  * `drain_delivers` -- a drain to a server that is up delivers everything;
  * `drain_status_iff` -- **exactly when** a drain leaves the status of the enqueue order.
-/
import Beacon.Agent.Drain
import Beacon.Server.Statuses

namespace Beacon

open Foundation

/-! ## 1. The spool -/

namespace Spool

section Order

variable [Formats] [Codec] {es : List Event} {d d' : Directory}

omit [Formats] in
/-- The file of an event. -/
def file (e : Event) : File := ⟨fileName e.eventId, fileText e⟩

omit [Formats] [Codec] in
/-- The events in the order of their file names. -/
def byName (es : List Event) : List Event :=
  es.insertionSort fun a b => fileName a.eventId ≤ fileName b.eventId

/-- Events enqueued one after the other are valid, have distinct ids, and add their files. -/
theorem enqueueAll_ok (h : (Prog.forEach enqueue es).run d = .ok ((), d')) :
    (∀ e ∈ es, e.Valid ∧ d.get? (fileName e.eventId) = none) ∧ (es.map Event.eventId).Nodup ∧
      ∀ n f, d'.get? n = some f ↔
        d.get? n = some f ∨ ∃ e ∈ es, n = fileName e.eventId ∧ f = file e := by
  induction es generalizing d with
  | nil =>
    cases h
    exact ⟨fun _ he => absurd he List.not_mem_nil, List.nodup_nil, by simp⟩
  | cons e es ih =>
    rw [Prog.run_forEach_cons] at h
    cases h₁ : (enqueue e).run d with
    | error err => rw [h₁] at h; cases h
    | ok r =>
      obtain ⟨⟨⟩, d₁⟩ := r
      rw [h₁] at h
      obtain ⟨hv, hfresh, hget⟩ := run_enqueue h₁
      obtain ⟨hrest, hnodup, hmem⟩ := ih h
      have hother : ∀ e' ∈ es, fileName e'.eventId ≠ fileName e.eventId ∧
          d.get? (fileName e'.eventId) = none := by
        intro e' he'
        have hnone := (hrest e' he').2
        rw [hget] at hnone
        split at hnone
        · cases hnone
        · exact ⟨‹_›, hnone⟩
      refine ⟨fun e' he' => ?_, List.nodup_cons.mpr ⟨fun hin => ?_, hnodup⟩, fun n f => ?_⟩
      · rcases List.mem_cons.mp he' with rfl | he'
        · exact ⟨hv, hfresh⟩
        · exact ⟨(hrest e' he').1, (hother e' he').2⟩
      · obtain ⟨e', he', hid⟩ := List.mem_map.mp hin
        exact (hother e' he').1 (congrArg fileName hid)
      · rw [hmem, hget]
        by_cases hn : n = fileName e.eventId
        · subst hn
          simp only [if_true, hfresh, List.mem_cons, exists_eq_or_imp, true_and]
          constructor
          · rintro (hf | ⟨e', he', hname, rfl⟩)
            · cases hf
              exact .inr (.inl rfl)
            · exact absurd hname.symm (hother e' he').1
          · rintro (hf | rfl | ⟨e', he', hname, rfl⟩)
            · cases hf
            · exact .inl rfl
            · exact absurd hname.symm (hother e' he').1
        · rw [if_neg hn]
          simp only [List.mem_cons, exists_eq_or_imp, hn, false_and, false_or]

/-- **The files of what was enqueued**, in the order of their names. -/
theorem paths_enqueued (h : (Prog.forEach enqueue es).run .empty = .ok ((), d)) :
    paths d = (byName es).map file := by
  obtain ⟨hv, hnodup, hmem⟩ := enqueueAll_ok h
  have hnodup' : (es.map file).Nodup := by
    have hnames := hnodup.map (f := fileName) fun _ _ => fileName_injective
    rw [List.map_map] at hnames
    refine List.Nodup.of_map File.name ?_
    rw [List.map_map]
    exact hnames
  have hperm : (paths d).Perm (es.map file) := by
    refine (List.perm_ext_iff_of_nodup (paths_nodup d).of_map hnodup').mpr fun f => ?_
    rw [mem_paths]
    constructor
    · rintro ⟨hf, _⟩
      rcases (hmem _ _).mp (Table.get?_of_mem hf) with hold | ⟨e, he, _, rfl⟩
      · cases hold
      · exact List.mem_map_of_mem he
    · intro hf
      obtain ⟨e, he, rfl⟩ := List.mem_map.mp hf
      exact ⟨Table.mem_of_get? ((hmem _ _).mpr (.inr ⟨e, he, rfl, rfl⟩)),
        extension_fileName (Event.eventId_ne (hv e he).1)⟩
  have hsorted : (paths d).Pairwise fun a b : File => a.name ≤ b.name := by
    unfold paths
    exact pairwise_sortBy File.name _
  have hsorted' : ((byName es).map file).Pairwise fun a b : File => a.name ≤ b.name := by
    refine List.pairwise_map.mpr ?_
    unfold byName
    exact pairwise_sortBy (fun e : Event => fileName e.eventId) es
  exact eq_of_sortedBy File.name (paths_nodup d)
    (hperm.trans ((List.perm_insertionSort _ es).map file).symm) hsorted hsorted'

/-- Valid events with distinct ids are enqueued where none of their files is there. -/
theorem enqueueAll_of_fresh (hv : ∀ e ∈ es, e.Valid) (hn : (es.map Event.eventId).Nodup)
    (hf : ∀ e ∈ es, d.get? (fileName e.eventId) = none ∧ d.get? (temporaryName e.eventId) = none) :
    ∃ d', (Prog.forEach enqueue es).run d = .ok ((), d') := by
  induction es generalizing d with
  | nil => exact ⟨d, rfl⟩
  | cons e es ih =>
    obtain ⟨hnew, hn⟩ := List.nodup_cons.mp hn
    obtain ⟨hfile, htemporary⟩ := hf e List.mem_cons_self
    obtain ⟨d₁, h₁⟩ := enqueue_of_fresh (hv e List.mem_cons_self) hfile htemporary
    obtain ⟨_, _, hget⟩ := run_enqueue h₁
    have hrest : ∀ e' ∈ es, d₁.get? (fileName e'.eventId) = none ∧
        d₁.get? (temporaryName e'.eventId) = none := by
      intro e' he'
      have hid : e'.eventId ≠ e.eventId := fun hid => hnew (List.mem_map.mpr ⟨e', he', hid⟩)
      obtain ⟨hf', ht'⟩ := hf e' (List.mem_cons_of_mem _ he')
      rw [hget, hget, if_neg fun h => hid (fileName_injective h),
        if_neg fun h => fileName_ne_temporaryName e.eventId e'.eventId h.symm]
      exact ⟨hf', ht'⟩
    obtain ⟨d', hd'⟩ := ih (fun e' he' => hv e' (List.mem_cons_of_mem _ he')) hn hrest
    refine ⟨d', ?_⟩
    rw [Prog.run_forEach_cons, h₁]
    exact hd'

/-- **A spool lists what was enqueued**, up to the facts, in the order of the file names. -/
theorem list_enqueued {listed : List Event}
    (h : (Prog.forEach enqueue es).run .empty = .ok ((), d)) (hl : list d = .ok listed) :
    listed.map Event.head = (byName es).map Event.head := by
  unfold list at hl
  rw [paths_enqueued h, List.mapM_map] at hl
  refine map_of_mapM (fun e _ e' he => ?_) hl
  exact Codec.fromReader_head e e' (read_ok he).1

theorem mem_list_enqueued {listed : List Event} {e' : Event}
    (h : (Prog.forEach enqueue es).run .empty = .ok ((), d)) (hl : list d = .ok listed)
    (he : e' ∈ listed) : ∃ e ∈ es, Codec.fromReader (fileText e) = some e' := by
  obtain ⟨f, hf, hread⟩ := mem_of_mapM hl he
  rw [paths_enqueued h] at hf
  obtain ⟨e, hmem, rfl⟩ := List.mem_map.mp hf
  exact ⟨e, (List.mem_insertionSort _).mp hmem, (read_ok hread).1⟩

end Order

end Spool

/-! ## 2. A drain that delivers everything -/

theorem map_of_map {α β γ δ : Type} {l : List α} {l' : List β} {f : α → γ} {g : β → γ}
    {f' : α → δ} {g' : β → δ} (h : l.map f = l'.map g) (himp : ∀ a b, f a = g b → f' a = g' b) :
    l.map f' = l'.map g' := by
  rw [← List.forall₂_eq_eq_eq, List.forall₂_map_left_iff, List.forall₂_map_right_iff] at h ⊢
  exact h.imp fun a b => himp a b

section Delivery

variable [Formats] [Codec] {store : ServerEventStore} {env : Event → Handling} {event : Event}
  {db : Db}

/-- A network that loses and delays nothing. -/
def serverPost (store : ServerEventStore) (env : Event → Handling) (event : Event) (db : Db) :
    Option Response × Db :=
  (some (respond store (env event) event db).1, (respond store (env event) event db).2)

/-- A refused event leaves the tables as they are. -/
theorem respond_refused {h : Handling} (hr : (respond store h event db).1.isSuccess = false) :
    (respond store h event db).2 = db := by
  unfold respond at hr ⊢
  split
  · rfl
  · rename_i received he
    rw [he] at hr
    exact unchanged_of_refusal hr

/-- An event that is delivered was delivered by one call of `accept`. -/
theorem deliver_call {n : Nat}
    (h : (deliverWithRetry (serverPost store env) event n db).1 = .ok ()) :
    ∃ call : AcceptCall, call.event.head = event.head ∧ call.event.Valid ∧
      (deliverWithRetry (serverPost store env) event n db).2 =
        ((Op.accept call).perform store db).2 := by
  have hone : (submitEvent (serverPost store env) event db).1 = .ok () →
      ∃ call : AcceptCall, call.event.head = event.head ∧ call.event.Valid ∧
        (submitEvent (serverPost store env) event db).2 = ((Op.accept call).perform store db).2 := by
    intro hs
    have hsuccess := submitResult_ok.mp hs
    show ∃ call : AcceptCall, _ ∧ _ ∧ (respond store (env event) event db).2 = _
    unfold respond at hsuccess ⊢
    cases he : Codec.postJson event with
    | none =>
      rw [he] at hsuccess
      cases hsuccess
    | some received =>
      rw [he] at hsuccess
      obtain ⟨hv, hcall, _⟩ := committed_of_success hsuccess
      exact ⟨(env event).call received, Codec.postJson_head event received he, hv, hcall⟩
  induction n with
  | zero => cases h
  | succ n ih =>
    cases n with
    | zero => exact hone h
    | succ n =>
      unfold deliverWithRetry at h ⊢
      generalize hs : submitEvent (serverPost store env) event db = o at h hone ⊢
      obtain ⟨m | ⟨⟩, db'⟩ := o
      · -- a refused attempt changed nothing, so the next one is the same
        have hsame : db' = db := by
          have hfail : (respond store (env event) event db).1.isSuccess = false := by
            refine Bool.eq_false_iff.mpr fun hyes => ?_
            have hfirst := (congrArg Prod.fst hs).symm.trans (submitResult_ok.mpr hyes)
            cases hfirst
          rw [← respond_refused hfail]
          exact (congrArg Prod.snd hs).symm
        rw [hsame] at h ⊢
        exact ih h
      · exact hone rfl

/-- A loop that delivers everything makes one call of `accept` for each event. -/
theorem drainLoop_calls {m k k' : Nat} {events : List Event} {d : Directory}
    (h : (drainLoop (serverPost store env) m events k d db).1 = .ok k') :
    ∃ calls : List AcceptCall, (calls.map fun c => c.event.head) = events.map Event.head ∧
      (∀ c ∈ calls, c.event.Valid) ∧
      (drainLoop (serverPost store env) m events k d db).2.2 =
        performAll store db (calls.map .accept) := by
  induction events generalizing k d db with
  | nil => exact ⟨[], rfl, fun _ hc => absurd hc List.not_mem_nil, rfl⟩
  | cons event rest ih =>
    have hone : (deliverWithRetry (serverPost store env) event m db).1 = .ok () → _ := deliver_call
    unfold drainLoop at h ⊢
    generalize deliverWithRetry (serverPost store env) event m db = o at h hone ⊢
    obtain ⟨message | ⟨⟩, db'⟩ := o
    · cases h
    · obtain ⟨call, hhead, hv, hdb⟩ := hone rfl
      cases hd : Spool.remove d event with
      | none =>
        simp only [hd] at h
        cases h
      | some d' =>
        simp only [hd] at h ⊢
        obtain ⟨calls, hheads, hvs, hrun⟩ := ih h
        refine ⟨call :: calls, ?_, fun c hc => ?_, ?_⟩
        · rw [List.map_cons, List.map_cons, hhead, hheads]
        · rcases List.mem_cons.mp hc with rfl | hc
          · exact hv
          · exact hvs c hc
        · rw [hrun, show db' = _ from hdb]
          rfl

/-- **A drain that delivers a whole spool** makes one call of `accept` for each event, in the
    order of the file names. -/
theorem drain_calls {config : AgentConfig} {es : List Event} {d : Directory} {k : Nat}
    (hq : (Prog.forEach Spool.enqueue es).run .empty = .ok ((), d))
    (hlimit : es.length ≤ config.limit)
    (hok : (drain (serverPost store env) config d db).1 = .ok k) :
    ∃ calls : List AcceptCall,
      (calls.map fun c => c.event.head) = (Spool.byName es).map Event.head ∧
      (∀ c ∈ calls, c.event.Valid) ∧
      (drain (serverPost store env) config d db).2.2 = performAll store db (calls.map .accept) := by
  unfold drain at hok ⊢
  split at hok
  · cases hok
  · split at hok
    · cases hok
    · split at hok
      · cases hok
      · split at hok
        · cases hok
        · rename_i hblank hattempts _ hclient _ listed hl
          have hheads := Spool.list_enqueued hq hl
          have htake : listed.take config.limit = listed := by
            refine List.take_of_length_le ?_
            have hlength := congrArg List.length hheads
            rw [List.length_map, List.length_map, Spool.byName, List.length_insertionSort] at hlength
            omega
          rw [htake] at hok
          obtain ⟨calls, hcalls, hv, hrun⟩ := drainLoop_calls hok
          refine ⟨calls, hcalls.trans hheads, hv, ?_⟩
          rw [if_neg hblank, if_neg hattempts]
          simp only [htake]
          exact hrun

end Delivery

/-! ## 3. A server that is up -/

section Up

variable [Formats] [Codec] {store : ServerEventStore} {env : Event → Handling} {db : Db}

omit [Formats] [Codec] in
theorem deliverWithRetry_first {σ : Type} {post : Event → σ → Option Response × σ} {event : Event}
    {s : σ} (h : (submitEvent post event s).1 = .ok ()) (n : Nat) :
    deliverWithRetry post event (n + 1) s = (.ok (), (submitEvent post event s).2) := by
  have hpair : submitEvent post event s = (.ok (), (submitEvent post event s).2) := Prod.ext h rfl
  cases n with
  | zero => exact hpair
  | succ n =>
    unfold deliverWithRetry
    rw [hpair]

/-- The credential of every request is good, and the database serves every call. -/
def Up (env : Event → Handling) : Prop := ∀ e, (env e).authorized = true ∧ (env e).fault = none

variable (store) in
/-- An event that the server does not know is delivered. -/
theorem submit_new (hup : Up env) {event received : Event}
    (hr : Codec.postJson event = some received) (hv : received.Valid)
    (hid : db.events.get? event.eventId = none) :
    (submitEvent (serverPost store env) event db).1 = .ok () ∧
      ∀ id, event.eventId ≠ id →
        (submitEvent (serverPost store env) event db).2.events.get? id = db.events.get? id := by
  have hsame : received.eventId = event.eventId :=
    (Event.same_of_head (Codec.postJson_head event received hr)).1
  have hrespond : respond store (env event) event db =
      acceptEvent store (env event) received db := by
    unfold respond
    rw [hr]
  have hyes : (acceptEvent store (env event) received db).1.isSuccess = true :=
    accepted_of_fresh (hup event).1 (hup event).2 hv (by rw [hsame]; exact hid)
  have hsubmit : (submitEvent (serverPost store env) event db).2 =
      (acceptEvent store (env event) received db).2 := congrArg Prod.snd hrespond
  refine ⟨submitResult_ok.mpr (by rw [hrespond]; exact hyes), fun id hne => ?_⟩
  rw [hsubmit, (committed_of_success hyes).2.1]
  exact get?_event_accept store db (by rw [← hsame] at hne; exact hne)

/-- The loop delivers events that the server does not know and can decode. -/
theorem drainLoop_delivers (hup : Up env) {m k : Nat} {events : List Event} {d : Directory}
    (hn : (events.map Event.eventId).Nodup)
    (hfiles : ∀ e ∈ events, ∃ f, d.get? (Spool.fileName e.eventId) = some f)
    (hpost : ∀ e ∈ events, ∃ received, Codec.postJson e = some received ∧ received.Valid)
    (hnew : ∀ e ∈ events, db.events.get? e.eventId = none) :
    (drainLoop (serverPost store env) (m + 1) events k d db).1 = .ok (k + events.length) := by
  induction events generalizing k d db with
  | nil => rfl
  | cons e rest ih =>
    obtain ⟨hother, hn⟩ := List.nodup_cons.mp hn
    have hid : ∀ e' ∈ rest, e.eventId ≠ e'.eventId := fun e' he' hid =>
      hother (List.mem_map.mpr ⟨e', he', hid.symm⟩)
    obtain ⟨received, hr, hv⟩ := hpost e List.mem_cons_self
    obtain ⟨hok, hkeep⟩ := submit_new store hup hr hv (hnew e List.mem_cons_self)
    obtain ⟨f, hf⟩ := hfiles e List.mem_cons_self
    have hremove : Spool.remove d e = some (d.remove (Spool.fileName e.eventId)) := by
      unfold Spool.remove Directory.unlink
      rw [hf]
      rfl
    unfold drainLoop
    rw [deliverWithRetry_first hok m]
    simp only [hremove]
    rw [ih hn (fun e' he' => ?_) (fun e' he' => hpost e' (List.mem_cons_of_mem _ he'))
      (fun e' he' => ?_), List.length_cons]
    · congr 1
      omega
    · rw [Table.get?_remove, if_neg fun h => hid e' he' (Spool.fileName_injective h).symm]
      exact hfiles e' (List.mem_cons_of_mem _ he')
    · rw [hkeep _ (hid e' he')]
      exact hnew e' (List.mem_cons_of_mem _ he')

/-- **A server that is up receives the whole spool**: the files of the events decode, the server
    decodes what is posted, and knows none of the ids. -/
theorem drain_delivers (hup : Up env) {config : AgentConfig} {es : List Event} {d : Directory}
    (htoken : Text.isBlank config.token = false) (hattempts : config.maxAttempts ≠ 0)
    (hclient : config.client = .ok ()) (hlimit : es.length ≤ config.limit)
    (hq : (Prog.forEach Spool.enqueue es).run .empty = .ok ((), d))
    (hread : ∀ e ∈ es, ∃ e', Codec.fromReader (Spool.fileText e) = some e' ∧ e'.Valid ∧
      ∃ received, Codec.postJson e' = some received ∧ received.Valid)
    (hnew : ∀ e ∈ es, db.events.get? e.eventId = none) :
    (drain (serverPost store env) config d db).1 = .ok es.length := by
  have hperm : (Spool.byName es).Perm es := List.perm_insertionSort _ _
  obtain ⟨_, hnodup, hmem⟩ := Spool.enqueueAll_ok hq
  -- the list is there, and is made of the events that the files decode to
  obtain ⟨listed, hl⟩ : ∃ listed, Spool.list d = .ok listed := by
    unfold Spool.list
    rw [Spool.paths_enqueued hq]
    refine Spool.mapM_of_forall fun f hf => ?_
    obtain ⟨e, he, rfl⟩ := List.mem_map.mp hf
    obtain ⟨e', hdecode, hv, _⟩ := hread e (hperm.mem_iff.mp he)
    have hv' : e'.validate = .ok () := hv
    refine ⟨e', ?_⟩
    simp only [Spool.read, Spool.file, hdecode, hv']
  have hheads := Spool.list_enqueued hq hl
  have hids : listed.map Event.eventId = (Spool.byName es).map Event.eventId :=
    map_of_map hheads fun _ _ h => (Event.same_of_head h).1
  have horigin : ∀ e' ∈ listed, ∃ e ∈ es, e'.eventId = e.eventId ∧
      ∃ received, Codec.postJson e' = some received ∧ received.Valid := by
    intro e' he'
    obtain ⟨e, he, hdecode⟩ := Spool.mem_list_enqueued hq hl he'
    obtain ⟨e'', hdecode', _, hpost⟩ := hread e he
    rw [hdecode] at hdecode'
    cases hdecode'
    exact ⟨e, he, (Event.same_of_head (Codec.fromReader_head e e' hdecode)).1, hpost⟩
  have hlength : listed.length = es.length := by
    have hl := congrArg List.length hheads
    rwa [List.length_map, List.length_map, hperm.length_eq] at hl
  obtain ⟨m, hm⟩ := Nat.exists_eq_succ_of_ne_zero hattempts
  unfold drain
  rw [htoken, if_neg hattempts, hclient, hl, hm]
  simp only [Bool.false_eq_true, if_false]
  rw [List.take_of_length_le (by omega)]
  refine (drainLoop_delivers hup (by rw [hids]; exact (hperm.map _).nodup_iff.mpr hnodup)
    (fun e' he' => ?_) (fun e' he' => ?_) (fun e' he' => ?_)).trans (by rw [hlength, Nat.zero_add])
  · obtain ⟨e, he, hid, _⟩ := horigin e' he'
    rw [hid]
    exact ⟨_, (hmem _ _).mpr (.inr ⟨e, he, rfl, rfl⟩)⟩
  · obtain ⟨_, _, _, hpost⟩ := horigin e' he'
    exact hpost
  · obtain ⟨e, he, hid, _⟩ := horigin e' he'
    rw [hid]
    exact hnew e he

end Up

/-! ## 4. The status a drain leaves -/

/-- **What a drain leaves**: the states of the events that the server did not know, in the order
    of the file names; while accepting the events one after the other leaves these states in the
    order of the events. -/
theorem drain_status [Formats] [Codec] (store : ServerEventStore) (ops : List Op)
    {env : Event → Handling} {config : AgentConfig} {f : String} {es : List Event} {d : Directory}
    {k : Nat} (hf : ∀ e ∈ es, e.fingerprint = f)
    (hq : (Prog.forEach Spool.enqueue es).run .empty = .ok ((), d))
    (hlimit : es.length ≤ config.limit)
    (hok : (drain (serverPost store env) config d (performAll store .empty ops)).1 = .ok k) :
    let db := performAll store .empty ops
    (drain (serverPost store env) config d db).2.2.statusOf f =
        ((db.unknown (Spool.byName es)).map Event.state).foldl settle (db.statusOf f) ∧
      (performAll store db (es.map fun e => .accept ((env e).call e))).statusOf f =
        ((db.unknown es).map Event.state).foldl settle (db.statusOf f) := by
  intro db
  have hist : History store (arrivals store ops) db := history_run store ops
  have hperm : (Spool.byName es).Perm es := List.perm_insertionSort _ _
  obtain ⟨hes, hnodup, _⟩ := Spool.enqueueAll_ok hq
  obtain ⟨calls, hheads, hv, hrun⟩ := drain_calls hq hlimit hok
  constructor
  · -- the calls of the drain are of those events, up to the facts
    have hids : (calls.map fun c => c.event.eventId) = (Spool.byName es).map Event.eventId :=
      map_of_map hheads fun _ _ h => (Event.same_of_head h).1
    have hfs : ∀ c ∈ calls, c.event.fingerprint = f := by
      have hmap : (calls.map fun c => c.event.fingerprint) =
          (Spool.byName es).map Event.fingerprint :=
        map_of_map hheads fun _ _ h => (Event.same_of_head h).2.2
      intro c hc
      have hmem := List.mem_map_of_mem (f := fun c : AcceptCall => c.event.fingerprint) hc
      rw [hmap] at hmem
      obtain ⟨e, he, hfe⟩ := List.mem_map.mp hmem
      rw [← hfe]
      exact hf e (hperm.mem_iff.mp he)
    have hstates : (db.unknown (calls.map AcceptCall.event)).map Event.state =
        (db.unknown (Spool.byName es)).map Event.state :=
      unknown_states (by rw [List.map_map]; exact hheads)
    have hn : (calls.map fun c => c.event.eventId).Nodup := by
      rw [hids]
      exact (hperm.map _).nodup_iff.mpr hnodup
    rw [hrun, statusOf_calls hist calls hv hn hfs, hstates]
  · have hcalls := statusOf_calls hist (es.map fun e => (env e).call e) (f := f)
      (List.forall_mem_map.mpr fun e he => (hes e he).1)
      (by rw [List.map_map]; exact hnodup) (List.forall_mem_map.mpr hf)
    have hsame : (es.map fun e => (env e).call e).map AcceptCall.event = es := by
      rw [List.map_map]
      exact List.map_id es
    rw [hsame, List.map_map] at hcalls
    exact hcalls

/-- **When a drain leaves the status of the enqueue order.** Events of one fingerprint are
    enqueued in an empty spool and drained, with a limit that admits them all and a server, with
    any tables, that accepts every request. The status of the alert is then that of accepting
    them in the order they were enqueued in exactly when the states of the events that the server
    did not know end the same in this order and in the order of the file names. -/
theorem drain_status_iff [Formats] [Codec] (store : ServerEventStore) (ops : List Op)
    (env : Event → Handling) (config : AgentConfig) (f : String) (es : List Event) (d : Directory)
    (k : Nat) (hf : ∀ e ∈ es, e.fingerprint = f)
    (hq : (Prog.forEach Spool.enqueue es).run .empty = .ok ((), d))
    (hlimit : es.length ≤ config.limit)
    (hok : (drain (serverPost store env) config d (performAll store .empty ops)).1 = .ok k) :
    let db := performAll store .empty ops
    (drain (serverPost store env) config d db).2.2.statusOf f =
        (performAll store db (es.map fun e => .accept ((env e).call e))).statusOf f ↔
      SameEnd ((db.unknown (Spool.byName es)).map Event.state) ((db.unknown es).map Event.state) := by
  intro db
  obtain ⟨hdrained, hordered⟩ := drain_status store ops hf hq hlimit hok
  rw [hdrained, hordered]
  have hperm : (Spool.byName es).Perm es := List.perm_insertionSort _ _
  exact sameEnd_iff ((hperm.filter _).map _)

/-! ## 5. Sample drains -/

namespace Sample

def agent : AgentConfig := { token := "token", client := .ok (), limit := 2, maxAttempts := 3 }

def prompt (_ : Event) : Handling := ⟨true, none, ⟨1767225720000000000⟩, ⟨1767225720000000000⟩⟩

/-- A firing event and its resolved event, the ids in the order of the times, and not. -/
def straight : List Event := [firingFirst, resolvedSecond]
def crossed : List Event := [firingSecond, resolvedFirst]

/-- Known events are enqueued and drained. -/
theorem drain_known (es : List Event) (hk : ∀ e ∈ es, e ∈ known)
    (hn : (es.map Event.eventId).Nodup) (hlimit : es.length ≤ 2) :
    let _ := formats
    let _ := codec
    ∃ d, (Prog.forEach Spool.enqueue es).run .empty = .ok ((), d) ∧
      (drain (serverPost silentStore prompt) agent d Db.empty).1 = .ok es.length := by
  intro _ _
  have hvalid : ∀ e ∈ es, e.Valid := fun e he => valid_known e (hk e he)
  obtain ⟨d, hd⟩ := Spool.enqueueAll_of_fresh (d := .empty) hvalid hn fun _ _ => ⟨rfl, rfl⟩
  refine ⟨d, hd, drain_delivers (fun _ => ⟨rfl, rfl⟩) (by decide) (by decide) rfl hlimit hd
    (fun e he => ?_) fun _ _ => rfl⟩
  exact ⟨e, fromReader_known (hk e he), hvalid e he, e, rfl, hvalid e he⟩

end Sample

/-- The theorem where the ids have the order of the times. -/
theorem drain_status_iff_straight :
    let _ := Sample.formats
    let _ := Sample.codec
    ∃ d, (Prog.forEach Spool.enqueue Sample.straight).run .empty = .ok ((), d) ∧
      (drain (serverPost Sample.silentStore Sample.prompt) Sample.agent d Db.empty).2.2.statusOf
          "backup/restic/age" =
        (performAll Sample.silentStore .empty (Sample.straight.map fun e =>
          .accept ((Sample.prompt e).call e))).statusOf "backup/restic/age" := by
  intro _ _
  obtain ⟨d, hd, hok⟩ := Sample.drain_known Sample.straight
    (by simp [Sample.straight, Sample.known]) (by decide) (by decide)
  exact ⟨d, hd, (drain_status_iff Sample.silentStore [] Sample.prompt Sample.agent
    "backup/restic/age" Sample.straight d 2 (by decide) hd (by decide) hok).mpr (by decide)⟩

/-- **A firing event stays Firing after its resolved event**: the id of the resolved event comes
    first, so a drain delivers it first. -/
theorem firing_after_resolved :
    let _ := Sample.formats
    let _ := Sample.codec
    (Sample.crossed.map Event.occurredAt).Pairwise (· < ·) ∧
    ∃ d, (Prog.forEach Spool.enqueue Sample.crossed).run .empty = .ok ((), d) ∧
      (drain (serverPost Sample.silentStore Sample.prompt) Sample.agent d Db.empty).1 = .ok 2 ∧
      (drain (serverPost Sample.silentStore Sample.prompt) Sample.agent d Db.empty).2.2.statusOf
        "backup/restic/age" = some .firing ∧
      (performAll Sample.silentStore .empty (Sample.crossed.map fun e =>
        .accept ((Sample.prompt e).call e))).statusOf "backup/restic/age" = some .resolved := by
  intro _ _
  obtain ⟨d, hd, hok⟩ := Sample.drain_known Sample.crossed
    (by simp [Sample.crossed, Sample.known]) (by decide) (by decide)
  obtain ⟨hdrained, hordered⟩ := drain_status Sample.silentStore [] (f := "backup/restic/age")
    (by decide) hd (by decide) hok
  exact ⟨by decide, d, hd, hok, hdrained.trans (by decide), hordered.trans (by decide)⟩

end Beacon
