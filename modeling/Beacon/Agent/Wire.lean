/-
  File:      Beacon/Agent/Wire.lean
  Subject:   What arrives of an event that was offered to a spool.

  An event is printed twice on its way and read three times: `enqueue` prints it with blanks,
  `list` reads it, `submit_event` prints it without them, the server's extractor reads it and
  keeps the second text in its table. The reader is one and the same, so what a drain could read
  the server can read too. The numbers among the facts are the one thing that the reader may not
  give back as they were printed: `Event.Readable` says that it does.

  * `postJson_of_readable` -- the body of an event decodes to it, or to nothing;
  * `readAs_iff`, `carried_iff` -- the way through a spool and over the wire;
  * `status_of_valid` -- the answers that are left for a body that passes;
  * `intact_of_run` -- **no event is altered on its way**, over every run.
-/
import Beacon.Agent.Bodies
import Beacon.Agent.Encoding
import Beacon.Agent.Order
import Beacon.Agent.Origins

namespace Beacon

open Foundation

/-! ## 1. One way -/

section Texts

variable [FloatFormat]

/-- The text of an event, as it is posted and as the events table keeps it, decodes to the event,
    or to nothing if a fact is nested too deeply. -/
theorem Event.decode_toString {event : Event} (hversion : event.schemaVersion < 65536)
    (h : event.Readable) : (Json.readObject event.toString).bind ofMembers =
      if event.Shallow then some event else none := by
  have htext : event.toString =
      String.ofList (Json.render false 0 (.obj event.members) ++ []) := by
    rw [Json.render_compact, List.append_nil]
    rfl
  rw [htext, Json.readObject_render false (readable_members hversion h) rfl]
  by_cases hshallow : event.Shallow
  · rw [if_pos (depth_members.mpr hshallow), if_pos hshallow, Option.bind_some,
      ofMembers_members hversion]
  · rw [if_neg fun hdepth => hshallow (depth_members.mp hdepth), if_neg hshallow]
    rfl

variable [Formats]

omit [FloatFormat] in
theorem Event.Valid.version_lt {event : Event} (hv : event.Valid) : event.schemaVersion < 65536 := by
  rw [(Event.valid_iff.mp hv).1]
  decide

/-- **The body of a valid event** decodes to it, or to nothing. -/
theorem postJson_of_readable {event : Event} (hv : event.Valid) (h : event.Readable) :
    Codec.postJson event = if event.Shallow then some event else none :=
  Event.decode_toString hv.version_lt h

/-- **Through a spool**: what is read is the event that was written. -/
theorem readAs_iff {event e : Event} (hv : event.Valid) (h : event.Readable) :
    ReadAs event e ↔ event.Shallow ∧ e = event := by
  rw [ReadAs, Spool.fromReader_fileText hv.version_lt h]
  constructor
  · intro hsome
    split at hsome
    · exact ⟨‹_›, (Option.some.inj hsome).symm⟩
    · cases hsome
  · intro hboth
    rw [if_pos hboth.1, hboth.2]

/-- **Through a spool and over the wire**: the server decodes the event that was written. -/
theorem carried_iff {event received : Event} (hv : event.Valid) (h : event.Readable) :
    Carried event received ↔ event.Shallow ∧ received = event := by
  constructor
  · intro hcarried
    obtain ⟨e, hread, hpost⟩ := hcarried
    obtain ⟨hshallow, rfl⟩ := (readAs_iff hv h).mp hread
    rw [postJson_of_readable hv h, if_pos hshallow] at hpost
    exact ⟨hshallow, (Option.some.inj hpost).symm⟩
  · intro hboth
    refine ⟨event, (readAs_iff hv h).mpr ⟨hboth.1, rfl⟩, ?_⟩
    rw [postJson_of_readable hv h, if_pos hboth.1, hboth.2]

end Texts

/-! ## 2. The answers -/

/-- **The handler's answers to a valid event**: it is accepted, the credential is refused, the id
    is taken, or the database fails. -/
theorem status_of_valid [Formats] (store : ServerEventStore) (env : Handling) {event : Event}
    (hv : event.Valid) (db : Db) :
    (acceptEvent store env event db).1.status ∈ [202, 401, 409, 500] := by
  have hv' : event.validate = .ok () := hv
  have h202 : 202 ∈ [202, 401, 409, 500] := by decide
  have h401 : 401 ∈ [202, 401, 409, 500] := by decide
  have h409 : 409 ∈ [202, 401, 409, 500] := by decide
  have h500 : 500 ∈ [202, 401, 409, 500] := by decide
  unfold acceptEvent
  split
  · exact h401
  · rw [hv']
    cases env.fault with
    | some text => exact h500
    | none =>
      simp only
      split
      · exact h202
      · exact h409
      · exact h500
      · exact h500

/-! ## 3. Every way -/

variable {α : Type} [DecidableEq α]

/-- **No event is altered on its way.** Let the numbers among the facts of the offered events read
    back from their own text. In every state that any agents, a server and a network reach by any
    run: what is on the wire is an event that was offered to a spool, and the endpoint answers it
    neither with 413 nor with 422 nor with the 400 of `validate`, whatever its tables hold; the
    payload of a row of the events table is the text of an event that was offered, and decodes to
    that event; and the text of a notification is the one rendered for such an event, with the
    record of its alert right after it was accepted. -/
theorem intact_of_run [FloatFormat] [Formats] (store : ServerEventStore)
    (actions : List (SystemAction α))
    (hread : ∀ event, Offered actions event → event.Readable) :
    let s := (system α store).run actions
    (∀ e ∈ s.requests, Offered actions e ∧ e.Shallow ∧ ∀ env db,
      (respondWithin store env e db).1.status ∈ [202, 401, 409, 500]) ∧
    (∀ row ∈ s.db.events.rows, ∃ event, Offered actions event ∧ row.eventId = event.eventId ∧
      row.payload = event.toString ∧
      (Json.readObject row.payload).bind Event.ofMembers = some event) ∧
    (∀ r ∈ s.db.notifications.rows, ∃ event alert, Offered actions event ∧
      r.eventId = event.eventId ∧ store.policy.Routed event r.channel ∧
      s.db.RecordAfter event alert ∧
      r.payload = renderEvent event alert store.templates) := by
  intro s
  have htraced : s.Traced (Offered actions) store := System.traced_run store actions
  obtain ⟨arrived, hist, horigin⟩ := htraced.server
  have harrival : ∀ x ∈ arrived, Offered actions x.event ∧ x.event.Valid ∧ x.event.Shallow := by
    intro x hx
    obtain ⟨event, ⟨hoffered, hv⟩, hcarried⟩ := horigin x hx
    obtain ⟨hshallow, heq⟩ := (carried_iff hv (hread event hoffered)).mp hcarried
    rw [heq]
    exact ⟨hoffered, hv, hshallow⟩
  refine ⟨fun e he => ?_, fun row hrow => ?_, fun r hr => ?_⟩
  · obtain ⟨event, ⟨hoffered, hv⟩, hreadas⟩ := htraced.requests e he
    obtain ⟨hshallow, rfl⟩ := (readAs_iff hv (hread event hoffered)).mp hreadas
    refine ⟨hoffered, hshallow, fun env db => ?_⟩
    rw [respondWithin_of_valid hv, respond, postJson_of_readable hv (hread e hoffered),
      if_pos hshallow]
    exact status_of_valid store env hv db
  · rw [hist.events] at hrow
    obtain ⟨x, hx, rfl⟩ := List.mem_map.mp hrow
    obtain ⟨hoffered, hv, hshallow⟩ := harrival x hx
    refine ⟨x.event, hoffered, rfl, rfl, ?_⟩
    exact (Event.decode_toString hv.version_lt (hread x.event hoffered)).trans (if_pos hshallow)
  · obtain ⟨x, hx, hm⟩ := hist.arrival_of_row hr
    obtain ⟨hoffered, _, _⟩ := harrival x hx
    obtain ⟨_, c, hrouted, hmessage⟩ := (mem_messagesOf hist.coherent hx).mp hm
    have hch : r.channel = c := (congrArg Message.channel hmessage).symm
    refine ⟨x.event, x.alert, hoffered, ?_, ?_,
      recordAfter_of_mem hist.coherent hist.events hx, ?_⟩
    · exact (congrArg Message.eventId hmessage).symm
    · rw [hch]
      exact hrouted
    · exact (congrArg Message.payload hmessage).symm

namespace Sample

/-- An event that is sent from an empty spool is posted as it is. -/
theorem posted_alone [FloatFormat] [Formats] (store : ServerEventStore) (env : Handling)
    {e : Event} (hv : e.Valid) (hr : e.Readable) (hs : e.Shallow) :
    ((system Unit store).run
      [.enqueue () e, .drain () 1 1, .request (), .handle 0 env]).db =
        (acceptEvent store env e Db.empty).2 := by
  obtain ⟨d, hd⟩ := Spool.enqueue_of_fresh (d := .empty) hv rfl rfl
  have hall : (Prog.forEach Spool.enqueue [e]).run .empty = .ok ((), d) := by
    rw [Prog.run_forEach_cons, hd]
    rfl
  have hpaths : Spool.paths d = [Spool.file e] := Spool.paths_enqueued hall
  have hlist : Spool.list d = .ok [e] := by
    unfold Spool.list
    rw [hpaths]
    refine Spool.mapM_cons_ok.mpr ⟨e, [], ?_, rfl, rfl⟩
    rw [Spool.file, Spool.read_fileText hv hr, if_pos hs]
  let M := system Unit store
  let s₁ : System Unit := { M.init.setSpool () d with
    enqueued := Function.update M.init.enqueued () [e] }
  let s₂ := s₁.goto () (.delivering 1 1 e [])
  let s₃ := { s₂ with requests := [e] }.goto () (.awaiting 0 1 1 e [])
  let s₄ : System Unit := { s₃ with
    replies := [(0, (acceptEvent store env e Db.empty).1)]
    db := (acceptEvent store env e Db.empty).2 }
  have e₁ : M.step M.init (.enqueue () e) = some s₁ := by
    simp only [M, system, System.step, hd]
    rfl
  have e₂ : M.step s₁ (.drain () 1 1) = some s₂ := by
    have hspool : Spool.list (s₁.spool ()) = .ok [e] := hlist
    simp only [M, system, System.step, hspool]
    rfl
  have e₃ : M.step s₂ (.request ()) = some s₃ := rfl
  have e₄ : M.step s₃ (.handle 0 env) = some s₄ := by
    have hrespond : respond store env e Db.empty = acceptEvent store env e Db.empty := by
      rw [respond, postJson_of_readable hv hr, if_pos hs]
    show some { s₃ with
      replies := [(0, (respond store env e Db.empty).1)]
      db := (respond store env e Db.empty).2 } = some s₄
    rw [hrespond]
  show (M.runFrom M.init _).db = s₄.db
  rw [Machine.runFrom_cons, Machine.act_of_step e₁, Machine.runFrom_cons, Machine.act_of_step e₂,
    Machine.runFrom_cons, Machine.act_of_step e₃, Machine.runFrom_cons, Machine.act_of_step e₄,
    Machine.runFrom_nil]

end Sample

/-- The theorem at an event with facts of every kind that the server has taken. -/
theorem intact_of_run_measured :
    let _ := Sample.floats
    let _ := Sample.formats
    let actions : List (SystemAction Unit) := [.enqueue () Sample.measured, .drain () 1 1,
      .request (), .handle 0 (Sample.prompt Sample.measured)]
    ∃ row ∈ ((system Unit Sample.silentStore).run actions).db.events.rows,
      (Json.readObject row.payload).bind Event.ofMembers = some Sample.measured := by
  intro _ _ actions
  have hv : Sample.measured.Valid := Sample.valid_measured
  have hoffered : ∀ event, Offered actions event → event = Sample.measured := by
    intro event hoffer
    obtain ⟨a, hmem | ⟨writes, hmem⟩⟩ := hoffer
    · simp only [actions, List.mem_cons, List.not_mem_nil, SystemAction.enqueue.injEq,
        reduceCtorEq, or_false] at hmem
      exact hmem.2
    · simp only [actions, List.mem_cons, List.not_mem_nil, reduceCtorEq, or_false] at hmem
  have hread : ∀ event, Offered actions event → event.Readable := by
    intro event hoffer
    rw [hoffered event hoffer]
    exact Sample.readable_measured
  have hanswer : (acceptEvent Sample.silentStore (Sample.prompt Sample.measured)
      Sample.measured Db.empty).1.isSuccess = true := accepted_of_fresh rfl rfl hv rfl
  obtain ⟨_, _, row, hrow, _⟩ := committed_of_success hanswer
  have hdb := Sample.posted_alone Sample.silentStore (Sample.prompt Sample.measured) hv
    Sample.readable_measured Sample.shallow_measured
  obtain ⟨_, hrows, _⟩ := intact_of_run Sample.silentStore actions hread
  have hmem : row ∈ ((system Unit Sample.silentStore).run actions).db.events.rows := by
    rw [hdb]
    exact (Table.get?_eq_some.mp hrow).1
  obtain ⟨event, hoffer, _, _, hdecode⟩ := hrows row hmem
  exact ⟨row, hmem, by rw [hdecode, hoffered event hoffer]⟩

end Beacon
