/-
  File:      Beacon/Agent/Bodies.lean
  Subject:   The size of the bodies an agent posts (`agent.rs`, `submit_event`) and the limit the
             server's router sets (`server.rs`, `build_router`).

  `validate` bounds the bytes of five texts and a timestamp, the number of facts, the bytes of a
  key and the bytes of a value as it is printed. Escaping makes at most six bytes of one. The sum
  stays below the limit of the router, which is a constant of another component.

  * `Event.size_body_le` -- what the checks of `validate` add up to;
  * `posted_within_limit` -- **the router refuses no event of a spool for its size.**
-/
import Beacon.Agent.Drain
import Beacon.Foundation.JsonSize

namespace Beacon

open Foundation
open String (utf8Len)

/-- `DefaultBodyLimit::max`: the bytes of a body that are read. -/
def bodyLimit : Nat := 256 * 1024

/-- The body `submit_event` posts: `serde_json::to_vec(event)`. -/
def Event.body (event : Event) : String := event.toString

/-- The server's answer behind the limit: a body that is too long is not decoded. -/
def respondWithin [Formats] [Codec] (store : ServerEventStore) (env : Handling) (event : Event)
    (db : Db) : Response × Db :=
  if event.body.utf8ByteSize > bodyLimit then (⟨413, .null⟩, db) else respond store env event db

/-! ## 1. What `validate` bounds -/

theorem size_str_le {name value : String} {bytes : Nat}
    (h : requireField name value bytes = .ok ()) :
    utf8Len (Json.print (.str value)) ≤ 6 * bytes + 2 := by
  have hsize := (requireField_ok.mp h).2
  have hprint := Json.size_printString_le value
  rw [Json.print]
  omega

/-- A fact that passes: a key of 64 bytes and a value printed in 4096. -/
theorem memberBound_le {fact : String × Json} (h : validateFact fact.1 fact.2 = .ok ()) :
    Json.memberBound fact ≤ 6 * 64 + 4 + 4096 := by
  obtain ⟨hkey, hvalue⟩ := seq_ok.mp h
  have hk := (requireField_ok.mp hkey).2
  have hv : utf8Len fact.2.print ≤ 4096 := by
    rw [← String.utf8ByteSize_ofList]
    refine Nat.not_lt.mp fun hlt : fact.2.text.utf8ByteSize > 4096 => ?_
    rw [if_pos hlt] at hvalue
    cases hvalue
  unfold Json.memberBound
  omega

variable [Formats]

/-- The facts of a valid event, printed. -/
theorem Event.size_facts_le {event : Event} (h : event.Valid) :
    utf8Len (Json.print (.obj event.facts.entries)) ≤ 32 * (6 * 64 + 4 + 4096) + 2 := by
  obtain ⟨_, _, _, _, _, _, _, _, _, hlen, hfacts⟩ := Event.valid_iff.mp h
  refine Nat.le_trans (Json.size_obj_le_of_forall fun m hm => memberBound_le (forM_ok hfacts m hm))
    (Nat.add_le_add_right (Nat.mul_le_mul_right _ hlen) 2)

/-- **The body of a valid event**, by the bounds of `validate`. -/
theorem Event.size_body_le {event : Event} (h : event.Valid) :
    event.body.utf8ByteSize ≤ 150000 := by
  have hfacts := Event.size_facts_le h
  obtain ⟨hversion, hid, _, htype, hsource, hhost, hfinger, htime, _⟩ := Event.valid_iff.mp h
  have hid := size_str_le hid
  have htype := size_str_le htype
  have hsource := size_str_le hsource
  have hhost := size_str_le hhost
  have hfinger := size_str_le hfinger
  have htime := size_str_le htime
  have hstate : utf8Len (Json.print (.str event.state.asStr)) ≤ 10 := by
    cases event.state <;> decide
  have hseverity : utf8Len (Json.print (.str event.severity.asStr)) ≤ 10 := by
    cases event.severity <;> decide
  have hone : utf8Len (Json.print (.num (.int event.schemaVersion))) = 1 := by
    rw [hversion]
    decide
  have hobj := Json.size_obj_le (event.head ++ [("facts", .obj event.facts.entries)])
  rw [Event.body, Event.toString, Json.text, String.utf8ByteSize_ofList]
  refine Nat.le_trans hobj ?_
  have hkeys : "schema_version".utf8ByteSize + "event_id".utf8ByteSize +
      "event_type".utf8ByteSize + "source".utf8ByteSize + "host_id".utf8ByteSize +
      "state".utf8ByteSize + "severity".utf8ByteSize + "fingerprint".utf8ByteSize +
      "occurred_at".utf8ByteSize + "facts".utf8ByteSize = 85 := by decide
  simp only [Event.head, List.cons_append, List.nil_append, List.map_cons, List.map_nil,
    List.sum_cons, List.sum_nil, Json.memberBound, hone]
  omega

/-! ## 2. The router -/

/-- The layer passes a valid event on. -/
theorem respondWithin_of_valid [Codec] {event : Event} (h : event.Valid)
    (store : ServerEventStore) (env : Handling) (db : Db) :
    respondWithin store env event db = respond store env event db := by
  have hle := Event.size_body_le h
  exact if_neg (Nat.not_lt.mpr (Nat.le_trans hle (by decide)))

/-- **The router refuses no event of a spool for its size**: neither one that `validate` admits
    nor, therefore, one that was enqueued or that a drain is about to post. -/
theorem posted_within_limit [Codec] :
    (∀ event : Event, event.Valid → event.body.utf8ByteSize ≤ 256 * 1024 ∧
      ∀ store env db, respondWithin store env event db = respond store env event db) ∧
    (∀ event d d', (Spool.enqueue event).run d = .ok ((), d') →
      event.body.utf8ByteSize ≤ 256 * 1024) ∧
    ∀ d events, Spool.list d = .ok events → ∀ event ∈ events,
      event.body.utf8ByteSize ≤ 256 * 1024 ∧
        ∀ store env db, respondWithin store env event db = respond store env event db := by
  have hvalid : ∀ event : Event, event.Valid → event.body.utf8ByteSize ≤ 256 * 1024 ∧
      ∀ store env db, respondWithin store env event db = respond store env event db :=
    fun event h => ⟨Nat.le_trans (Event.size_body_le h) (by decide), respondWithin_of_valid h⟩
  refine ⟨hvalid, fun event d d' h => (hvalid event (Spool.run_enqueue h).1).1, ?_⟩
  intro d events h event he
  obtain ⟨f, _, hread⟩ := Spool.mem_of_mapM h he
  exact hvalid event (Spool.read_ok hread).2

omit [Formats] in
/-- The theorem at an event with facts of every kind. -/
theorem posted_within_limit_measured : Sample.measured.body.utf8ByteSize ≤ 256 * 1024 :=
  ((@posted_within_limit Sample.formats Sample.codec).1 Sample.measured Sample.valid_measured).1

end Beacon
