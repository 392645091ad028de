/-
  File:      Beacon/Agent/Drain.lean
  Subject:   The drain of an agent (`agent.rs`): `drain`, `deliver_with_retry`, `submit_event`.

  A drain lists the spool once, takes the first events and delivers them one after the other,
  each with a bounded number of attempts; a delivered event is removed, the first event that is
  not delivered ends the drain. What a request does to the rest of the world and whether an
  answer comes back are parameters: `post` makes one request in a state `σ`.
-/
import Beacon.Agent.Spool
import Beacon.Server.Http

namespace Beacon

open Foundation

/-- The arguments of a drain. `client` is what `build_client` gives for the server's address and
    the CA file. -/
structure AgentConfig where
  token : String
  client : Except String Unit
  limit : Nat
  maxAttempts : Nat

inductive DrainError where
  | emptyToken
  | noAttempts
  | client (message : String)
  | spool (error : SpoolError)
  | submit (message : String)
  | remove (eventId : String)

def DrainError.toString : DrainError → String
  | .emptyToken => "agent token cannot be empty"
  | .noAttempts => "max attempts must be greater than zero"
  | .client message => message
  | .spool error => error.toString
  | .submit message => message
  | .remove eventId => "remove delivered event " ++ eventId

/-- The status line of an answer of the server. -/
def statusText : Nat → String
  | 202 => "202 Accepted"
  | 400 => "400 Bad Request"
  | 401 => "401 Unauthorized"
  | 409 => "409 Conflict"
  | 413 => "413 Payload Too Large"
  | 422 => "422 Unprocessable Entity"
  | 500 => "500 Internal Server Error"
  | status => Nat.repr status ++ " <unknown status code>"

/-- What `submit_event` makes of an answer; `none` is no answer. -/
def submitResult : Option Response → Except String Unit
  | none => .error "send event to server"
  | some response =>
    if response.isSuccess then .ok ()
    else .error ("server returned " ++ statusText response.status)

theorem submitResult_ok {response : Response} :
    submitResult (some response) = .ok () ↔ response.isSuccess = true := by
  simp only [submitResult]
  split
  · exact ⟨fun _ => ‹_›, fun _ => rfl⟩
  · exact ⟨nofun, fun h => absurd h ‹_›⟩

/-- The server's answer to a body; what it cannot decode it answers with 422 (with 400 where the
    nesting is beyond the limit of the reader, which no body of an agent is: such an event has no
    file that `list` reads). -/
def respond [Formats] [Codec] (store : ServerEventStore) (env : Handling) (event : Event) (db : Db) :
    Response × Db :=
  match Codec.postJson event with
  | none => (⟨422, .null⟩, db)
  | some received => acceptEvent store env received db

section Drain

variable {σ : Type} (post : Event → σ → Option Response × σ)

def submitEvent (event : Event) (s : σ) : Except String Unit × σ :=
  (submitResult (post event s).1, (post event s).2)

/-- The attempts left are counted down; none left is the panic of an `expect` that `drain`
    excludes. -/
def deliverWithRetry (event : Event) : Nat → σ → Except String Unit × σ
  | 0, s => (.error "max_attempts guarantees one attempt", s)
  | 1, s => submitEvent post event s
  | left + 2, s =>
    match submitEvent post event s with
    | (.ok (), s) => (.ok (), s)
    | (.error _, s) => deliverWithRetry event (left + 1) s

/-- The loop of `drain`, with `delivered` counted so far. -/
def drainLoop (maxAttempts : Nat) : List Event → Nat → Directory → σ →
    Except DrainError Nat × Directory × σ
  | [], delivered, d, s => (.ok delivered, d, s)
  | event :: rest, delivered, d, s =>
    match deliverWithRetry post event maxAttempts s with
    | (.error message, s) => (.error (.submit message), d, s)
    | (.ok (), s) =>
      match Spool.remove d event with
      | none => (.error (.remove event.eventId), d, s)
      | some d => drainLoop maxAttempts rest (delivered + 1) d s

def drain [Formats] [Codec] (config : AgentConfig) (d : Directory) (s : σ) :
    Except DrainError Nat × Directory × σ :=
  if Text.isBlank config.token then (.error .emptyToken, d, s)
  else if config.maxAttempts = 0 then (.error .noAttempts, d, s)
  else match config.client with
    | .error message => (.error (.client message), d, s)
    | .ok () =>
      match Spool.list d with
      | .error error => (.error (.spool error), d, s)
      | .ok events => drainLoop post config.maxAttempts (events.take config.limit) 0 d s

end Drain

end Beacon
