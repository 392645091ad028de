/-
  File:      Beacon/Agent/Steps.lean
  Subject:   What one step of the system does.

  `System.Did` lists the ways a step of System.lean can end, each with what it needs and with the
  state it leaves. A fact about every run is then one case for each way, and no proof unfolds the
  step again.

  * `System.did_of_step` -- **every enabled step is one of these**.
-/
import Beacon.Agent.System

namespace Beacon

open Foundation

/-- A drain that goes on after a failed attempt has no other events. -/
theorem AgentPhase.mem_retry {maxAttempts left : Nat} {event e : Event} {rest : List Event}
    (h : e ∈ (retry maxAttempts left event rest).events) : e ∈ event :: rest := by
  rcases events_retry maxAttempts left event rest with hnone | hsame
  · rw [hnone] at h
    cases h
  · rwa [hsame] at h

namespace System

variable {α : Type} [DecidableEq α] [Formats] [Codec]

/-- What a step that takes `s` to another state has done. -/
inductive Did (store : ServerEventStore) (s : System α) : SystemAction α → System α → Prop where
  | enqueue {a : α} {event : Event} {d : Directory} (hp : s.phase a = .idle)
      (hd : (Spool.enqueue event).run (s.spool a) = .ok ((), d)) :
      Did store s (.enqueue a event) { s.setSpool a d with
        enqueued := Function.update s.enqueued a (s.enqueued a ++ [event]) }
  | cutEnqueue {a : α} {event : Event} {writes : Nat} (hp : s.phase a = .idle) :
      Did store s (.cutEnqueue a event writes)
        (s.setSpool a ((Spool.enqueue event).after writes (s.spool a)))
  | drain {a : α} {limit maxAttempts : Nat} {events : List Event} (hp : s.phase a = .idle)
      (hl : Spool.list (s.spool a) = .ok events) :
      Did store s (.drain a limit maxAttempts)
        (s.goto a (.next maxAttempts (events.take limit)))
  | request {a : α} {maxAttempts left : Nat} {event : Event} {rest : List Event}
      (hp : s.phase a = .delivering maxAttempts left event rest) :
      Did store s (.request a) ({ s with requests := s.requests ++ [event] }.goto a
        (.awaiting s.requests.length maxAttempts left event rest))
  | handle {request : Nat} {env : Handling} {event : Event}
      (hn : s.requests[request]? = some event) :
      Did store s (.handle request env) { s with
        replies := s.replies ++ [(request, (respond store env event s.db).1)]
        db := (respond store env event s.db).2 }
  | acknowledge {a : α} {reply request maxAttempts left : Nat} {event : Event} {rest : List Event}
      {response : Response} (hp : s.phase a = .awaiting request maxAttempts left event rest)
      (hreply : s.replies[reply]? = some (request, response)) (hr : response.isSuccess = true) :
      Did store s (.receive a reply) (s.goto a (.acknowledged maxAttempts event rest))
  | refuse {a : α} {reply request maxAttempts left : Nat} {event : Event} {rest : List Event}
      {response : Response} (hp : s.phase a = .awaiting request maxAttempts left event rest)
      (hreply : s.replies[reply]? = some (request, response)) (hr : response.isSuccess = false) :
      Did store s (.receive a reply) (s.goto a (.retry maxAttempts left event rest))
  | giveUp {a : α} {request maxAttempts left : Nat} {event : Event} {rest : List Event}
      (hp : s.phase a = .awaiting request maxAttempts left event rest) :
      Did store s (.giveUp a) (s.goto a (.retry maxAttempts left event rest))
  | missing {a : α} {maxAttempts : Nat} {event : Event} {rest : List Event}
      (hp : s.phase a = .acknowledged maxAttempts event rest)
      (hd : Spool.remove (s.spool a) event = none) : Did store s (.remove a) (s.goto a .idle)
  | remove {a : α} {maxAttempts : Nat} {event : Event} {rest : List Event} {d : Directory}
      (hp : s.phase a = .acknowledged maxAttempts event rest)
      (hd : Spool.remove (s.spool a) event = some d) :
      Did store s (.remove a) ((s.setSpool a d).goto a (.next maxAttempts rest))
  | crash {a : α} : Did store s (.crash a) (s.goto a .idle)
  | work {op : Op} (hop : ∀ call, op ≠ .accept call) :
      Did store s (.work op) { s with db := (op.perform store s.db).2 }

variable {store : ServerEventStore} {s s' : System α} {action : SystemAction α}

/-- **Every enabled step is one of these.** -/
theorem did_of_step (hs : (system α store).step s action = some s') : Did store s action s' := by
  change s.step store action = some s' at hs
  cases action with
  | enqueue a event =>
    simp only [step] at hs
    split at hs
    · rename_i d hp hd
      cases hs
      exact .enqueue hp hd
    · cases hs
  | cutEnqueue a event writes =>
    simp only [step] at hs
    split at hs
    · rename_i hp
      cases hs
      exact .cutEnqueue hp
    · cases hs
  | drain a limit maxAttempts =>
    simp only [step] at hs
    split at hs
    · rename_i n events hp hl
      cases hs
      exact .drain hp hl
    · cases hs
  | request a =>
    simp only [step] at hs
    split at hs
    · rename_i hp
      cases hs
      exact .request hp
    · cases hs
  | handle request env =>
    simp only [step] at hs
    split at hs
    · cases hs
    · rename_i event hn
      cases hs
      exact .handle hn
  | receive a reply =>
    simp only [step] at hs
    split at hs
    · rename_i request maxAttempts left event rest answered response hp hreply
      split at hs
      · rename_i heq
        subst heq
        cases hs
        cases hr : response.isSuccess with
        | true =>
          rw [submitResult_ok.mpr hr]
          exact .acknowledge hp hreply hr
        | false =>
          have herror : submitResult (some response) =
              .error ("server returned " ++ statusText response.status) := by
            simp only [submitResult, hr, Bool.false_eq_true, if_false]
          rw [herror]
          exact .refuse hp hreply hr
      · cases hs
    · cases hs
  | giveUp a =>
    simp only [step] at hs
    split at hs
    · rename_i hp
      cases hs
      exact .giveUp hp
    · cases hs
  | remove a =>
    simp only [step] at hs
    split at hs
    · rename_i hp
      split at hs
      · rename_i hd
        cases hs
        exact .missing hp hd
      · rename_i d hd
        cases hs
        exact .remove hp hd
    · cases hs
  | crash a =>
    cases hs
    exact .crash
  | work op =>
    cases op with
    | accept call => cases hs
    | claim now maxAttempts | complete id now | fail id update =>
      cases hs
      exact .work fun _ h => Op.noConfusion h

end System

end Beacon
