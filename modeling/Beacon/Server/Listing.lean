/-
  File:      Beacon/Server/Listing.lean
  Subject:   What `list_alerts` lists, judged by the instants alerts were last seen at.

  The query sorts by the text of `last_seen`, and the texts are those the producers wrote: one
  instant has many of them, and of two texts the greater one may be the earlier instant.

  * `listAlerts_eq_topBy` -- the query is the cut of the library;
  * `listAlerts_iff` -- **when the listing is the latest alerts in order**, after any run;
  * `listed_wrong` -- two offsets, and the listing is upside down.
-/
import Beacon.Foundation.Ranking
import Beacon.Server.Http
import Beacon.Server.LastSeen

namespace Beacon

open Foundation

/-- The rows a status selects. -/
def Db.matching (db : Db) (status : Option AlertStatus) : List AlertRecord :=
  db.alerts.rows.filter fun alert => status.all fun status => alert.status = status

/-- `limit.clamp(1, 500)`. -/
def clampLimit (limit : Nat) : Nat := max 1 (min limit 500)

/-- **The query is the cut by the text of `last_seen`.** -/
theorem listAlerts_eq_topBy (db : Db) (status : Option AlertStatus) (limit : Nat) :
    db.listAlerts status limit =
      topBy AlertRecord.lastSeen (clampLimit limit) (db.matching status) := rfl

/-- No two rows are equal. -/
theorem nodup_matching (db : Db) (status : Option AlertStatus) : (db.matching status).Nodup :=
  (db.alerts.nodup.of_map _).filter _

section Order

variable [Formats]

/-- The instant of the text `s` is not after that of `t`. -/
def NotAfter (s t : String) : Prop :=
  ∀ i j, Formats.parseFromRfc3339 s = some i → Formats.parseFromRfc3339 t = some j → i ≤ j

theorem notAfter_refl (s : String) : NotAfter s s := by
  intro i j hi hj
  rw [hi] at hj
  cases hj
  exact Int.le_refl _

/-- Every alert of a run was last seen at an instant. -/
theorem seen_of_mem (store : ServerEventStore) (ops : List Op) {alert : AlertRecord}
    (h : alert ∈ (performAll store .empty ops).alerts.rows) :
    ∃ t, Formats.parseFromRfc3339 alert.lastSeen = some t := by
  have hist := history_run store ops
  obtain ⟨last, hlast, hseen, _⟩ := hist.seen (Table.get?_of_mem h)
  rw [hseen]
  exact instant_of_valid (hist.valid last (mem_of_mem_ofFingerprint (List.mem_of_getLast? hlast)))

/-- **The listing after any run.** Each matching alert was last seen at an instant. The listing is
    as many distinct matching alerts as the limit allows, the latest ones in order, exactly when
    no alert was seen before one of a smaller text, alerts apart that as many as the limit have
    a greater text than. -/
theorem listAlerts_iff (store : ServerEventStore) (ops : List Op) (status : Option AlertStatus)
    (limit : Nat) :
    let db := performAll store .empty ops
    let matching := db.matching status
    (∀ a ∈ matching, ∃ t, Formats.parseFromRfc3339 a.lastSeen = some t) ∧
    (Top AlertRecord.lastSeen NotAfter (clampLimit limit) matching (db.listAlerts status limit) ↔
      ∀ a ∈ matching, ∀ b ∈ matching, b.lastSeen < a.lastSeen →
        matching.countP (fun c => a.lastSeen < c.lastSeen) < clampLimit limit →
          NotAfter b.lastSeen a.lastSeen) := by
  intro db matching
  refine ⟨fun a ha => seen_of_mem store ops (List.mem_filter.mp ha).1, ?_⟩
  rw [listAlerts_eq_topBy]
  exact top_topBy_iff (nodup_matching db status) notAfter_refl

end Order

/-! ## A listing upside down -/

namespace Sample

/-- Two texts with different offsets; the greater one is the earlier instant. -/
@[reducible] def zones : Formats where
  uuidParseStr s := s = id1 || s = id2
  parseFromRfc3339 s := [("2026-01-01T01:00:00+02:00", ⟨1767222000000000000⟩),
    ("2026-01-01T00:30:00Z", ⟨1767227400000000000⟩)].lookup s

def eastern : Event :=
  { event id1 "2026-01-01T01:00:00+02:00" .firing .critical with fingerprint := "east/restic/age" }

def universal : Event := event id2 "2026-01-01T00:30:00Z" .firing .critical

/-- One alert for each of the two. -/
def travelled : List Op := [.accept (call eastern), .accept (call universal)]

end Sample

/-- **The alert of the text with the offset is listed first, although it is the older one.** -/
theorem listed_wrong :
    let db := @performAll Sample.zones Sample.silentStore .empty Sample.travelled
    ¬ Top AlertRecord.lastSeen (@NotAfter Sample.zones) (clampLimit 50) (db.matching none)
      (db.listAlerts none 50) := by
  intro db htop
  rw [listAlerts_eq_topBy,
    top_topBy_iff (nodup_matching db none) (@notAfter_refl Sample.zones)] at htop
  have hlate := htop (newAlert Sample.eastern .firing) (by decide +kernel)
    (newAlert Sample.universal .firing) (by decide +kernel) (by decide +kernel) (by decide +kernel)
  exact absurd (hlate _ _ rfl rfl) (by decide +kernel)

end Beacon
