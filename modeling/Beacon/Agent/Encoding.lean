/-
  File:      Beacon/Agent/Encoding.lean
  Subject:   What serde_json makes of events, and which of them it can read back.

  The derived deserialiser takes each field of an event once, from the members of an object in
  whatever order they stand. With it the encoders of the spool are those of the JSON library
  (`jsonCodec`). The parser refuses documents nested too deeply, and `validate` does not ask how
  deeply the facts are nested, so an event may be written that cannot be read: in the file of an
  event each value of a fact stands two levels deep, one deeper than in the argument of `send`.

  * `head_of_read` -- what decodes from the text of an event differs from it in the facts at most;
  * `fromReader_fileText` -- the file of an event decodes to it, or to nothing if a fact is nested
    too deeply;
  * `list_iff_shallow` -- **the spool can be listed exactly while no pending fact is nested too
    deeply**.
-/
import Beacon.Agent.Drain
import Beacon.Agent.Pending
import Beacon.Foundation.JsonRender

namespace Beacon

open Foundation

/-! ## 1. Decoding -/

/-- The value of a field that stands exactly once among the members. -/
def memberOf (members : List (String × Json)) (name : String) : Option Json :=
  match members.filter fun m => m.1 = name with
  | [m] => some m.2
  | _ => none

def u16Of : Json → Option Nat
  | .num (.int n) => if 0 ≤ n ∧ n < 65536 then some n.toNat else none
  | _ => none

def stringOf : Json → Option String
  | .str s => some s
  | _ => none

def stateOf (v : Json) : Option EventState :=
  (stringOf v).bind fun s => (EventState.fromStr s).toOption

def severityOf (v : Json) : Option Severity :=
  (stringOf v).bind fun s => (Severity.fromStr s).toOption

def mapOf (members : List (String × Json)) : SortedMap String Json :=
  ⟨Json.sortMembers members, Json.sorted_sortMembers members⟩

def factsOf : Json → Option (SortedMap String Json)
  | .obj members => some (mapOf members)
  | _ => none

/-- The derived deserialiser of an event; members of other names are skipped. -/
def Event.ofMembers (members : List (String × Json)) : Option Event := do
  let schemaVersion ← (memberOf members "schema_version").bind u16Of
  let eventId ← (memberOf members "event_id").bind stringOf
  let eventType ← (memberOf members "event_type").bind stringOf
  let source ← (memberOf members "source").bind stringOf
  let hostId ← (memberOf members "host_id").bind stringOf
  let state ← (memberOf members "state").bind stateOf
  let severity ← (memberOf members "severity").bind severityOf
  let fingerprint ← (memberOf members "fingerprint").bind stringOf
  let occurredAt ← (memberOf members "occurred_at").bind stringOf
  let facts ← (memberOf members "facts").bind factsOf
  pure { schemaVersion, eventId, eventType, source, hostId, state, severity, fingerprint,
         occurredAt, facts }

theorem memberOf_of_mem {members : List (String × Json)} {name : String} {v w : Json}
    (hv : (name, v) ∈ members) (hw : memberOf members name = some w) : w = v := by
  unfold memberOf at hw
  have hmem : (name, v) ∈ members.filter fun m => m.1 = name :=
    List.mem_filter.mpr ⟨hv, decide_eq_true rfl⟩
  split at hw
  · rename_i m hm
    rw [hm] at hmem
    rw [← Option.some.inj hw, ← List.mem_singleton.mp hmem]
  · cases hw

theorem mem_of_memberOf {members : List (String × Json)} {name : String} {v : Json}
    (h : memberOf members name = some v) : (name, v) ∈ members := by
  unfold memberOf at h
  split at h
  · rename_i m hm
    have hmem : m ∈ members.filter fun m => m.1 = name := by
      rw [hm]
      exact List.mem_singleton_self m
    obtain ⟨hin, hname⟩ := List.mem_filter.mp hmem
    rw [← Option.some.inj h, ← of_decide_eq_true hname]
    exact hin
  · cases h

/-- Members of distinct names are all found. -/
theorem memberOf_of_nodup {members : List (String × Json)} {name : String} {v : Json}
    (hn : (members.map Prod.fst).Nodup) (hv : (name, v) ∈ members) :
    memberOf members name = some v := by
  have hfilter : (members.filter fun m => m.1 = name) = [(name, v)] := by
    induction members with
    | nil => cases hv
    | cons m ms ih =>
      obtain ⟨hm, hms⟩ := List.nodup_cons.mp hn
      rcases List.mem_cons.mp hv with rfl | hv
      · have hnone : (ms.filter fun m => m.1 = name) = [] :=
          List.filter_eq_nil_iff.mpr fun x hx e =>
            hm (List.mem_map.mpr ⟨x, hx, of_decide_eq_true e⟩)
        rw [List.filter_cons_of_pos (by exact decide_eq_true rfl), hnone]
      · have hne : m.1 ≠ name := fun e => hm (List.mem_map.mpr ⟨(name, v), hv, e.symm⟩)
        rw [List.filter_cons_of_neg (by rwa [decide_eq_true_eq]), ih hms hv]
  rw [memberOf, hfilter]

/-- The members of an event. -/
def Event.members (event : Event) : List (String × Json) :=
  event.head ++ [("facts", .obj event.facts.entries)]

theorem Event.members_nodup (event : Event) : (event.members.map Prod.fst).Nodup := by
  show ["schema_version", "event_id", "event_type", "source", "host_id", "state", "severity",
    "fingerprint", "occurred_at", "facts"].Nodup
  decide

/-- The fields of the event stand among the members. -/
structure Event.FieldsIn (event : Event) (members : List (String × Json)) : Prop where
  schemaVersion : (memberOf members "schema_version").bind u16Of = some event.schemaVersion
  eventId : (memberOf members "event_id").bind stringOf = some event.eventId
  eventType : (memberOf members "event_type").bind stringOf = some event.eventType
  source : (memberOf members "source").bind stringOf = some event.source
  hostId : (memberOf members "host_id").bind stringOf = some event.hostId
  state : (memberOf members "state").bind stateOf = some event.state
  severity : (memberOf members "severity").bind severityOf = some event.severity
  fingerprint : (memberOf members "fingerprint").bind stringOf = some event.fingerprint
  occurredAt : (memberOf members "occurred_at").bind stringOf = some event.occurredAt
  facts : (memberOf members "facts").bind factsOf = some event.facts

/-- **What a decoded event is.** -/
theorem Event.ofMembers_eq_some {event : Event} {members : List (String × Json)} :
    ofMembers members = some event ↔ event.FieldsIn members := by
  constructor
  · intro h
    unfold ofMembers at h
    obtain ⟨_, h1, h⟩ := Option.bind_eq_some_iff.mp h
    obtain ⟨_, h2, h⟩ := Option.bind_eq_some_iff.mp h
    obtain ⟨_, h3, h⟩ := Option.bind_eq_some_iff.mp h
    obtain ⟨_, h4, h⟩ := Option.bind_eq_some_iff.mp h
    obtain ⟨_, h5, h⟩ := Option.bind_eq_some_iff.mp h
    obtain ⟨_, h6, h⟩ := Option.bind_eq_some_iff.mp h
    obtain ⟨_, h7, h⟩ := Option.bind_eq_some_iff.mp h
    obtain ⟨_, h8, h⟩ := Option.bind_eq_some_iff.mp h
    obtain ⟨_, h9, h⟩ := Option.bind_eq_some_iff.mp h
    obtain ⟨_, h10, h⟩ := Option.bind_eq_some_iff.mp h
    cases h
    exact ⟨h1, h2, h3, h4, h5, h6, h7, h8, h9, h10⟩
  · rintro ⟨h1, h2, h3, h4, h5, h6, h7, h8, h9, h10⟩
    unfold ofMembers
    rw [h1, h2, h3, h4, h5, h6, h7, h8, h9, h10]
    rfl

theorem u16Of_eq_some {v : Json} {n : Nat} (h : u16Of v = some n) :
    v = .num (.int n) ∧ n < 65536 := by
  unfold u16Of at h
  split at h
  · rename_i m
    split at h
    · rename_i hrange
      obtain ⟨k, rfl⟩ := Int.eq_ofNat_of_zero_le hrange.1
      rw [Int.toNat_natCast] at h
      cases h
      exact ⟨rfl, by exact_mod_cast hrange.2⟩
    · cases h
  · cases h

theorem u16Of_int {n : Nat} (h : n < 65536) : u16Of (.num (.int n)) = some n := by
  have hrange : (0 : Int) ≤ n ∧ (n : Int) < 65536 := ⟨Int.natCast_nonneg n, by exact_mod_cast h⟩
  rw [u16Of, if_pos hrange, Int.toNat_natCast]

/-- The members of an event are read as its fields. -/
theorem Event.fieldsIn_members {event : Event} (h : event.schemaVersion < 65536) :
    event.FieldsIn event.members := by
  have hfield : ∀ {α : Type} (name : String) (v : Json) (reader : Json → Option α) (a : α),
      (name, v) ∈ event.members → reader v = some a →
        (memberOf event.members name).bind reader = some a := by
    intro α name v reader a hv hreader
    rw [memberOf_of_nodup event.members_nodup hv, Option.bind_some, hreader]
  have hmem : ∀ i : Fin 10, event.members.get i ∈ event.members := fun i =>
    List.get_mem event.members i
  exact {
    schemaVersion := hfield _ _ _ _ (hmem 0) (u16Of_int h)
    eventId := hfield _ _ _ _ (hmem 1) rfl
    eventType := hfield _ _ _ _ (hmem 2) rfl
    source := hfield _ _ _ _ (hmem 3) rfl
    hostId := hfield _ _ _ _ (hmem 4) rfl
    state := hfield _ _ _ _ (hmem 5) (by
      show (EventState.fromStr event.state.asStr).toOption = _
      rw [EventState.fromStr_asStr]
      rfl)
    severity := hfield _ _ _ _ (hmem 6) (by
      show (Severity.fromStr event.severity.asStr).toOption = _
      rw [Severity.fromStr_asStr]
      rfl)
    fingerprint := hfield _ _ _ _ (hmem 7) rfl
    occurredAt := hfield _ _ _ _ (hmem 8) rfl
    facts := hfield _ _ _ _ (hmem 9)
      (congrArg some (SortedMap.ext (Json.sortMembers_sorted event.facts.sorted))) }

/-- **The members of an event decode to it.** -/
theorem Event.ofMembers_members {event : Event} (h : event.schemaVersion < 65536) :
    ofMembers event.members = some event := ofMembers_eq_some.mpr (fieldsIn_members h)

/-- What decodes from the members of an event, whatever stands for its facts, has its fields. -/
theorem Event.head_of_fieldsIn {e e' : Event} {rest : List (String × Json)}
    (hversion : e.schemaVersion < 65536) (h : e'.FieldsIn (e.head ++ rest)) : e'.head = e.head := by
  have hfield : ∀ {α : Type} {name : String} {reader : Json → Option α} {a b : α},
      (memberOf e.members name).bind reader = some a →
      (memberOf (e.head ++ rest) name).bind reader = some b →
      name ≠ "facts" → a = b := by
    intro α name reader a b ha hb hname
    obtain ⟨v, hv, ha⟩ := Option.bind_eq_some_iff.mp ha
    obtain ⟨w, hw, hb⟩ := Option.bind_eq_some_iff.mp hb
    have hmem : (name, v) ∈ e.head := by
      rcases List.mem_append.mp (mem_of_memberOf hv) with hmem | hmem
      · exact hmem
      · exact absurd (congrArg Prod.fst (List.mem_singleton.mp hmem)) hname
    rw [memberOf_of_mem (List.mem_append_left rest hmem) hw, ha] at hb
    exact Option.some.inj hb
  have he := fieldsIn_members hversion
  unfold head
  rw [hfield he.schemaVersion h.schemaVersion (by decide), hfield he.eventId h.eventId (by decide),
    hfield he.eventType h.eventType (by decide), hfield he.source h.source (by decide),
    hfield he.hostId h.hostId (by decide), hfield he.state h.state (by decide),
    hfield he.severity h.severity (by decide), hfield he.fingerprint h.fingerprint (by decide),
    hfield he.occurredAt h.occurredAt (by decide)]

/-! ## 2. The text of an event -/

section Texts

variable [FloatFormat]

theorem Event.readable_head {event : Event} (h : event.schemaVersion < 65536) :
    Json.ReadableMembers event.head :=
  ⟨Json.sound_int (by omega) (by omega), trivial, trivial, trivial, trivial, trivial, trivial,
    trivial, trivial, trivial⟩

/-- **What decodes from the text of an event** differs from it in the facts at most. -/
theorem Event.head_of_read {pretty : Bool} {e e' : Event} {r : List Char}
    (h : (Json.readObject (String.ofList (Json.render pretty 0 e.toJson ++ r))).bind ofMembers =
      some e') : e'.head = e.head := by
  obtain ⟨ms, hread, hms⟩ := Option.bind_eq_some_iff.mp h
  have hfields := ofMembers_eq_some.mp hms
  obtain ⟨fuel, r', hmembers⟩ := Json.readMembers_of_readObject hread
  have hversion : e.schemaVersion < 65536 := by
    obtain ⟨number, ms', hnumber, rfl⟩ := Json.readMembers_decimal pretty 0 hmembers
    obtain ⟨v, hv, hu16⟩ := Option.bind_eq_some_iff.mp hfields.schemaVersion
    obtain rfl := memberOf_of_mem List.mem_cons_self hv
    obtain ⟨hv, hlt⟩ := u16Of_eq_some hu16
    cases hv
    have hsame := Json.readNumber_decimal hnumber
    omega
  obtain ⟨rest, rfl⟩ := Json.readMembers_leading pretty 0 (by decide) _ r e.head true fuel ms r'
    (readable_head hversion) rfl hmembers
  exact head_of_fieldsIn hversion hfields

/-- The encoders are those of the JSON library. -/
instance jsonCodec : Codec where
  toVecPretty event := String.ofList (Json.render true 0 event.toJson)
  fromReader text := (Json.readObject text).bind Event.ofMembers
  postJson event := (Json.readObject event.toString).bind Event.ofMembers
  fromReader_head e e' h := by
    have hnewline : "\n" = String.ofList ['\n'] := rfl
    rw [hnewline, ← String.ofList_append] at h
    exact Event.head_of_read h
  postJson_head e e' h := by
    have htext : e.toString = String.ofList (Json.render false 0 e.toJson ++ []) := by
      rw [Json.render_compact, List.append_nil]
      rfl
    rw [htext] at h
    exact Event.head_of_read h

/-- The facts are values of the library: their objects are sorted, and their numbers read back. -/
def Event.Readable (event : Event) : Prop := Json.ReadableMembers event.facts.entries

end Texts

/-- No value of a fact is nested more than 125 levels deep. -/
def Event.Shallow (event : Event) : Prop := ∀ fact ∈ event.facts.entries, fact.2.depth ≤ 125

instance (event : Event) : Decidable event.Shallow :=
  inferInstanceAs (Decidable (∀ fact ∈ event.facts.entries, fact.2.depth ≤ 125))

section Texts

variable [FloatFormat] [Formats]

omit [Formats] in
theorem Event.readable_members {event : Event} (hversion : event.schemaVersion < 65536)
    (h : event.Readable) : Json.ReadableMembers event.members := by
  refine Json.readableMembers_iff.mpr fun m hm => ?_
  rcases List.mem_append.mp hm with hm | hm
  · exact Json.readableMembers_iff.mp (readable_head hversion) m hm
  · rw [List.mem_singleton.mp hm]
    exact ⟨event.facts.sorted, h⟩

omit [FloatFormat] [Formats] in
/-- The facts stand two levels deep in the document of an event. -/
theorem Event.depth_members {event : Event} :
    Json.depthMembers event.members + 1 < Json.documentDepth ↔ event.Shallow := by
  have hmembers : Json.depthMembers event.members = Json.depthMembers event.facts.entries + 1 := by
    show max 0 (max 0 (max 0 (max 0 (max 0 (max 0 (max 0 (max 0 (max 0 (max
      (Json.depthMembers event.facts.entries + 1) 0))))))))) = _
    simp only [Nat.zero_max, Nat.max_zero]
  rw [hmembers, Shallow, ← Json.depthMembers_le, Json.documentDepth]
  omega

omit [Formats] in
/-- **The file of an event decodes to it, or to nothing** if a fact is nested too deeply. -/
theorem Spool.fromReader_fileText {event : Event} (hversion : event.schemaVersion < 65536)
    (h : event.Readable) : Codec.fromReader (Spool.fileText event) =
      if event.Shallow then some event else none := by
  have htext : Spool.fileText event =
      String.ofList (Json.render true 0 (.obj event.members) ++ ['\n']) := String.ofList_append.symm
  show (Json.readObject (Spool.fileText event)).bind Event.ofMembers = _
  rw [htext, Json.readObject_render true (Event.readable_members hversion h) rfl]
  by_cases hshallow : event.Shallow
  · rw [if_pos (Event.depth_members.mpr hshallow), if_pos hshallow, Option.bind_some,
      Event.ofMembers_members hversion]
  · rw [if_neg fun hdepth => hshallow (Event.depth_members.mp hdepth), if_neg hshallow]
    rfl

/-- **What is read of the file of a valid event**. -/
theorem Spool.read_fileText {event : Event} (hv : event.Valid) (h : event.Readable) (name : String) :
    Spool.read ⟨name, Spool.fileText event⟩ =
      if event.Shallow then .ok event else .error (.decode name) := by
  have hversion : event.schemaVersion < 65536 := by
    rw [(Event.valid_iff.mp hv).1]
    decide
  have hv' : event.validate = .ok () := hv
  rw [Spool.read, Spool.fromReader_fileText hversion h]
  by_cases hshallow : event.Shallow
  · simp only [if_pos hshallow, hv']
  · simp only [if_neg hshallow]

/-! ## 3. Sending and replaying -/

structure SendArgs where
  eventType : String
  source : String
  host : String
  state : EventState
  severity : Severity
  fingerprint : String
  facts : String
  printOnly : Bool

inductive SendEventError where
  | facts
  | invalid (message : String)
  | spool (fault : Fault SpoolError)

/-- The event `send` builds, with the id and the time it draws; none if the facts do not parse. -/
def SendArgs.event (args : SendArgs) (eventId occurredAt : String) : Option Event :=
  (Json.readObject args.facts).map fun facts =>
    { schemaVersion := 1
      eventId := eventId
      eventType := args.eventType
      source := args.source
      hostId := args.host
      state := args.state
      severity := args.severity
      fingerprint := args.fingerprint
      occurredAt := occurredAt
      facts := mapOf facts }

/-- `beacon-agent send`: what it prints, and the spool it leaves. -/
def sendEvent (args : SendArgs) (eventId occurredAt : String) (d : Directory) :
    Except SendEventError String × Directory :=
  match args.event eventId occurredAt with
  | none => (.error .facts, d)
  | some event => match event.validate with
    | .error message => (.error (.invalid message), d)
    | .ok () =>
      if args.printOnly then (.ok (Codec.toVecPretty event), d)
      else match (Spool.enqueue event).run d with
        | .error fault => (.error (.spool fault), (Spool.enqueue event).final d)
        | .ok (_, d') => (.ok (Codec.toVecPretty event), d')

/-- One line of `beacon-agent replay`. -/
def replayLine (event : Event) : String :=
  s!"{event.eventId} {event.state.asStr} {event.severity.asStr} {event.eventType}"

/-- `beacon-agent replay`: the lines it prints. -/
def replayEvents (d : Directory) : Except SpoolError (List String) :=
  (Spool.list d).map fun events =>
    s!"{events.length} pending event(s)" :: events.map replayLine

omit [Formats] in
/-- **An event `send` builds** has values of the library for facts, which may be one level deeper
    than can be read again. -/
theorem SendArgs.readable_event (hnumbers : Json.SoundNumbers) {args : SendArgs}
    {eventId occurredAt : String} {event : Event} (h : args.event eventId occurredAt = some event) :
    event.Readable ∧ ∀ fact ∈ event.facts.entries, fact.2.depth ≤ 126 := by
  obtain ⟨members, hread, rfl⟩ := Option.map_eq_some_iff.mp h
  obtain ⟨hreadable, hdepth⟩ := Json.readable_of_readObject hnumbers hread
  refine ⟨Json.readableMembers_iff.mpr fun m hm => Json.readableMembers_iff.mp hreadable m
    (Json.mem_sortMembers hm), fun fact hfact => ?_⟩
  have hle : Json.depthMembers members ≤ 126 := by
    rw [Json.documentDepth] at hdepth
    omega
  exact Json.depthMembers_le.mp hle fact (Json.mem_sortMembers hfact)

/-! ## 4. Reading the spool -/

/-- **The spool can be listed exactly while no pending fact is nested too deeply.** -/
theorem list_iff_shallow {calls : List SpoolCall}
    (hread : ∀ event stat cut, SpoolCall.enqueue event stat cut ∈ calls → event.Readable) :
    (∃ es, Spool.list (spool.run calls).directory = .ok es) ↔
      ∀ event ∈ (spool.run calls).pending.rows, event.Shallow := by
  have hone : ∀ event ∈ (spool.run calls).pending.rows,
      Spool.read ⟨Spool.fileName event.eventId, Spool.fileText event⟩ =
        if event.Shallow then .ok event else .error (.decode (Spool.fileName event.eventId)) := by
    intro event he
    obtain ⟨hv, hreadable⟩ := pending_of_calls hread he
    exact Spool.read_fileText hv hreadable _
  rw [Spool.list, Spool.mapM_ok_iff]
  constructor
  · intro h event he
    obtain ⟨e, hok⟩ := h _ ((mem_paths_iff (refines_run calls)).mpr ⟨event, he, rfl⟩)
    rw [hone event he] at hok
    by_contra hdeep
    rw [if_neg hdeep] at hok
    cases hok
  · intro h f hf
    obtain ⟨event, he, rfl⟩ := (mem_paths_iff (refines_run calls)).mp hf
    exact ⟨event, by rw [hone event he, if_pos (h event he)]⟩

/-- While it cannot be listed, nothing is delivered and nothing replayed. -/
theorem blocked_of_list {d : Directory} (h : ¬ ∃ es, Spool.list d = .ok es) :
    (∃ error, replayEvents d = .error error) ∧
      ∀ {σ : Type} (post : Event → σ → Option Response × σ) (config : AgentConfig) (s : σ),
        ∃ error, drain post config d s = (.error error, d, s) := by
  obtain ⟨error, herror⟩ : ∃ error, Spool.list d = .error error := by
    cases hl : Spool.list d with
    | error error => exact ⟨error, rfl⟩
    | ok es => exact absurd ⟨es, hl⟩ h
  refine ⟨⟨error, by rw [replayEvents, herror]; rfl⟩, fun post config s => ?_⟩
  unfold drain
  split
  · exact ⟨_, rfl⟩
  · split
    · exact ⟨_, rfl⟩
    · split
      · exact ⟨_, rfl⟩
      · rw [herror]
        exact ⟨_, rfl⟩

/-- A valid event that is nested too deeply is accepted, and then the spool cannot be listed. -/
theorem accepted_unreadable {event : Event} (hv : event.Valid) (hreadable : event.Readable)
    (hdeep : ¬ event.Shallow) : ∃ d, (Spool.enqueue event).run .empty = .ok ((), d) ∧
      (∃ f, d.get? (Spool.fileName event.eventId) = some f ∧
        Codec.fromReader f.content = none) ∧ ∃ error, Spool.list d = .error error := by
  have hversion : event.schemaVersion < 65536 := by
    rw [(Event.valid_iff.mp hv).1]
    decide
  obtain ⟨d, hd⟩ := Spool.enqueue_of_fresh hv (d := .empty) rfl rfl
  obtain ⟨_, _, hget⟩ := Spool.run_enqueue hd
  have hfile := hget (Spool.fileName event.eventId)
  rw [if_pos rfl] at hfile
  refine ⟨d, hd, ⟨_, hfile, ?_⟩, ?_⟩
  · rw [Spool.fromReader_fileText hversion hreadable, if_neg hdeep]
  · cases hlist : Spool.list d with
    | error error => exact ⟨error, rfl⟩
    | ok es =>
      obtain ⟨hmem, _⟩ := Table.get?_eq_some.mp hfile
      obtain ⟨e, he⟩ := Spool.mapM_ok_iff.mp ⟨es, hlist⟩ _
        (Spool.mem_paths.mpr ⟨hmem, extension_of_valid hv⟩)
      rw [Spool.read_fileText hv hreadable, if_neg hdeep] at he
      cases he

/-- A send whose event is enqueued prints it. -/
theorem sendEvent_of_enqueue {args : SendArgs} {eventId occurredAt : String} {event : Event}
    {d d' : Directory} (hevent : args.event eventId occurredAt = some event)
    (hqueue : args.printOnly = false) (hrun : (Spool.enqueue event).run d = .ok ((), d')) :
    sendEvent args eventId occurredAt d = (.ok (Codec.toVecPretty event), d') := by
  have hv : event.validate = .ok () := (Spool.run_enqueue hrun).1
  simp only [sendEvent, hevent, hv, hqueue, hrun, Bool.false_eq_true, if_false]

end Texts

/-! ## 5. Sample events -/

namespace Sample

/-- Floating-point numbers, as far as the sample texts hold any: negative zero. -/
@[reducible] def floats : FloatFormat where
  reprint literal := if literal = "-0.0".toList then some "-0.0" else none

theorem sound_zero : @Json.Sound floats (.float "-0.0") :=
  @Json.Sound.mk floats _ (List.all_iff_forall_prop.mp (by decide)) (by decide +kernel)

theorem sound_floats : @Json.SoundNumbers floats := by
  let _ : FloatFormat := floats
  refine Json.soundNumbers_of sound_zero fun literal text h => ?_
  change (if literal = _ then some "-0.0" else none) = some text at h
  split at h
  · cases h
    exact sound_zero
  · cases h

/-- A null inside of arrays. -/
def nested : Nat → Json
  | 0 => .null
  | n + 1 => .arr [nested n]

/-- The arguments of `send` with one fact, nested as deeply as an argument may be. -/
def deepArgs : SendArgs where
  eventType := "backup.restic.stale"
  source := "restic-age-check"
  host := "backup"
  state := .firing
  severity := .critical
  fingerprint := "backup/restic/age"
  facts := String.ofList (Json.print (.obj [("a", nested 126)]))
  printOnly := false

/-- The event that is built of them. -/
def deepEvent : Event :=
  { event id1 "2026-01-01T00:00:00Z" .firing .critical with
    facts := ⟨[("a", nested 126)], List.pairwise_singleton _ _⟩ }

theorem readable_measured : @Event.Readable floats measured := by
  let _ : FloatFormat := floats
  exact ⟨Json.sound_int (by decide) (by decide), ⟨by decide, trivial,
    ⟨sound_zero, Json.sound_int (by decide) (by decide), trivial, trivial⟩, trivial⟩, trivial,
    trivial⟩

theorem shallow_measured : measured.Shallow := by decide

theorem valid_deepEvent : @Event.Valid formats deepEvent := by decide +kernel

theorem depth_nested (n : Nat) : (nested n).depth = n := by
  induction n with
  | zero => rfl
  | succ n ih =>
    show max (nested n).depth 0 + 1 = n + 1
    rw [ih, Nat.max_zero]

theorem readable_nested [FloatFormat] (n : Nat) : (nested n).Readable := by
  induction n with
  | zero => trivial
  | succ n ih => exact ⟨ih, trivial⟩

theorem readable_deepEvent [FloatFormat] : deepEvent.Readable := ⟨readable_nested 126, trivial⟩

theorem event_deepArgs [FloatFormat] :
    deepArgs.event id1 "2026-01-01T00:00:00Z" = some deepEvent := by
  have hmembers : Json.ReadableMembers [("a", nested 126)] := ⟨readable_nested 126, trivial⟩
  have hread := Json.readObject_render false (r := []) hmembers rfl
  rw [Json.render_compact, List.append_nil] at hread
  have hdepth : Json.depthMembers [("a", nested 126)] + 1 < Json.documentDepth := by
    show max (nested 126).depth 0 + 1 < 128
    rw [depth_nested]
    decide
  rw [if_pos hdepth] at hread
  show (Json.readObject (String.ofList (Json.print (.obj [("a", nested 126)])))).map _ = _
  rw [hread]
  rfl

end Sample

/-! ## 6. What is read back -/

/-- **An accepted event is read back exactly where no value of its facts is nested more than 125
    levels deep**: its file then decodes to it, and over every run of calls the spool is listed
    exactly while that holds of all pending events. While it does not hold, every drain and every
    replay fails. The facts of an event that `send` builds may be nested 126 levels deep. -/
theorem accepted_read_back [FloatFormat] [Formats] (hnumbers : Json.SoundNumbers) (calls : List SpoolCall)
    (hread : ∀ event stat cut, SpoolCall.enqueue event stat cut ∈ calls → event.Readable) :
    let s := spool.run calls
    (∀ event : Event, event.Readable → ∀ d d', (Spool.enqueue event).run d = .ok ((), d') →
      ((∃ f, d'.get? (Spool.fileName event.eventId) = some f ∧ Spool.read f = .ok event) ↔
        event.Shallow)) ∧
    ((∃ es, Spool.list s.directory = .ok es ∧ es.Perm s.pending.rows) ↔
      ∀ event ∈ s.pending.rows, event.Shallow) ∧
    ((∃ event ∈ s.pending.rows, ¬ event.Shallow) →
      (∃ error, Spool.list s.directory = .error error) ∧
      (∃ error, replayEvents s.directory = .error error) ∧
      ∀ {σ : Type} (post : Event → σ → Option Response × σ) (config : AgentConfig) (st : σ),
        ∃ error, drain post config s.directory st = (.error error, s.directory, st)) ∧
    (∀ (args : SendArgs) (eventId occurredAt : String) (event : Event),
      args.event eventId occurredAt = some event →
        event.Readable ∧ ∀ fact ∈ event.facts.entries, fact.2.depth ≤ 126) := by
  intro s
  have hlist := list_iff_shallow hread
  refine ⟨fun event hreadable d d' hrun => ?_, ⟨fun h => ?_, fun h => ?_⟩, fun h => ?_,
    fun args eventId occurredAt event => args.readable_event hnumbers⟩
  · obtain ⟨hv, _, hget⟩ := Spool.run_enqueue hrun
    rw [hget, if_pos rfl]
    constructor
    · rintro ⟨f, hf, hok⟩
      cases hf
      rw [Spool.read_fileText hv hreadable] at hok
      by_contra hdeep
      rw [if_neg hdeep] at hok
      cases hok
    · intro hshallow
      exact ⟨_, rfl, by rw [Spool.read_fileText hv hreadable, if_pos hshallow]⟩
  · obtain ⟨es, hes, _⟩ := h
    exact hlist.mp ⟨es, hes⟩
  · refine list_refines (refines_run calls) fun e he => ?_
    obtain ⟨hv, hreadable⟩ := pending_of_calls hread he
    have hread' := Spool.read_fileText hv hreadable (Spool.fileName e.eventId)
    rw [if_pos (h e he)] at hread'
    exact (Spool.read_ok hread').1
  · have hno : ¬ ∃ es, Spool.list s.directory = .ok es := by
      intro hok
      obtain ⟨event, he, hdeep⟩ := h
      exact hdeep (hlist.mp hok event he)
    refine ⟨?_, blocked_of_list hno⟩
    cases hl : Spool.list s.directory with
    | error error => exact ⟨error, rfl⟩
    | ok es => exact absurd ⟨es, hl⟩ hno

/-- The theorem at an event with facts of every kind. -/
theorem accepted_read_back_measured :
    let s := (@spool Sample.formats (@jsonCodec Sample.floats)).run
      [.enqueue Sample.measured true none]
    ∃ es, @Spool.list Sample.formats (@jsonCodec Sample.floats) s.directory = .ok es ∧
      es.Perm s.pending.rows := by
  have hcall : ∀ event stat cut,
      SpoolCall.enqueue event stat cut ∈ [.enqueue Sample.measured true none] →
        event = Sample.measured := by
    intro event stat cut h
    cases List.mem_singleton.mp h
    rfl
  have hread : ∀ event stat cut,
      SpoolCall.enqueue event stat cut ∈ [.enqueue Sample.measured true none] →
        @Event.Readable Sample.floats event := by
    intro event stat cut h
    rw [hcall event stat cut h]
    exact Sample.readable_measured
  have hshallow := fun e he => (@pending_of_calls Sample.formats (@jsonCodec Sample.floats)
    Event.Shallow _ (fun event stat cut h => by
      rw [hcall event stat cut h]
      exact Sample.shallow_measured) e he).2
  exact (@accepted_read_back Sample.floats Sample.formats Sample.sound_floats _ hread).2.1.mpr
    hshallow

/-- **An event that cannot be read back** is built by `send` of an argument that parses, passes
    `validate` and is queued; from then on the spool cannot be listed. -/
theorem deep_facts_accepted : ∃ d,
    @sendEvent Sample.floats Sample.formats Sample.deepArgs Sample.id1 "2026-01-01T00:00:00Z" .empty =
      (.ok (@Codec.toVecPretty (@jsonCodec Sample.floats) Sample.deepEvent), d) ∧
    (@Spool.enqueue Sample.formats (@jsonCodec Sample.floats) Sample.deepEvent).run .empty =
      .ok ((), d) ∧
    (∃ f, d.get? (Spool.fileName Sample.id1) = some f ∧
      @Codec.fromReader (@jsonCodec Sample.floats) f.content = none) ∧
    ∃ error, @Spool.list Sample.formats (@jsonCodec Sample.floats) d = .error error := by
  have hdeep : ¬ Sample.deepEvent.Shallow := by
    intro h
    have hle : (Sample.nested 126).depth ≤ 125 := h _ List.mem_cons_self
    rw [Sample.depth_nested] at hle
    exact absurd hle (by decide)
  obtain ⟨d, hd, hfile, hlist⟩ := @accepted_unreadable Sample.floats Sample.formats
    Sample.deepEvent Sample.valid_deepEvent (@Sample.readable_deepEvent Sample.floats) hdeep
  exact ⟨d, @sendEvent_of_enqueue Sample.floats Sample.formats _ _ _ _ _ _
    (@Sample.event_deepArgs Sample.floats) rfl hd, hd, hfile, hlist⟩

end Beacon
