/-
  File:      Beacon/Agent/Pending.lean
  Subject:   The spool as a map from event ids to events.

  What the spool is for: an event that was taken is pending until it is removed. The abstract
  state is the map of the events last taken under their ids, and it changes by what the calls of
  the spool answer. Under it lies the directory, where every call may be cut off between two steps
  by a failure or by the end of the process; opening the spool again changes no file of it. An
  event cut off after the rename is pending, one cut off before it has left a temporary file at
  most. A check that cannot look lets an enqueue replace a pending event: the run keeps account of
  every event taken, and map and account part there.

  * `refines_step` -- a call, cut off or not, keeps directory and map in step;
  * `list_refines` -- `list` reads the map;
  * `taken_run` -- the map holds what was taken, where no check of a pending id fails;
  * `spool_refines_map` -- **the directory refines the map** in those runs;
  * `pending_replaced` -- a check that fails, and a pending event is gone.
-/
import Beacon.Agent.Spool
import Beacon.Foundation.Machine

namespace Beacon

open Foundation

/-! ## 1. Event ids -/

/-- The characters of the texts `Uuid::parse_str` accepts: hex digits, hyphens, braces, and those
    of the prefix `urn:uuid:`. -/
def uuidChars : List Char := "0123456789abcdefABCDEF-\x7b\x7durn:uuid:".toList

/-- `Uuid::parse_str` accepts texts of these characters only. -/
def Formats.UuidTexts [Formats] : Prop :=
  ∀ s, Formats.uuidParseStr s = true → ∀ c ∈ s.toList, c ∈ uuidChars

namespace Spool

/-- **The files of an event lie directly in the pending directory.** -/
theorem isComponent_names {id : String} (h : ∀ c ∈ id.toList, c ∈ uuidChars) :
    Directory.IsComponent (fileName id) ∧ Directory.IsComponent (temporaryName id) := by
  have hslash : '/' ∉ id.toList := fun hin => absurd (h '/' hin) (by decide)
  have hcomponent : ∀ name : String, 4 ≤ name.toList.length → '/' ∉ name.toList →
      Directory.IsComponent name := by
    intro name hlen hname
    refine ⟨?_, ?_, ?_, hname⟩
    all_goals
      rintro rfl
      exact absurd hlen (by decide)
  constructor
  · refine hcomponent _ ?_ ?_
    · simp only [fileName, String.toList_append, List.length_append]
      have : (".".toList.length = 1) ∧ ("json".toList.length = 4) := by decide
      omega
    · simp only [fileName, String.toList_append, List.mem_append, not_or]
      exact ⟨⟨hslash, by decide⟩, by decide⟩
  · refine hcomponent _ ?_ ?_
    · simp only [temporaryName, String.toList_append, List.length_append]
      have : (".".toList.length = 1) ∧ ("tmp".toList.length = 3) := by decide
      omega
    · simp only [temporaryName, String.toList_append, List.mem_append, not_or]
      exact ⟨⟨⟨by decide, hslash⟩, by decide⟩, by decide⟩

theorem temporaryName_injective {i j : String} (h : temporaryName i = temporaryName j) : i = j := by
  have hl := congrArg String.toList h
  simp only [temporaryName, String.toList_append, List.append_cancel_right_eq,
    List.append_cancel_left_eq] at hl
  exact String.toList_inj.mp hl

end Spool

/-! ## 2. Calls and the map -/

/-- A call of the spool; `stat` is whether the check of an enqueue can look, `cut` the number of
    steps the call comes to, where it is cut off. -/
inductive SpoolCall where
  | enqueue (event : Event) (stat : Bool) (cut : Option Nat)
  | remove (event : Event) (cut : Option Nat)

/-- The events pending, by id: the one last taken under each. -/
abbrev Pending := Table String Event Event.eventId

/-- The map after a call that has done its work, or has not. -/
def Pending.after (m : Pending) (call : SpoolCall) : Bool → Pending
  | false => m
  | true => match call with
    | .enqueue event _ _ => m.upsert event
    | .remove event _ => m.remove event.eventId

/-- The account of the events taken after a call that has done its work, or has not. -/
def SpoolCall.account (call : SpoolCall) (taken : List Event) : Bool → List Event
  | false => taken
  | true => match call with
    | .enqueue event _ _ => taken ++ [event]
    | .remove event _ => taken.filter fun e => e.eventId ≠ event.eventId

/-- The directory; the map; and every event taken and not removed since. -/
structure SpoolState where
  directory : Directory
  pending : Pending
  taken : List Event

section Machine

variable [Formats] [Codec]

/-- The steps of a call on the directory. -/
def SpoolCall.prog : SpoolCall → Prog Directory SpoolError Unit
  | .enqueue event stat _ => Spool.enqueueWith stat event
  | .remove event _ => Prog.update fun d => Spool.remove d event

/-- Whether the call answers `Ok`, or would have but for the cut; and the directory it leaves. -/
def SpoolCall.perform (call : SpoolCall) (d : Directory) : Bool × Directory :=
  match call with
  | .enqueue _ _ none | .remove _ none => ((call.prog.run d).isOk, call.prog.final d)
  | .enqueue _ _ (some n) | .remove _ (some n) => (call.prog.done n d, call.prog.after n d)

/-- The event of a removal is one that `list` has returned, so it passes `validate`; the path of
    another may lie anywhere. -/
def SpoolCall.enabled : SpoolCall → Bool
  | .enqueue _ _ _ => true
  | .remove event _ => event.Valid

/-- One call. -/
def SpoolState.step (s : SpoolState) (call : SpoolCall) : Option SpoolState :=
  if call.enabled then
    some ⟨(call.perform s.directory).2, s.pending.after call (call.perform s.directory).1,
      call.account s.taken (call.perform s.directory).1⟩
  else none

/-- A spool that starts empty. -/
def spool : Machine SpoolState SpoolCall where
  init := ⟨.empty, .empty, []⟩
  step := SpoolState.step

/-- The event of an enqueue decodes from its own encoding. -/
def SpoolCall.Decodes : SpoolCall → Prop
  | .enqueue event _ _ => event.Valid → Codec.fromReader (Spool.fileText event) = some event
  | .remove _ _ => True

omit [Formats] [Codec] in
/-- **No check of a pending id fails** in the call: the condition under which the spool is a map
    of what was taken. -/
def SpoolCall.Checked (s : SpoolState) : SpoolCall → Prop
  | .enqueue event stat _ => stat = false → s.pending.get? event.eventId = none
  | .remove _ _ => True

/-- The directory holds the file of each pending event, and no other file `list` reads. -/
structure Pending.RefinedBy (m : Pending) (d : Directory) : Prop where
  file : ∀ id e, m.get? id = some e →
    d.get? (Spool.fileName id) = some ⟨Spool.fileName id, Spool.fileText e⟩
  sound : ∀ id e, m.get? id = some e → e.Valid
  only : ∀ name f, d.get? name = some f → Directory.extension name = some "json" →
    ∃ id e, m.get? id = some e ∧ name = Spool.fileName id

variable {s s' : SpoolState} {call : SpoolCall}

/-- A call that has done its work did it on the directory. -/
theorem run_of_took {d : Directory} (h : (call.perform d).1 = true) :
    call.prog.run d = .ok ((), (call.perform d).2) := by
  have hrun : ∀ {p : Prog Directory SpoolError Unit}, (p.run d).isOk = true →
      p.run d = .ok ((), p.final d) := by
    intro p hok
    cases hr : p.run d with
    | error fault => rw [hr] at hok; cases hok
    | ok r => rw [Prog.final_of_run hr]
  cases call with
  | enqueue event stat cut | remove event cut =>
    cases cut with
    | none => exact hrun h
    | some n =>
      obtain ⟨_, hr⟩ := Prog.run_of_done h
      exact hr

/-- A call that has not done its work leaves the files `list` reads as they are. -/
theorem kept_of_not_took {d : Directory} (h : (call.perform d).1 = false) {name : String}
    (hname : Directory.extension name = some "json") :
    (call.perform d).2.get? name = d.get? name := by
  cases call with
  | enqueue event stat cut =>
    cases cut with
    | none =>
      cases hr : (Spool.enqueueWith stat event).run d with
      | error fault => exact congrArg (fun d => Table.get? d name) (Spool.refused_enqueueWith hr).1
      | ok r =>
        have hok : ((Spool.enqueueWith stat event).run d).isOk = false := h
        rw [hr] at hok
        cases hok
    | some n =>
      exact Spool.unfinished_enqueueWith h fun e => Spool.temporaryName_ne hname e.symm
  | remove event cut =>
    cases hr : Spool.remove d event with
    | none =>
      refine congrArg (fun d => Table.get? d name) ?_
      cases cut with
      | none => simp only [SpoolCall.perform, SpoolCall.prog, Prog.update, Prog.final, hr]
      | some n =>
        cases n with
        | zero => rfl
        | succ n => simp only [SpoolCall.perform, SpoolCall.prog, Prog.update, Prog.after, hr]
    | some d' =>
      cases cut with
      | none =>
        simp only [SpoolCall.perform, SpoolCall.prog, Prog.update, Prog.run, hr] at h
        cases h
      | some n =>
        cases n with
        | zero => rfl
        | succ n =>
          simp only [SpoolCall.perform, SpoolCall.prog, Prog.update, Prog.done, hr] at h
          cases h

omit [Codec] in
/-- A valid id is no empty text. -/
theorem extension_of_valid {e : Event} (h : e.Valid) :
    Directory.extension (Spool.fileName e.eventId) = some "json" :=
  Spool.extension_fileName (Event.eventId_ne h)

section Steps

variable {d d' : Directory} {m : Pending} {event : Event}

theorem refines_kept (h : m.RefinedBy d)
    (hkept : ∀ name, Directory.extension name = some "json" → d'.get? name = d.get? name) :
    m.RefinedBy d' where
  file := fun id e he => by
    have hext := extension_of_valid (h.sound id e he)
    rw [show e.eventId = id from Table.key_of_get? he] at hext
    exact (hkept _ hext).trans (h.file id e he)
  sound := h.sound
  only := fun name f hf hext => h.only name f ((hkept name hext).symm.trans hf) hext

theorem refines_added (h : m.RefinedBy d) (hv : event.Valid)
    (hget : ∀ name, d'.get? name = if name = Spool.fileName event.eventId then
      some ⟨Spool.fileName event.eventId, Spool.fileText event⟩ else d.get? name) :
    Pending.RefinedBy (m.upsert event) d' := by
  have hpending : ∀ id e, (m.upsert event).get? id = some e →
      (event.eventId = id ∧ e = event) ∨ (event.eventId ≠ id ∧ m.get? id = some e) := by
    intro id e he
    rw [Table.get?_upsert] at he
    split at he
    · exact .inl ⟨‹_›, (Option.some.inj he).symm⟩
    · exact .inr ⟨‹_›, he⟩
  refine ⟨fun id e he => ?_, fun id e he => ?_, fun name f hf hext => ?_⟩
  · rcases hpending id e he with ⟨rfl, rfl⟩ | ⟨hne, hold⟩
    · exact (hget _).trans (if_pos rfl)
    · exact ((hget _).trans (if_neg fun hn => hne (Spool.fileName_injective hn).symm)).trans
        (h.file id e hold)
  · rcases hpending id e he with ⟨rfl, rfl⟩ | ⟨_, hold⟩
    · exact hv
    · exact h.sound id e hold
  · by_cases hname : name = Spool.fileName event.eventId
    · exact ⟨event.eventId, event, Table.get?_upsert_self m event, hname⟩
    · have hold : d.get? name = some f := ((hget name).trans (if_neg hname)).symm.trans hf
      obtain ⟨id, e, he, rfl⟩ := h.only name f hold hext
      refine ⟨id, e, (Table.get?_upsert_ne m event fun hid => hname ?_).trans he, rfl⟩
      rw [hid]

theorem refines_removed (h : m.RefinedBy d) {id : String}
    (hget : ∀ name, d'.get? name = if name = Spool.fileName id then none else d.get? name) :
    Pending.RefinedBy (m.remove id) d' := by
  have hpending : ∀ i e, (m.remove id).get? i = some e → i ≠ id ∧ m.get? i = some e := by
    intro i e he
    rw [Table.get?_remove] at he
    split at he
    · cases he
    · exact ⟨‹_›, he⟩
  refine ⟨fun i e he => ?_, fun i e he => h.sound i e (hpending i e he).2,
    fun name f hf hext => ?_⟩
  · obtain ⟨hne, hold⟩ := hpending i e he
    exact ((hget _).trans (if_neg fun hn => hne (Spool.fileName_injective hn))).trans
      (h.file i e hold)
  · by_cases hname : name = Spool.fileName id
    · rw [hget, if_pos hname] at hf
      cases hf
    · have hold : d.get? name = some f := ((hget name).trans (if_neg hname)).symm.trans hf
      obtain ⟨i, e, he, rfl⟩ := h.only name f hold hext
      refine ⟨i, e, ?_, rfl⟩
      rw [Table.get?_remove, if_neg fun hid => hname (by rw [hid])]
      exact he

end Steps

/-- A step, in its two outcomes. -/
theorem call_cases (hs : s.step call = some s') :
    s'.directory = (call.perform s.directory).2 ∧
      (((call.perform s.directory).1 = false ∧ s'.pending = s.pending ∧ s'.taken = s.taken) ∨
        (call.prog.run s.directory = .ok ((), s'.directory) ∧
          s'.pending = s.pending.after call true ∧ s'.taken = call.account s.taken true)) := by
  unfold SpoolState.step at hs
  split at hs
  · cases hs
    refine ⟨rfl, ?_⟩
    cases htook : (call.perform s.directory).1 with
    | false => exact .inl ⟨rfl, rfl, rfl⟩
    | true => exact .inr ⟨run_of_took htook, rfl, rfl⟩
  · cases hs

/-- An enqueue that answers `Ok` is taken. -/
theorem act_enqueue {event : Event} {stat : Bool} {d : Directory}
    (hrun : (Spool.enqueueWith stat event).run s.directory = .ok ((), d)) :
    spool.act s (.enqueue event stat none) =
      ⟨d, s.pending.upsert event, s.taken ++ [event]⟩ := by
  have hperform : (SpoolCall.enqueue event stat none).perform s.directory = (true, d) := by
    simp only [SpoolCall.perform, SpoolCall.prog, hrun, Prog.final_of_run hrun, Except.isOk,
      Except.toBool]
  refine Machine.act_of_step ?_
  show s.step (.enqueue event stat none) = _
  unfold SpoolState.step
  rw [hperform]
  rfl

/-- **A call keeps directory and map in step**, cut off or not. -/
theorem refines_step (h : s.pending.RefinedBy s.directory) (hs : s.step call = some s') :
    s'.pending.RefinedBy s'.directory := by
  obtain ⟨hd, ⟨htook, hpending, _⟩ | ⟨hrun, hpending, _⟩⟩ := call_cases hs
  · rw [hpending, hd]
    exact refines_kept h fun name => kept_of_not_took htook
  · rw [hpending]
    cases call with
    | enqueue event stat cut =>
      obtain ⟨hv, _, hget⟩ := Spool.run_enqueueWith hrun
      exact refines_added h hv hget
    | remove event cut =>
      simp only [SpoolCall.prog, Prog.update, Prog.run] at hrun
      cases hr : Spool.remove s.directory event with
      | none => rw [hr] at hrun; cases hrun
      | some d' =>
        rw [hr] at hrun
        cases hrun
        exact refines_removed h (Directory.get?_unlink hr)

theorem refines_empty : Pending.RefinedBy .empty .empty where
  file := fun _ _ h => by cases h
  sound := fun _ _ h => by cases h
  only := fun _ _ h => by cases h

theorem refines_run (calls : List SpoolCall) :
    (spool.run calls).pending.RefinedBy (spool.run calls).directory :=
  Machine.invariant (M := spool) (I := fun s => s.pending.RefinedBy s.directory) refines_empty
    (fun _ _ _ hI hs => refines_step hI hs) calls

/-- **A pending event was enqueued by a call of the run**, and passed `validate`. -/
theorem pending_of_calls {Q : Event → Prop} {calls : List SpoolCall}
    (h : ∀ e stat cut, SpoolCall.enqueue e stat cut ∈ calls → Q e) {e : Event}
    (he : e ∈ (spool.run calls).pending.rows) : e.Valid ∧ Q e := by
  refine ⟨(refines_run calls).sound e.eventId e (Table.get?_of_mem he), ?_⟩
  have hrun : ∀ e ∈ (spool.run calls).pending.rows, Q e := by
    refine Machine.invariant_along (M := spool) (I := fun s => ∀ e ∈ s.pending.rows, Q e)
      (P := fun _ c => c ∈ calls) (fun e he => (List.not_mem_nil he).elim) ?_
      (Machine.along_of_prefixes fun _ c _ hc => hc ▸ List.mem_append_right _ List.mem_cons_self)
    intro s call s' hI hmem hs e he
    obtain ⟨_, ⟨_, hpending, _⟩ | ⟨_, hpending, _⟩⟩ := call_cases hs
    · rw [hpending] at he
      exact hI e he
    · rw [hpending] at he
      cases call with
      | enqueue event stat cut =>
        rcases Table.mem_upsert he with rfl | hold
        · exact h e stat cut hmem
        · exact hI e hold
      | remove event cut => exact hI e (List.mem_of_mem_filter he)
  exact hrun e he

/-- A call under whose check no pending id fails adds to the map and to the account alike. -/
theorem taken_step (h : s.pending.RefinedBy s.directory) (hsame : s.taken = s.pending.rows)
    (hchecked : call.Checked s) (hs : s.step call = some s') : s'.taken = s'.pending.rows := by
  obtain ⟨_, ⟨_, hpending, htaken⟩ | ⟨hrun, hpending, htaken⟩⟩ := call_cases hs
  · rw [hpending, htaken, hsame]
  · rw [hpending, htaken, hsame]
    cases call with
    | enqueue event stat cut =>
      -- the id is not pending: the check saw no file of it, or was not asked for one
      have hfresh : s.pending.get? event.eventId = none := by
        cases stat with
        | false => exact hchecked rfl
        | true =>
          by_contra hne
          obtain ⟨e, he⟩ := Option.ne_none_iff_exists'.mp hne
          have hnone := (Spool.run_enqueueWith hrun).2.1 rfl
          rw [h.file _ e he] at hnone
          cases hnone
      exact (Table.rows_upsert_of_fresh hfresh).symm
    | remove event cut => rfl

/-- **Every event taken and not removed is pending**, each once, where no check of a pending id
    fails. -/
theorem taken_run {calls : List SpoolCall}
    (hchecked : spool.Along SpoolCall.Checked spool.init calls) :
    (spool.run calls).taken = (spool.run calls).pending.rows :=
  (Machine.invariant_along (M := spool)
    (I := fun s => s.pending.RefinedBy s.directory ∧ s.taken = s.pending.rows)
    ⟨refines_empty, rfl⟩
    (fun _ _ _ hI hP hs => ⟨refines_step hI.1 hs, taken_step hI.1 hI.2 hP hs⟩) hchecked).2

/-! ## 3. Reading the map -/

/-- The files `list` reads are those of the pending events. -/
theorem mem_paths_iff {d : Directory} {m : Pending} (h : m.RefinedBy d) {f : File} :
    f ∈ Spool.paths d ↔ ∃ e ∈ m.rows, f = ⟨Spool.fileName e.eventId, Spool.fileText e⟩ := by
  constructor
  · intro hf
    obtain ⟨hmem, hext⟩ := Spool.mem_paths.mp hf
    have hget := Table.get?_of_mem hmem
    obtain ⟨id, e, he, hname⟩ := h.only f.name f hget hext
    obtain rfl : e.eventId = id := Table.key_of_get? he
    have hfile := h.file _ e he
    rw [← hname, hget, hname] at hfile
    exact ⟨e, Table.mem_of_get? he, Option.some.inj hfile⟩
  · rintro ⟨e, he, rfl⟩
    exact Spool.mem_paths.mpr ⟨Table.mem_of_get? (h.file e.eventId e (Table.get?_of_mem he)),
      extension_of_valid (h.sound _ e (Table.get?_of_mem he))⟩

/-- **`list` returns the pending events**, each once and in full, where their files decode. -/
theorem list_refines {d : Directory} {m : Pending} (h : m.RefinedBy d)
    (hdecode : ∀ e ∈ m.rows, Codec.fromReader (Spool.fileText e) = some e) :
    ∃ es, Spool.list d = .ok es ∧ es.Perm m.rows := by
  have hread : ∀ e ∈ m.rows, Spool.read ⟨Spool.fileName e.eventId, Spool.fileText e⟩ = .ok e := by
    intro e he
    have hv : e.validate = .ok () := h.sound e.eventId e (Table.get?_of_mem he)
    simp only [Spool.read, hdecode e he, hv]
  have hback : ∀ f ∈ Spool.paths d, ∀ e, Spool.read f = .ok e → e ∈ m.rows ∧
      Spool.fileName e.eventId = f.name := by
    intro f hf e he
    obtain ⟨e', he', rfl⟩ := (mem_paths_iff h).mp hf
    rw [hread e' he'] at he
    cases he
    exact ⟨he', rfl⟩
  obtain ⟨es, hes⟩ := Spool.mapM_of_forall fun f hf => by
    obtain ⟨e, he, rfl⟩ := (mem_paths_iff h).mp hf
    exact ⟨e, hread e he⟩
  have hnames : es.map (fun e => Spool.fileName e.eventId) = (Spool.paths d).map File.name :=
    Spool.map_of_mapM (fun f hf e he => (hback f hf e he).2) hes
  have hrows : ∀ e ∈ es, e ∈ m.rows := by
    intro e he
    obtain ⟨f, hf, hr⟩ := Spool.mem_of_mapM hes he
    exact (hback f hf e hr).1
  refine ⟨es, hes, (List.perm_ext_iff_of_nodup ?_ (List.Nodup.of_map _ m.nodup)).mpr
    fun e => ⟨hrows e, fun he => ?_⟩⟩
  · refine List.Nodup.of_map (fun e : Event => Spool.fileName e.eventId) ?_
    rw [hnames]
    exact Spool.paths_nodup d
  · -- the file of a pending event is read, and its name tells the event
    have hin : Spool.fileName e.eventId ∈ (Spool.paths d).map File.name :=
      List.mem_map_of_mem ((mem_paths_iff h).mpr ⟨e, he, rfl⟩)
    rw [← hnames] at hin
    obtain ⟨b, hb, hsame⟩ := List.mem_map.mp hin
    have hid : b.eventId = e.eventId := Spool.fileName_injective hsame
    obtain rfl : b = e := List.inj_on_of_nodup_map m.nodup (hrows b hb) he hid
    exact hb

end Machine

/-- **The spool directory refines a map from event ids to events**, over every run of calls, each
    of which may be cut off after any of its steps, on a spool that starts empty and in which no
    check of a pending id fails: `list` returns the events taken and not removed since, each once
    and in full; an event whose id is pending is refused and changes nothing, cut off or not; the
    removal of a pending event deletes its file and no other; and the two files of a valid event
    lie directly in the pending directory, under names no other id has. -/
theorem spool_refines_map [Formats] [Codec] (huuid : Formats.UuidTexts) (calls : List SpoolCall)
    (hdecode : ∀ call ∈ calls, call.Decodes)
    (hchecked : spool.Along SpoolCall.Checked spool.init calls) :
    let s := spool.run calls
    (∃ es, Spool.list s.directory = .ok es ∧ es.Perm s.pending.rows ∧ es.Perm s.taken ∧
      (es.map Event.eventId).Nodup) ∧
    (∀ event : Event, s.pending.get? event.eventId ≠ none →
      ((Spool.enqueue event).run s.directory).isOk = false ∧
      (Spool.enqueue event).final s.directory = s.directory ∧
      ∀ n, (Spool.enqueue event).after n s.directory = s.directory) ∧
    (∀ event ∈ s.taken, ∃ d', Spool.remove s.directory event = some d' ∧
      (∀ name, d'.get? name = if name = Spool.fileName event.eventId then none
        else s.directory.get? name) ∧
      ∃ es', Spool.list d' = .ok es' ∧ es'.Perm (s.pending.remove event.eventId).rows) ∧
    (∀ e : Event, e.Valid → Directory.IsComponent (Spool.fileName e.eventId) ∧
      Directory.IsComponent (Spool.temporaryName e.eventId) ∧
      ∀ e' : Event, Spool.fileName e'.eventId ≠ Spool.temporaryName e.eventId ∧
        (e'.eventId ≠ e.eventId → Spool.fileName e'.eventId ≠ Spool.fileName e.eventId ∧
          Spool.temporaryName e'.eventId ≠ Spool.temporaryName e.eventId)) := by
  intro s
  have hrefines : s.pending.RefinedBy s.directory := refines_run calls
  have htaken : s.taken = s.pending.rows := taken_run hchecked
  have hpending : ∀ e ∈ s.pending.rows, Codec.fromReader (Spool.fileText e) = some e := by
    intro e he
    obtain ⟨hv, hd⟩ := pending_of_calls (Q := fun e => e.Valid →
      Codec.fromReader (Spool.fileText e) = some e) (fun e stat cut hc => hdecode _ hc) he
    exact hd hv
  refine ⟨?_, ?_, ?_, ?_⟩
  · obtain ⟨es, hes, hperm⟩ := list_refines hrefines hpending
    refine ⟨es, hes, hperm, ?_, (hperm.map Event.eventId).nodup_iff.mpr s.pending.nodup⟩
    rw [htaken]
    exact hperm
  · intro event hqueued
    obtain ⟨e, he⟩ := Option.ne_none_iff_exists'.mp hqueued
    have hqueued := hrefines.file _ e he
    cases hr : (Spool.enqueue event).run s.directory with
    | ok r =>
      obtain ⟨_, hfresh, _⟩ := Spool.run_enqueue hr
      rw [hqueued] at hfresh
      cases hfresh
    | error fault => exact ⟨rfl, Spool.refused_enqueue hr⟩
  · intro event hevent
    rw [htaken] at hevent
    have hqueued := hrefines.file _ event (Table.get?_of_mem hevent)
    obtain ⟨d', hd'⟩ : ∃ d', Spool.remove s.directory event = some d' := by
      unfold Spool.remove Directory.unlink
      rw [hqueued]
      exact ⟨_, rfl⟩
    have hget := Directory.get?_unlink hd'
    exact ⟨d', hd', hget, list_refines (refines_removed hrefines hget) fun e he =>
      hpending e (List.mem_of_mem_filter he)⟩
  · intro e hv
    have hchars := huuid e.eventId (Event.valid_iff.mp hv).2.2.1
    obtain ⟨hfile, htemporary⟩ := Spool.isComponent_names hchars
    exact ⟨hfile, htemporary, fun e' => ⟨Spool.fileName_ne_temporaryName _ _, fun hne =>
      ⟨fun h => hne (Spool.fileName_injective h), fun h => hne (Spool.temporaryName_injective h)⟩⟩⟩

/-! ## 4. Sample runs -/

namespace Sample

/-- An event is queued; the check of another cannot look and the call is cut off after three
    steps; it is made again. -/
def cutShort : List SpoolCall :=
  [.enqueue firingFirst true none, .enqueue firingSecond false (some 3),
    .enqueue firingSecond true none]

/-- An event is queued, and a second one of its id while the check cannot look. -/
def unseen : List SpoolCall :=
  [.enqueue firingFirst true none, .enqueue resolvedFirst false none]

theorem uuidTexts : @Formats.UuidTexts formats := by
  intro text h
  have hid : text = id1 ∨ text = id2 ∨ text = id3 := by
    simpa [Formats.uuidParseStr, or_assoc] using h
  rcases hid with rfl | rfl | rfl <;> exact List.all_iff_forall_prop.mp (by decide)

theorem decodes_known (calls : List SpoolCall)
    (h : ∀ e stat cut, SpoolCall.enqueue e stat cut ∈ calls → e ∈ known) :
    ∀ call ∈ calls, @SpoolCall.Decodes formats codec call := by
  intro call hcall
  cases call with
  | enqueue e stat cut => exact fun _ => fromReader_known (h e stat cut hcall)
  | remove e cut => exact trivial

end Sample

/-- The theorem at a check that cannot look, in an enqueue that is cut off. -/
theorem spool_refines_map_cut :
    let _ : Formats := Sample.formats
    let _ : Codec := Sample.codec
    let s := spool.run Sample.cutShort
    ∃ es, Spool.list s.directory = .ok es ∧ es.Perm s.pending.rows ∧ es.Perm s.taken ∧
      (es.map Event.eventId).Nodup := by
  intro _ _
  have hdecode := Sample.decodes_known Sample.cutShort fun e stat cut h => by
    simp only [Sample.cutShort, List.mem_cons, SpoolCall.enqueue.injEq, List.not_mem_nil,
      or_false] at h
    rcases h with ⟨rfl, _⟩ | ⟨rfl, _⟩ | ⟨rfl, _⟩ <;> simp [Sample.known]
  -- only the first event can be pending when the check fails
  have hfirst : ∀ e ∈ (spool.run [.enqueue Sample.firingFirst true none]).pending.rows,
      e = Sample.firingFirst := by
    intro e he
    refine (pending_of_calls (Q := fun e => e = Sample.firingFirst) (fun e stat cut h => ?_) he).2
    cases List.mem_singleton.mp h
    rfl
  have hchecked : spool.Along SpoolCall.Checked spool.init Sample.cutShort := by
    refine ⟨nofun, fun _ => ?_, nofun, trivial⟩
    refine Table.get?_eq_none.mpr fun e he => ?_
    rw [hfirst e he]
    decide
  exact (spool_refines_map Sample.uuidTexts Sample.cutShort hdecode hchecked).1

/-- **A pending event is replaced** while the check cannot look: both calls answer `Ok`, and
    `list` has one event of the two. -/
theorem pending_replaced :
    let _ : Formats := Sample.formats
    let _ : Codec := Sample.codec
    let before := spool.run [.enqueue Sample.firingFirst true none]
    let after := spool.run Sample.unseen
    (Formats.UuidTexts ∧ ∀ call ∈ Sample.unseen, call.Decodes) ∧
    before.pending.get? Sample.resolvedFirst.eventId = some Sample.firingFirst ∧
    ((Spool.enqueueWith false Sample.resolvedFirst).run before.directory).isOk = true ∧
    after.taken = [Sample.firingFirst, Sample.resolvedFirst] ∧
    Spool.list after.directory = .ok [Sample.resolvedFirst] ∧
    ¬ ∃ es, Spool.list after.directory = .ok es ∧ es.Perm after.taken := by
  intro _ _
  have hvalid := Sample.valid_known
  have hdecode := Sample.decodes_known Sample.unseen fun e stat cut h => by
    simp only [Sample.unseen, List.mem_cons, SpoolCall.enqueue.injEq, List.not_mem_nil,
      or_false] at h
    rcases h with ⟨rfl, _⟩ | ⟨rfl, _⟩ <;> simp [Sample.known]
  obtain ⟨d₁, h₁⟩ := Spool.enqueue_of_fresh (d := .empty) (hvalid _ (by simp [Sample.known]) :
    Sample.firingFirst.Valid) rfl rfl
  have htemporary : d₁.get? (Spool.temporaryName Sample.resolvedFirst.eventId) = none := by
    rw [(Spool.run_enqueue h₁).2.2, if_neg (Spool.fileName_ne_temporaryName _ _).symm]
    rfl
  obtain ⟨d₂, h₂⟩ : ∃ d, (Spool.enqueueWith false Sample.resolvedFirst).run d₁ = .ok ((), d) :=
    Spool.enqueueWith_of_fresh (hvalid _ (by simp [Sample.known])) nofun htemporary
  have hbefore : spool.run [.enqueue Sample.firingFirst true none] =
      ⟨d₁, Table.upsert .empty Sample.firingFirst, [Sample.firingFirst]⟩ := by
    show spool.act spool.init (.enqueue Sample.firingFirst true none) = _
    exact act_enqueue h₁
  have hafter : spool.run Sample.unseen =
      ⟨d₂, Table.upsert (Table.upsert .empty Sample.firingFirst) Sample.resolvedFirst,
        [Sample.firingFirst, Sample.resolvedFirst]⟩ := by
    rw [show Sample.unseen = [.enqueue Sample.firingFirst true none] ++
      [.enqueue Sample.resolvedFirst false none] from rfl, Machine.run_snoc, hbefore]
    exact act_enqueue h₂
  intro before after
  have hlist : Spool.list after.directory = .ok [Sample.resolvedFirst] := by
    obtain ⟨es, hes, hperm⟩ := list_refines (refines_run Sample.unseen) fun e he =>
      (pending_of_calls (Q := fun e => e.Valid → Codec.fromReader (Spool.fileText e) = some e)
        (fun e stat cut hc => hdecode _ hc) he).2 (((refines_run Sample.unseen).sound _ _
          (Table.get?_of_mem he)))
    rw [hafter] at hperm
    have hone : es.Perm [Sample.resolvedFirst] := hperm
    rw [List.perm_singleton.mp hone] at hes
    exact hes
  refine ⟨⟨Sample.uuidTexts, hdecode⟩, ?_, ?_, ?_, hlist, ?_⟩
  · show Table.get? before.pending _ = _
    rw [show before = _ from hbefore]
    exact Table.get?_upsert_self Table.empty Sample.firingFirst
  · show (Prog.run _ before.directory).isOk = true
    rw [show before = _ from hbefore, h₂]
    rfl
  · show after.taken = _
    rw [show after = _ from hafter]
  · rintro ⟨es, hes, hperm⟩
    rw [hlist] at hes
    cases hes
    rw [show after = _ from hafter] at hperm
    exact absurd hperm.length_eq (show ¬ 1 = 2 by decide)

end Beacon
