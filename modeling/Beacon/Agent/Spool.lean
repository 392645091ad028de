/-
  File:      Beacon/Agent/Spool.lean
  Subject:   The spool of an agent (`spool.rs`): `enqueue`, `list`, `remove`.

  The pending directory holds one file for each event, named by its id. `enqueue` writes a
  temporary file and renames it; `list` reads the files ending in `.json` in the order of their
  names; `remove` unlinks one. What serde_json writes and reads is a parameter (`Codec`): the
  file of an event, if it decodes, decodes to an event that differs in the facts at most.

  * `run_enqueue` -- an enqueue that succeeds adds the file of the event and nothing else;
  * `after_enqueue` -- **an enqueue cut off anywhere** leaves at most a temporary file, or the
    whole event;
  * `list_ok` -- what `list` returns is what the files hold.
-/
import Beacon.Foundation.Directory
import Beacon.Foundation.Program
import Beacon.Model
import Mathlib.Data.List.Sort

namespace Beacon

open Foundation

/-! ## 1. Files -/

/-- The third-party encoders: the text of a spool file, the event it decodes to, and the event
    the server decodes from the body the agent posts. Members other than the facts are texts and
    small integers, which read back. -/
class Codec where
  toVecPretty : Event → String
  fromReader : String → Option Event
  postJson : Event → Option Event
  fromReader_head : ∀ e e', fromReader (toVecPretty e ++ "\n") = some e' → e'.head = e.head
  postJson_head : ∀ e e', postJson e = some e' → e'.head = e.head

inductive SpoolError where
  | invalid (message : String)
  | alreadyQueued (eventId : String)
  | decode (name : String)
  deriving DecidableEq, Repr

def SpoolError.toString : SpoolError → String
  | .invalid message => message
  | .alreadyQueued eventId => "event " ++ eventId ++ " is already queued"
  | .decode name => "decode " ++ name

namespace Spool

/-- The file of an event. -/
def fileName (eventId : String) : String := eventId ++ "." ++ "json"

/-- The file it is written to first. -/
def temporaryName (eventId : String) : String := "." ++ eventId ++ "." ++ "tmp"

/-- What the file of an event holds. -/
def fileText [Codec] (event : Event) : String := Codec.toVecPretty event ++ "\n"

/-! ## 2. The operations -/

variable [Formats] [Codec]

/-- `enqueue`; `stat` is whether `destination.exists()` can look. A check that cannot reads as "not
    there": the call goes on, and its rename replaces a file that is there. -/
def enqueueWith (stat : Bool) (event : Event) : Prog Directory SpoolError Unit := do
  match event.validate with
  | .error message => Prog.raise (.invalid message)
  | .ok () =>
    let destination := fileName event.eventId
    let temporary := temporaryName event.eventId
    let queued ← Prog.ask fun d : Directory => stat && (d.get? destination).isSome
    if queued then Prog.raise (.alreadyQueued event.eventId)
    else do
      Prog.update fun d => Directory.createNew d temporary
      Prog.forEach (fun c => Prog.write fun d => Directory.append d temporary c)
        (fileText event).toList
      Prog.update fun d => Directory.rename d temporary destination

/-- An enqueue whose check can look. -/
def enqueue (event : Event) : Prog Directory SpoolError Unit := enqueueWith true event

/-- The event a file holds, if it decodes and passes `validate`. -/
def read (f : File) : Except SpoolError Event :=
  match Codec.fromReader f.content with
  | none => .error (.decode f.name)
  | some event => match event.validate with
    | .error message => .error (.invalid message)
    | .ok () => .ok event

omit [Formats] [Codec] in
/-- The files `list` reads, in the order of their names. -/
def paths (d : Directory) : List File :=
  (d.rows.filter fun f => Directory.extension f.name = some "json").insertionSort
    fun a b => a.name ≤ b.name

def list (d : Directory) : Except SpoolError (List Event) := (paths d).mapM read

omit [Formats] [Codec] in
def remove (d : Directory) (event : Event) : Option Directory :=
  Directory.unlink d (fileName event.eventId)

/-! ## 3. Names -/

omit [Formats] [Codec] in
theorem fileName_injective {i j : String} (h : fileName i = fileName j) : i = j := by
  have hl := congrArg String.toList h
  simp only [fileName, String.toList_append, List.append_cancel_right_eq] at hl
  exact String.toList_inj.mp hl

omit [Formats] [Codec] in
theorem extension_fileName {i : String} (h : i ≠ "") :
    Directory.extension (fileName i) = some "json" :=
  Directory.extension_append h (by decide)

omit [Formats] [Codec] in
theorem extension_temporaryName (i : String) :
    Directory.extension (temporaryName i) = some "tmp" := by
  refine Directory.extension_append (fun h => ?_) (by decide)
  have hl := congrArg String.toList h
  rw [String.toList_append] at hl
  exact absurd hl (by simp)

omit [Formats] [Codec] in
theorem fileName_ne_temporaryName (i j : String) : fileName i ≠ temporaryName j := by
  intro h
  have hl := congrArg (fun s => s.toList.getLast?) h
  simp [fileName, temporaryName, List.getLast?_cons] at hl

omit [Formats] [Codec] in
/-- A temporary file is never read. -/
theorem temporaryName_ne {i name : String} (h : Directory.extension name = some "json") :
    temporaryName i ≠ name := by
  intro e
  rw [← e, extension_temporaryName] at h
  exact absurd (Option.some.inj h) (by decide)

/-! ## 4. Enqueue -/

section Enqueue

variable {event : Event} {d d' : Directory}

omit [Formats] in
/-- From a new temporary file on, the file is filled and renamed. -/
theorem renamed (hc : Directory.createNew d (temporaryName event.eventId) = some d') :
    let filled := (fileText event).toList.foldl
      (fun d c => Directory.append d (temporaryName event.eventId) c) d'
    ∃ d'', Directory.rename filled (temporaryName event.eventId) (fileName event.eventId) =
        some d'' ∧
      ∀ n, d''.get? n = if n = fileName event.eventId then
        some ⟨fileName event.eventId, fileText event⟩ else d.get? n := by
  intro filled
  have hcreated := Directory.get?_createNew hc
  have hfilled : filled.get? (temporaryName event.eventId) =
      some ⟨temporaryName event.eventId, fileText event⟩ := by
    have hself := hcreated (temporaryName event.eventId)
    rw [if_pos rfl] at hself
    have h := Directory.get?_appendAll _ (fileText event).toList hself
    rw [String.ofList_toList, String.empty_append] at h
    exact h
  obtain ⟨d'', hd''⟩ : ∃ d'', Directory.rename filled (temporaryName event.eventId)
      (fileName event.eventId) = some d'' := by
    unfold Directory.rename
    rw [hfilled]
    exact ⟨_, rfl⟩
  refine ⟨d'', hd'', fun n => ?_⟩
  rw [Directory.get?_rename hfilled hd'']
  by_cases hn : n = fileName event.eventId
  · rw [if_pos hn, if_pos hn]
  · rw [if_neg hn, if_neg hn]
    by_cases ht : n = temporaryName event.eventId
    · rw [if_pos ht, ht]
      exact (Table.fresh_of_insert hc).symm
    · rw [if_neg ht, Directory.get?_appendAll_ne _ _ _ ht, hcreated, if_neg ht]

/-- The steps of an enqueue that succeeds: if its check could look, it saw no file of the event. -/
theorem enqueueWith_ok {stat : Bool} (h : (enqueueWith stat event).run d = .ok ((), d')) :
    event.Valid ∧ (stat = true → d.get? (fileName event.eventId) = none) ∧
      ∃ d₁, Directory.createNew d (temporaryName event.eventId) = some d₁ ∧
        Directory.rename ((fileText event).toList.foldl
          (fun d c => Directory.append d (temporaryName event.eventId) c) d₁)
          (temporaryName event.eventId) (fileName event.eventId) = some d' := by
  unfold enqueueWith at h
  cases hv : event.validate with
  | error m => rw [hv] at h; cases h
  | ok u =>
    rw [hv] at h
    simp only [Prog.run_bind, Prog.run_ask, Except.bind] at h
    cases hq : (stat && (d.get? (fileName event.eventId)).isSome) with
    | true => rw [hq] at h; cases h
    | false =>
      rw [hq] at h
      simp only [Bool.false_eq_true, if_false, Prog.run_bind] at h
      cases hc : Directory.createNew d (temporaryName event.eventId) with
      | none =>
        simp only [Prog.update, Prog.run, hc, Except.bind] at h
        cases h
      | some d₁ =>
        rw [Prog.run_update_some hc] at h
        simp only [Except.bind, Prog.run_forEach, Prog.update, Prog.run] at h
        split at h
        · cases h
        · rename_i d₂ hd₂
          cases h
          refine ⟨hv, fun hstat => ?_, d₁, rfl, hd₂⟩
          rw [hstat, Bool.true_and] at hq
          exact Option.not_isSome_iff_eq_none.mp (by rw [hq]; exact Bool.false_ne_true)

theorem enqueue_ok (h : (enqueue event).run d = .ok ((), d')) :
    event.Valid ∧ d.get? (fileName event.eventId) = none ∧
      ∃ d₁, Directory.createNew d (temporaryName event.eventId) = some d₁ ∧
        Directory.rename ((fileText event).toList.foldl
          (fun d c => Directory.append d (temporaryName event.eventId) c) d₁)
          (temporaryName event.eventId) (fileName event.eventId) = some d' := by
  obtain ⟨hv, hfresh, hsteps⟩ := enqueueWith_ok h
  exact ⟨hv, hfresh rfl, hsteps⟩

/-- **An enqueue that succeeds** was of a valid event and puts its file there; the event was not
    queued, if the check could look. -/
theorem run_enqueueWith {stat : Bool} (h : (enqueueWith stat event).run d = .ok ((), d')) :
    event.Valid ∧ (stat = true → d.get? (fileName event.eventId) = none) ∧
      ∀ n, d'.get? n = if n = fileName event.eventId then
        some ⟨fileName event.eventId, fileText event⟩ else d.get? n := by
  obtain ⟨hv, hfresh, d₁, hc, hrun⟩ := enqueueWith_ok h
  obtain ⟨d'', hd'', hget⟩ := renamed hc
  rw [hd''] at hrun
  cases hrun
  exact ⟨hv, hfresh, hget⟩

theorem run_enqueue (h : (enqueue event).run d = .ok ((), d')) :
    event.Valid ∧ d.get? (fileName event.eventId) = none ∧
      ∀ n, d'.get? n = if n = fileName event.eventId then
        some ⟨fileName event.eventId, fileText event⟩ else d.get? n := by
  obtain ⟨hv, hfresh, hget⟩ := run_enqueueWith h
  exact ⟨hv, hfresh rfl, hget⟩

/-- A valid event is enqueued where its temporary file is not there, and its file is not seen. -/
theorem enqueueWith_of_fresh {stat : Bool} (hv : event.Valid)
    (hf : stat = true → d.get? (fileName event.eventId) = none)
    (ht : d.get? (temporaryName event.eventId) = none) :
    ∃ d', (enqueueWith stat event).run d = .ok ((), d') := by
  obtain ⟨d₁, hc⟩ := Directory.createNew_of_fresh ht
  obtain ⟨d', hd', _⟩ := renamed hc
  refine ⟨d', ?_⟩
  have hv' : event.validate = .ok () := hv
  have hq : (stat && (d.get? (fileName event.eventId)).isSome) = false := by
    cases stat with
    | false => rfl
    | true => rw [hf rfl]; rfl
  unfold enqueueWith
  rw [hv']
  simp only [Prog.run_bind, Prog.run_ask, Except.bind, hq, Bool.false_eq_true, if_false,
    Prog.run_forEach]
  rw [Prog.run_update_some (f := fun d => Directory.createNew d _) hc]
  exact Prog.run_update_some (f := fun d => Directory.rename d _ _) hd'

theorem enqueue_of_fresh (hv : event.Valid) (hf : d.get? (fileName event.eventId) = none)
    (ht : d.get? (temporaryName event.eventId) = none) :
    ∃ d', (enqueue event).run d = .ok ((), d') :=
  enqueueWith_of_fresh hv (fun _ => hf) ht

/-- **An enqueue cut off before its last step** changes no file but its temporary one. -/
theorem unfinished_enqueueWith {stat : Bool} {n : Nat}
    (h : (enqueueWith stat event).done n d = false) {name : String}
    (hname : name ≠ temporaryName event.eventId) :
    ((enqueueWith stat event).after n d).get? name = d.get? name := by
  unfold enqueueWith at h ⊢
  cases hv : event.validate with
  | error m => rfl
  | ok u =>
    simp only [hv, Prog.done_ask_bind] at h
    simp only [Prog.after_ask_bind]
    cases hq : (stat && (d.get? (fileName event.eventId)).isSome) with
    | true => rfl
    | false =>
      simp only [hq, Bool.false_eq_true, if_false] at h ⊢
      cases n with
      | zero => exact congrArg (fun d => Table.get? d name) (Prog.after_zero _ _)
      | succ n =>
        cases hc : Directory.createNew d (temporaryName event.eventId) with
        | none =>
          refine congrArg (fun d => Table.get? d name) ?_
          simp only [Prog.update, Bind.bind, Prog.bind, Prog.after, hc]
        | some d₁ =>
          have hstep : ∀ k : Prog Directory SpoolError Unit,
              ((Prog.update fun d => Directory.createNew d (temporaryName event.eventId)) >>=
                fun _ => k).after (n + 1) d = k.after n d₁ ∧
              ((Prog.update fun d => Directory.createNew d (temporaryName event.eventId)) >>=
                fun _ => k).done (n + 1) d = k.done n d₁ := by
            intro k
            simp only [Prog.update, Bind.bind, Prog.bind, Prog.after, Prog.done, hc, and_self]
          rw [(hstep _).2, Prog.done_forEach_bind] at h
          rw [(hstep _).1, Prog.after_forEach_bind]
          have hkeep : ∀ cs : List Char, (cs.foldl (fun d c =>
              Directory.append d (temporaryName event.eventId) c) d₁).get? name = d.get? name := by
            intro cs
            rw [Directory.get?_appendAll_ne _ _ _ hname, Directory.get?_createNew hc,
              if_neg hname]
          split
          · exact hkeep _
          · -- the file is filled, so only the rename could be missing, and it is made
            rename_i hlt
            obtain ⟨m, hm⟩ : ∃ m, n - (fileText event).toList.length = m + 1 :=
              ⟨n - (fileText event).toList.length - 1, by omega⟩
            obtain ⟨d'', hd'', _⟩ := renamed hc
            rw [hm, decide_eq_true (by omega : (fileText event).toList.length ≤ n)] at h
            simp only [Prog.update, Prog.done, hd'', Bool.and_self] at h
            cases h

theorem unfinished_enqueue {n : Nat} (h : (enqueue event).done n d = false) {name : String}
    (hname : name ≠ temporaryName event.eventId) :
    ((enqueue event).after n d).get? name = d.get? name :=
  unfinished_enqueueWith h hname

/-- **An enqueue cut off anywhere** changes no file but its temporary one, or it added the whole
    event. -/
theorem after_enqueue (event : Event) (d : Directory) (n : Nat) {name : String}
    (hname : name ≠ temporaryName event.eventId) :
    ((enqueue event).after n d).get? name = d.get? name ∨
      (event.Valid ∧ name = fileName event.eventId ∧ d.get? name = none ∧
        ((enqueue event).after n d).get? name =
          some ⟨fileName event.eventId, fileText event⟩) := by
  cases hdone : (enqueue event).done n d with
  | false => exact .inl (unfinished_enqueue hdone hname)
  | true =>
    obtain ⟨_, hrun⟩ := Prog.run_of_done hdone
    obtain ⟨hv, hfresh, hget⟩ := run_enqueue hrun
    rw [hget]
    by_cases hn : name = fileName event.eventId
    · exact .inr ⟨hv, hn, by rw [hn]; exact hfresh, if_pos hn⟩
    · exact .inl (if_neg hn)

/-- **An enqueue that is refused** changes nothing, cut off or not. -/
theorem refused_enqueueWith {stat : Bool} {fault : Fault SpoolError}
    (h : (enqueueWith stat event).run d = .error fault) :
    (enqueueWith stat event).final d = d ∧ ∀ n, (enqueueWith stat event).after n d = d := by
  unfold enqueueWith at h ⊢
  cases hv : event.validate with
  | error m => exact ⟨rfl, fun _ => rfl⟩
  | ok u =>
    simp only [hv, Prog.run_bind, Prog.run_ask, Except.bind] at h
    simp only [Prog.after_ask_bind]
    cases hq : (stat && (d.get? (fileName event.eventId)).isSome) with
    | true =>
      refine ⟨?_, fun _ => rfl⟩
      simp only [Prog.ask, Bind.bind, Prog.bind, Prog.final, hq, if_true]
      rfl
    | false =>
      simp only [hq, Bool.false_eq_true, if_false, Prog.run_bind] at h ⊢
      cases hc : Directory.createNew d (temporaryName event.eventId) with
      | none =>
        refine ⟨?_, fun n => ?_⟩
        · simp only [Prog.ask, Prog.update, Bind.bind, Prog.bind, Prog.final, hq,
            Bool.false_eq_true, if_false, hc]
        · cases n with
          | zero => exact Prog.after_zero _ _
          | succ n => simp only [Prog.update, Bind.bind, Prog.bind, Prog.after, hc]
      | some d₁ =>
        -- nothing can go wrong any more
        obtain ⟨d'', hd'', _⟩ := renamed hc
        rw [Prog.run_update_some (f := fun d => Directory.createNew d _) hc] at h
        simp only [Except.bind, Prog.run_forEach] at h
        rw [Prog.run_update_some (f := fun d => Directory.rename d _ _) hd''] at h
        cases h

theorem refused_enqueue {fault : Fault SpoolError} (h : (enqueue event).run d = .error fault) :
    (enqueue event).final d = d ∧ ∀ n, (enqueue event).after n d = d :=
  refused_enqueueWith h

/-- An enqueue changes no file that is there, except temporary ones. -/
theorem kept_enqueue (h : (enqueue event).run d = .ok ((), d')) {name : String} {f : File}
    (hf : d.get? name = some f) : d'.get? name = some f := by
  obtain ⟨_, hfresh, hget⟩ := run_enqueue h
  rw [hget, if_neg]
  · exact hf
  · intro hname
    rw [hname, hfresh] at hf
    cases hf

theorem kept_after (event : Event) (n : Nat) {name : String} {f : File}
    (hname : name ≠ temporaryName event.eventId) (hf : d.get? name = some f) :
    ((enqueue event).after n d).get? name = some f := by
  rcases after_enqueue event d n hname with hsame | ⟨_, _, hnone, _⟩
  · rw [hsame]
    exact hf
  · rw [hf] at hnone
    cases hnone

end Enqueue

/-! ## 5. List -/

section Loop

variable {α β γ ε : Type} {f : α → Except ε β} {l : List α} {bs : List β}

omit [Formats] [Codec]

theorem mapM_cons_ok {a : α} : (a :: l).mapM f = .ok bs ↔
    ∃ b bs', f a = .ok b ∧ l.mapM f = .ok bs' ∧ bs = b :: bs' := by
  rw [List.mapM_cons]
  cases f a with
  | error e => exact ⟨nofun, fun ⟨_, _, h, _⟩ => by cases h⟩
  | ok b =>
    cases l.mapM f with
    | error e => exact ⟨nofun, fun ⟨_, _, _, h, _⟩ => by cases h⟩
    | ok bs' =>
      constructor
      · intro h
        cases h
        exact ⟨b, bs', rfl, rfl, rfl⟩
      · rintro ⟨_, _, hb, hbs, rfl⟩
        cases hb
        cases hbs
        rfl

/-- What a reading loop returns comes from what it read. -/
theorem mem_of_mapM (h : l.mapM f = .ok bs) {b : β} (hb : b ∈ bs) : ∃ a ∈ l, f a = .ok b := by
  induction l generalizing bs with
  | nil =>
    cases h
    cases hb
  | cons a l ih =>
    obtain ⟨b', bs', hb', hbs', rfl⟩ := mapM_cons_ok.mp h
    rcases List.mem_cons.mp hb with rfl | hb
    · exact ⟨a, List.mem_cons_self, hb'⟩
    · obtain ⟨a', ha', h'⟩ := ih hbs' hb
      exact ⟨a', List.mem_cons_of_mem _ ha', h'⟩

/-- What each reading keeps, the loop keeps in order. -/
theorem map_of_mapM {g : α → γ} {k : β → γ} (hk : ∀ a ∈ l, ∀ b, f a = .ok b → k b = g a)
    (h : l.mapM f = .ok bs) : bs.map k = l.map g := by
  induction l generalizing bs with
  | nil =>
    cases h
    rfl
  | cons a l ih =>
    obtain ⟨b, bs', hb, hbs', rfl⟩ := mapM_cons_ok.mp h
    rw [List.map_cons, List.map_cons, hk a List.mem_cons_self b hb,
      ih (fun a ha => hk a (List.mem_cons_of_mem _ ha)) hbs']

theorem mapM_of_forall (h : ∀ a ∈ l, ∃ b, f a = .ok b) : ∃ bs, l.mapM f = .ok bs := by
  induction l with
  | nil => exact ⟨[], rfl⟩
  | cons a l ih =>
    obtain ⟨b, hb⟩ := h a List.mem_cons_self
    obtain ⟨bs, hbs⟩ := ih fun a ha => h a (List.mem_cons_of_mem _ ha)
    exact ⟨b :: bs, mapM_cons_ok.mpr ⟨b, bs, hb, hbs, rfl⟩⟩

/-- A reading loop goes through exactly where every reading does. -/
theorem mapM_ok_iff : (∃ bs, l.mapM f = .ok bs) ↔ ∀ a ∈ l, ∃ b, f a = .ok b := by
  refine ⟨fun h => ?_, mapM_of_forall⟩
  induction l with
  | nil => exact fun a ha => (List.not_mem_nil ha).elim
  | cons x l ih =>
    obtain ⟨bs, hbs⟩ := h
    obtain ⟨b, bs', hb, hbs', _⟩ := mapM_cons_ok.mp hbs
    exact List.forall_mem_cons.mpr ⟨⟨b, hb⟩, ih ⟨bs', hbs'⟩⟩

end Loop

/-- Every file `list` would read is the file of an event. -/
def Clean (d : Directory) : Prop :=
  ∀ name f, d.get? name = some f → Directory.extension name = some "json" →
    ∃ e : Event, f = ⟨fileName e.eventId, fileText e⟩

omit [Formats] [Codec] in
theorem mem_paths {d : Directory} {f : File} :
    f ∈ paths d ↔ f ∈ d.rows ∧ Directory.extension f.name = some "json" := by
  unfold paths
  rw [List.mem_insertionSort, List.mem_filter, decide_eq_true_eq]

omit [Formats] [Codec] in
theorem paths_nodup (d : Directory) : ((paths d).map File.name).Nodup := by
  have hperm : ((paths d).map File.name).Perm ((d.rows.filter fun f =>
      Directory.extension f.name = some "json").map File.name) :=
    (List.perm_insertionSort _ _).map _
  exact hperm.nodup_iff.mpr ((List.filter_sublist.map _).nodup d.nodup)

theorem read_ok {f : File} {e : Event} (h : read f = .ok e) :
    Codec.fromReader f.content = some e ∧ e.Valid := by
  unfold read at h
  split at h
  · cases h
  · split at h
    · cases h
    · rename_i event hd u hv
      cases h
      exact ⟨hd, hv⟩

omit [Formats] in
theorem clean_empty : Clean .empty := fun _ _ h => by cases h

/-- **What `list` returns**, of a directory of event files: for each file the event it decodes
    to, under the id in the file's name. -/
theorem list_ok {d : Directory} {es : List Event} (hd : Clean d) (h : list d = .ok es) :
    es.map (fun e => fileName e.eventId) = (paths d).map File.name ∧
      ∀ e ∈ es, ∃ f ∈ d.rows, f.name = fileName e.eventId ∧
        Codec.fromReader f.content = some e ∧ e.Valid := by
  have hone : ∀ f ∈ paths d, ∀ e, read f = .ok e → fileName e.eventId = f.name := by
    intro f hf e he
    obtain ⟨hmem, hext⟩ := mem_paths.mp hf
    obtain ⟨e₀, rfl⟩ := hd f.name f (Table.get?_of_mem hmem) hext
    rw [(Event.same_of_head (Codec.fromReader_head e₀ e (read_ok he).1)).1]
  refine ⟨map_of_mapM hone h, fun e he => ?_⟩
  obtain ⟨f, hf, hread⟩ := mem_of_mapM h he
  obtain ⟨hdecode, hv⟩ := read_ok hread
  exact ⟨f, (mem_paths.mp hf).1, (hone f hf e hread).symm, hdecode, hv⟩

/-- The events `list` returns have distinct ids. -/
theorem list_nodup {d : Directory} {es : List Event} (hd : Clean d) (h : list d = .ok es) :
    (es.map Event.eventId).Nodup := by
  have hnodup := paths_nodup d
  rw [← (list_ok hd h).1] at hnodup
  exact List.Nodup.of_map fileName (by rwa [List.map_map])

end Spool

/-! ## 6. Sample files -/

namespace Sample

/-- The pretty text of an event without facts. -/
def prettyText (e : Event) : String :=
  "\x7b\n" ++ String.join (e.head.map fun m =>
    "  " ++ (Json.str m.1).text ++ ": " ++ m.2.text ++ ",\n") ++ "  \"facts\": \x7b\x7d\n\x7d"

def firingFirst : Event := event id1 "2026-01-01T00:00:00Z" .firing .critical
def firingSecond : Event := event id2 "2026-01-01T00:00:00Z" .firing .critical
def resolvedFirst : Event := event id1 "2026-01-01T00:01:00Z" .resolved .critical
def resolvedSecond : Event := event id2 "2026-01-01T00:01:00Z" .resolved .critical

/-- The events the sample encoders know. -/
def known : List Event := [firingFirst, firingSecond, resolvedFirst, resolvedSecond]

theorem known_texts : (known.map prettyText).Nodup := by decide +kernel

theorem prettyText_ne_toString (e f : Event) : prettyText e ≠ f.toString := by
  intro h
  have hpretty : (prettyText e).toList[1]? = some '\n' := by
    unfold prettyText
    simp [String.toList_append]
  have hcompact : f.toString.toList[1]? = some '"' := by
    unfold Event.toString Json.text
    rw [String.toList_ofList]
    rfl
  rw [h, hcompact] at hpretty
  cases hpretty

def toVecPretty (e : Event) : String :=
  if e.toString ∈ known.map Event.toString then prettyText e else e.toString

def fromReader (text : String) : Option Event := known.find? fun e => prettyText e ++ "\n" = text

theorem fromReader_toVecPretty {e e' : Event} (h : fromReader (toVecPretty e ++ "\n") = some e') :
    e'.head = e.head := by
  have hfound := List.find?_some h
  have htext : prettyText e' = toVecPretty e := by
    rw [decide_eq_true_eq, String.append_left_inj] at hfound
    exact hfound
  unfold toVecPretty at htext
  split at htext
  · rename_i hmem
    obtain ⟨k, hk, hke⟩ := List.mem_map.mp hmem
    have hhead := Event.head_of_toString hke
    have hpretty : prettyText e' = prettyText k := by
      rw [htext, prettyText, prettyText, hhead]
    rw [List.inj_on_of_nodup_map known_texts (List.mem_of_find?_eq_some h) hk hpretty, hhead]
  · exact absurd htext (prettyText_ne_toString e' e)

theorem fromReader_known {e : Event} (h : e ∈ known) : fromReader (toVecPretty e ++ "\n") = some e := by
  have htext : toVecPretty e = prettyText e := if_pos (List.mem_map_of_mem h)
  rw [htext]
  unfold fromReader
  cases hf : known.find? fun k => prettyText k ++ "\n" = prettyText e ++ "\n" with
  | none => exact absurd (decide_eq_true rfl) (List.find?_eq_none.mp hf e h)
  | some k =>
    have hsame := List.find?_some hf
    rw [decide_eq_true_eq, String.append_left_inj] at hsame
    exact congrArg some (List.inj_on_of_nodup_map known_texts (List.mem_of_find?_eq_some hf) h hsame)

theorem valid_known : ∀ e ∈ known, @Event.Valid formats e := by decide +kernel

/-- The encoders on the sample events. -/
@[reducible] def codec : Codec where
  toVecPretty := toVecPretty
  fromReader := fromReader
  postJson := some
  fromReader_head _ _ := fromReader_toVecPretty
  postJson_head _ _ h := by
    cases h
    rfl

end Sample

end Beacon
