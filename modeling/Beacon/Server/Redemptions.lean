/-
  File:      Beacon/Server/Redemptions.lean
  Subject:   The credentials directory under redemptions, requests and an operator.

  Any number of redemptions run at once, each one statement at a time; the operator creates
  codes and replaces, overwrites and removes credential files; requests list the directory, read
  what they listed file by file, and are served; the process may end at any point. Redemptions
  share one database and one directory, and the directory is what the requests are checked
  against.

  A redemption that works on files holds the writer's lock, so there is never more than one, and
  what it wrote so far stands in its temporary file, under no other name:

  * `Turn`, `turn_of_next` -- what one statement of a redemption does, wherever it is;
  * `Effect`, `effect_of_step` -- what every action does;
  * `staged_run` -- **in every run the redemptions are at their stages**.
-/
import Beacon.Server.Enrollment
import Beacon.Server.Http

namespace Beacon

open Foundation
open Snapshot (Access)
open Sessions (Call)

/-! ## 1. The system -/

/-- What an operator does to a file of the directory. -/
inductive Change where
  | replace (name : String) (node : Node)
  | overwrite (name : String) (text : Option String)
  | remove (name : String)

def Change.name : Change → String
  | .replace name _ => name
  | .overwrite name _ => name
  | .remove name => name

def Change.apply : Change → Links → Option Links
  | .replace name node, d => some (d.put name node)
  | .overwrite name text, d => some (d.overwrite name text)
  | .remove name, d => d.unlink name

section Changes

variable {c : Change} {d d' : Links} {name : String}

/-- A change renews its own name at most. -/
theorem Change.renews (hd : c.apply d = some d') : d.Renews d' c.name := by
  cases c with
  | replace n node =>
    cases hd
    exact Links.renews_put node
  | overwrite n text =>
    cases hd
    exact Links.renews_overwrite text
  | remove n => exact Links.renews_unlink hd

/-- A change is invisible under every other name of another node. -/
theorem Change.get?_ne (hd : c.apply d = some d') (hname : name ≠ c.name)
    (hne : ∀ k, d.node? c.name = some k → d.node? name ≠ some k) : d'.get? name = d.get? name := by
  cases c with
  | replace n node =>
    cases hd
    exact (Links.get?_put node name).trans (if_neg hname)
  | overwrite n text =>
    cases hd
    exact Links.get?_overwrite_ne text hname hne
  | remove n => exact (Links.get?_unlink hd name).trans (if_neg hname)

/-- A file that shares its node with no other is not concerned with changes of other names. -/
theorem Change.frame (hd : c.apply d = some d') (hname : name ≠ c.name) (hsole : d.Sole name) :
    d'.get? name = d.get? name ∧ d'.Sole name :=
  ⟨Change.get?_ne hd hname fun k hk hk' => hname (hsole c.name k hk' hk).symm,
    Links.sole_of_renews hsole (Change.renews hd) hname⟩

end Changes

/-- Where a request stands: not looked up yet, with its look-up, answered, or lost with the
    process. -/
inductive Lookup where
  | waiting
  | scanning (scan : Scan)
  | done (authorized : Bool) (response : Response)
  | lost

/-- What the look-up of a request came to. -/
def Lookup.verdict : Lookup → Option Bool
  | .scanning (.answered authorized) => some authorized
  | .done authorized _ => some authorized
  | _ => none

def Lookup.crash : Lookup → Lookup
  | .scanning _ => .lost
  | l => l

/-- The database and the directory with the redemptions on them, the tables of the events, and
    the requests. -/
structure Site (ι κ : Type) where
  redemptions : Sessions.State ι Enrollments Links String String
  db : Db
  lookups : κ → Lookup

inductive SiteAction (ι κ : Type) where
  | enroll (i : ι)
  | next (i : ι)
  | fail (i : ι)
  | crash
  | create (c : Creation)
  | operator (c : Change)
  | list (q : κ) (names : List String)
  | read (q : κ)
  | lose (q : κ)
  | serve (q : κ) (env : Handling)

/-- What a run is about: the store and its tables at the start, the redemptions, the requests. -/
structure Scenario (ι κ : Type) where
  store : ServerEventStore
  db : Db
  redeems : ι → EnrollmentRequest
  asks : κ → Inquiry

section Site

variable {ι κ : Type} [DecidableEq ι] [DecidableEq κ]

def Site.setLookup (s : Site ι κ) (q : κ) (l : Lookup) : Site ι κ :=
  { s with lookups := Function.update s.lookups q l }

/-- The directory. -/
abbrev Site.disk (s : Site ι κ) : Links := s.redemptions.disk

/-- The enrollments table. -/
abbrev Site.codes (s : Site ι κ) : Enrollments := s.redemptions.latest

variable [Sha256] [Formats] (sc : Scenario ι κ)

def Scenario.step (s : Site ι κ) : SiteAction ι κ → Option (Site ι κ)
  | .enroll i => (s.redemptions.start i (consumeEnrollment (sc.redeems i))).map fun st =>
    { s with redemptions := st }
  | .next i => (s.redemptions.next i).map fun st => { s with redemptions := st }
  | .fail i => (s.redemptions.fail i).map fun st => { s with redemptions := st }
  | .crash => some { s with
      redemptions := s.redemptions.crash
      lookups := fun q => (s.lookups q).crash }
  | .create c =>
    (s.redemptions.publish (createEnrollment c)).map fun st => { s with redemptions := st }
  | .operator c =>
    -- a file on its way to a credential is none of the operator's files
    if Directory.extension c.name = some "tmp" then none
    else (c.apply s.disk).map fun d => { s with redemptions := { s.redemptions with disk := d } }
  | .list q names =>
    match s.lookups q with
    | .waiting =>
      if names.Perm s.disk.names then
        some (s.setLookup q (.scanning (match (sc.asks q).presented with
          | none => .answered false
          | some _ => .reading (listing s.disk names) false)))
      else none
    | _ => none
  | .read q =>
    match s.lookups q, (sc.asks q).presented with
    | .scanning scan, some token => some (s.setLookup q (.scanning (scan.step token s.disk)))
    | _, _ => none
  | .lose q =>
    match s.lookups q with
    | .scanning (.reading _ _) => some (s.setLookup q (.scanning (.answered false)))
    | _ => none
  | .serve q env =>
    match s.lookups q with
    | .scanning (.answered authorized) =>
      let answer := (sc.asks q).respond sc.store { env with authorized } s.db
      some { s.setLookup q (.done authorized answer.1) with db := answer.2 }
    | _ => none

/-- The server with no code, no credential and nothing begun. -/
def Scenario.site : Machine (Site ι κ) (SiteAction ι κ) where
  init :=
    { redemptions := ⟨.empty, 0, none, .empty, fun _ => .waiting⟩
      db := sc.db
      lookups := fun _ => .waiting }
  step := sc.step

end Site

/-! ## 2. How far a redemption is -/

/-- What a redemption that has written to the table does next. -/
inductive Progress where
  | probe
  | folder
  | create
  | permit
  | fill (n : Nat)
  | sync
  | link
  | clean
  | commit

section Progresses

variable (r : EnrollmentRequest)

/-- The statements still to come; `fill n` has written `n` characters of the token. -/
def Progress.rest : Progress → Redemption String
  | .commit => .pure r.token.text
  | .clean => .act (fun d => d.unlink r.draft) (.pure r.token.text)
  | .link => r.finish
  | .sync => .act some r.finish
  | .fill n => r.fill (r.token.text.toList.drop n)
  | .permit => .act some (r.fill r.token.text.toList)
  | .create => .act (fun d => d.createNew r.draft) (.act some (r.fill r.token.text.toList))
  | .folder => .act some (.act (fun d => d.createNew r.draft)
      (.act some (r.fill r.token.text.toList)))
  | .probe => .look fun d => if r.statAgain && d.contains r.credential then
      .throw ("secret file " ++ r.credential ++ " already exists")
      else .act some (.act (fun d => d.createNew r.draft)
        (.act some (r.fill r.token.text.toList)))

/-- What the temporary file holds, while it is the redemption's alone. -/
def Progress.text : Progress → Option String
  | .permit => some ""
  | .fill n => some (String.ofList (r.token.text.toList.take n))
  | .sync => some (String.ofList (r.token.text.toList ++ ['\n']))
  | .link => some (String.ofList (r.token.text.toList ++ ['\n']))
  | _ => none

/-- The directory as a phase needs it. -/
def Progress.On (d : Links) (p : Progress) : Prop :=
  ∀ text, p.text r = some text → d.get? r.draft = some (.file (some text)) ∧ d.Sole r.draft

/-- A statement that goes well, and what it does to the directory. -/
inductive Move : Progress → Links → Progress → Links → Prop
  | probe {d : Links} (h : (r.statAgain && d.contains r.credential) = false) :
    Move .probe d .folder d
  | folder {d : Links} : Move .folder d .create d
  | create {d d' : Links} (h : d.createNew r.draft = some d') : Move .create d .permit d'
  | permit {d : Links} : Move .permit d (.fill 0) d
  | fill {n : Nat} {c : Char} {d : Links} (h : r.token.text.toList[n]? = some c) :
    Move (.fill n) d (.fill (n + 1)) (d.append r.draft c)
  | line {n : Nat} {d : Links} (h : r.token.text.toList.length ≤ n) :
    Move (.fill n) d .sync (d.append r.draft '\n')
  | sync {d : Links} : Move .sync d .link d
  | link {d d' : Links} (h : d.hardLink r.draft r.credential = some d') : Move .link d .clean d'
  | clean {d d' : Links} (h : d.unlink r.draft = some d') : Move .clean d .commit d'

variable {r} {p p' : Progress} {d d' : Links}

theorem ofList_snoc (l : List Char) (c : Char) :
    String.ofList (l ++ [c]) = (String.ofList l).push c := String.toList_inj.mp (by simp)

theorem on_append {text : String} (h : d.get? r.draft = some (.file (some text)) ∧ d.Sole r.draft)
    (c : Char) : (d.append r.draft c).get? r.draft = some (.file (some (text.push c))) ∧
      (d.append r.draft c).Sole r.draft := by
  refine ⟨Links.get?_append_self h.1 c, fun n k hk hn => ?_⟩
  rw [Links.node?_append] at hk hn
  exact h.2 n k hk hn

/-- **The temporary file holds what the phase says.** -/
theorem on_of_move (h : Move r p d p' d') (hon : p.On r d) : p'.On r d' := by
  cases h with
  | probe h => exact fun _ ht => by cases ht
  | folder => exact fun _ ht => by cases ht
  | create h =>
    intro text ht
    cases ht
    exact ⟨(Links.get?_createNew h _).trans (if_pos rfl), Links.sole_createNew h⟩
  | permit => exact hon
  | fill h =>
    intro text ht
    cases ht
    rw [List.take_add_one, h, Option.toList_some, ofList_snoc]
    exact on_append (hon _ rfl) _
  | line h =>
    intro text ht
    cases ht
    rw [← List.take_of_length_le h, ofList_snoc]
    exact on_append (hon _ rfl) _
  | sync => exact hon
  | link h => exact fun _ ht => by cases ht
  | clean h => exact fun _ ht => by cases ht

end Progresses

/-! ## 3. One statement of a redemption -/

section Turns

variable [Sha256] [Formats] (r : EnrollmentRequest)

/-- The row of the code passes the checks. -/
def EnrollmentRequest.Opens (t : Enrollments) : Prop :=
  ∃ row, t.get? (hashSecret r.code) = some row ∧ row.admits r = .ok ()

/-- From the SELECT on. -/
def EnrollmentRequest.search : Redemption String :=
  .select fun t => match t.get? (hashSecret r.code) with
    | none => .throw "invalid enrollment code"
    | some row => match row.admits r with
      | .error message => .throw message
      | .ok () => r.install

/-- **Where a redemption that runs can be**: before its first write it holds no lock; from then on
    it works on the latest table, in which its code is good, and on its own temporary file. -/
inductive Stage (t : Enrollments) (d : Links) : Access Enrollments → Redemption String → Prop
  | begun : Stage t d .unopened (consumeEnrollment r)
  | checked (hname : validateAgentName r.name = .ok ()) : Stage t d .unopened r.search
  | selected (v : Nat) (s : Enrollments) (hname : validateAgentName r.name = .ok ())
    (hopens : r.Opens s) : Stage t d (.snapshot v s) r.install
  | writing (p : Progress) (hname : validateAgentName r.name = .ok ()) (hopens : r.Opens t)
    (hon : p.On r d) : Stage t d (.writer (r.consume t)) (p.rest r)
  | refused (acc : Access Enrollments) (message : String) : Stage t d acc (.throw message)

/-- The token is linked to its name; what is left is to drop the temporary name, and to commit. -/
def EnrollmentRequest.Linked (rest : Redemption String) : Prop :=
  rest = Progress.clean.rest r ∨ rest = Progress.commit.rest r

variable {ι : Type} [DecidableEq ι] (i : ι)

/-- **What one statement of redemption `i` does** to the database, the directory and itself. -/
inductive Turn (st : Sessions.State ι Enrollments Links String String) :
    Sessions.State ι Enrollments Links String String → Prop
  | opens (old acc : Access Enrollments) (text rest : Redemption String) (lock : Option ι)
    (hi : st.calls i = .active old text) (hbefore : ¬ r.Linked text)
    (hstage : Stage r st.latest st.disk acc rest) (hlinked : ¬ r.Linked rest) :
    Turn st { st.set i (.active acc rest) with lock := lock }
  | moves (p p' : Progress) (d : Links) (hname : validateAgentName r.name = .ok ())
    (hopens : r.Opens st.latest)
    (hi : st.calls i = .active (.writer (r.consume st.latest)) (p.rest r)) (hon : p.On r st.disk)
    (hmove : Move r p st.disk p' d) :
    Turn st { st.set i (.active (.writer (r.consume st.latest)) (p'.rest r)) with disk := d }
  | commits (hopens : r.Opens st.latest)
    (hi : st.calls i = .active (.writer (r.consume st.latest)) (Progress.commit.rest r)) :
    Turn st { st.set i (.done (.ok r.token.text)) with
      latest := r.consume st.latest, version := st.version + 1, lock := none }
  | refuses (e : Fault String) : Turn st (st.finish i (.error e))

variable {r i} {st st' : Sessions.State ι Enrollments Links String String} {t : Enrollments}
  {d : Links} {acc : Access Enrollments} {rest : Redemption String}

/-- The other redemptions are not touched. -/
theorem Turn.calls_ne (h : Turn r i st st') {j : ι} (hj : j ≠ i) :
    st'.calls j = st.calls j := by
  cases h <;> exact Sessions.set_calls_ne st _ hj

omit [Sha256] [Formats] in
theorem not_linked_throw (m : String) : ¬ r.Linked (.throw m) := by
  rintro (h | h) <;> cases h

omit [Sha256] [Formats] in
/-- Two statements at least are left while the token is written. -/
theorem fill_eq_act (cs : List Char) :
    ∃ f g k, r.fill cs = .act f (.act g k) := by
  cases cs with
  | nil => exact ⟨_, _, _, rfl⟩
  | cons c cs =>
    cases cs with
    | nil => exact ⟨_, _, _, rfl⟩
    | cons c' cs => exact ⟨_, _, _, rfl⟩

omit [Sha256] [Formats] in
theorem rest_eq_pure {p : Progress} : p.rest r = .pure r.token.text ↔ p = .commit := by
  refine ⟨fun h => ?_, fun h => by rw [h]; rfl⟩
  cases p with
  | commit => rfl
  | fill n =>
    obtain ⟨f, g, k, hfill⟩ := fill_eq_act (r := r) (r.token.text.toList.drop n)
    cases hfill.symm.trans h
  | _ => cases h

omit [Sha256] [Formats] in
/-- How far a redemption is whose token is linked. -/
theorem linked_rest {p : Progress} : r.Linked (p.rest r) ↔ p = .clean ∨ p = .commit := by
  refine or_congr ⟨fun h => ?_, fun h => by rw [h]⟩ rest_eq_pure
  cases p with
  | clean => rfl
  | commit => cases h
  | probe => cases h
  | fill n =>
    obtain ⟨f, g, k, hfill⟩ := fill_eq_act (r := r) (r.token.text.toList.drop n)
    cases (Session.act.inj (hfill.symm.trans h)).2
  | permit =>
    obtain ⟨f, g, k, hfill⟩ := fill_eq_act (r := r) r.token.text.toList
    cases hfill.symm.trans (Session.act.inj h).2
  | _ => cases (Session.act.inj h).2

omit [Sha256] [Formats] in
theorem not_linked_probe : ¬ r.Linked (Progress.probe.rest r) := by
  rintro (h | h) <;> cases h

/-- A redemption that has just begun: it is refused, or it asks the directory and goes on. -/
theorem consumeEnrollment_eq (r : EnrollmentRequest) :
    (∃ m, consumeEnrollment r = .throw m) ∨ validateAgentName r.name = .ok () ∧
      ∃ m, consumeEnrollment r = .look fun d =>
        if r.stat && d.contains r.credential then .throw m else r.search := by
  unfold consumeEnrollment
  cases hname : validateAgentName r.name with
  | error m => exact .inl ⟨m, rfl⟩
  | ok u =>
    cases hcode : Text.isBlank r.code with
    | true => exact .inl ⟨_, rfl⟩
    | false =>
      refine .inr ⟨rfl, "agent credential already exists for " ++ r.name, ?_⟩
      refine congrArg Session.look (funext fun d => ?_)
      show Session.bind (.pure _) _ = _
      rw [Session.bind]
      split
      · rfl
      · refine congrArg Session.select (funext fun t => ?_)
        show Session.bind (.pure _) _ = _
        rw [Session.bind]
        dsimp only
        cases t.get? (hashSecret r.code) with
        | none => rfl
        | some row =>
          dsimp only
          cases row.admits r <;> rfl

theorem not_linked_begun : ¬ r.Linked (consumeEnrollment r) := by
  rcases consumeEnrollment_eq r with ⟨m, e⟩ | ⟨_, m, e⟩ <;> rw [e] <;> rintro (h | h) <;> cases h

theorem not_linked_search : ¬ r.Linked r.search := by
  rintro (h | h) <;> cases h

omit [Formats] in
theorem not_linked_install : ¬ r.Linked r.install := by
  rw [install_eq]
  rintro (h | h) <;> cases h

/-- A step on the directory that goes well, or not. -/
theorem turn_of_act {p : Progress} (hname : validateAgentName r.name = .ok ())
    (hopens : r.Opens st.latest) (hon : p.On r st.disk)
    (hi : st.calls i = .active (.writer (r.consume st.latest)) (p.rest r))
    {f : Links → Option Links} {k : Redemption String} (hrest : p.rest r = .act f k)
    (hmove : ∀ d, f st.disk = some d → ∃ p', k = p'.rest r ∧ Move r p st.disk p' d)
    (h : st.next i = some st') : Turn r i st st' := by
  rcases Sessions.next_act (hi.trans (congrArg _ hrest)) h with ⟨_, rfl⟩ | ⟨d, hd, rfl⟩
  · exact .refuses _
  · obtain ⟨p', rfl, hm⟩ := hmove d hd
    exact .moves p p' d hname hopens hi hon hm

/-- **One statement of a redemption**, wherever it is. -/
theorem turn_of_next (hstage : Stage r st.latest st.disk acc rest) (hcoherent : Sessions.Coherent st)
    (hi : st.calls i = .active acc rest) (h : st.next i = some st') : Turn r i st st' := by
  cases hstage with
  | begun =>
    rcases consumeEnrollment_eq r with ⟨m, heq⟩ | ⟨hname, m, heq⟩
    · cases (Sessions.next_throw (hi.trans (congrArg _ heq))).symm.trans h
      exact .refuses _
    · cases (Sessions.next_look (hi.trans (congrArg _ heq))).symm.trans h
      by_cases hseen : (r.stat && st.disk.contains r.credential) = true
      · rw [if_pos hseen]
        exact .opens _ _ _ _ st.lock hi not_linked_begun (.refused _ _) (not_linked_throw m)
      · rw [if_neg hseen]
        exact .opens _ _ _ _ st.lock hi not_linked_begun (.checked hname) not_linked_search
  | checked hname =>
    cases (Sessions.next_select hi).symm.trans h
    cases hrow : st.latest.get? (hashSecret r.code) with
    | none => exact .opens _ _ _ _ st.lock hi not_linked_search (.refused _ _) (not_linked_throw _)
    | some row =>
      cases hadmits : row.admits r with
      | error m =>
        simp only [hadmits]
        exact .opens _ _ _ _ st.lock hi not_linked_search (.refused _ _) (not_linked_throw _)
      | ok u =>
        simp only [hadmits]
        exact .opens _ _ _ _ st.lock hi not_linked_search
          (.selected _ _ hname ⟨row, hrow, hadmits⟩) not_linked_install
  | selected v s hname hopens =>
    rcases Sessions.next_update (hi.trans (congrArg _ (install_eq r))) h with rfl | ⟨hv, _, rfl⟩
    · exact .refuses _
    · -- the snapshot is the latest version, as the write is not refused
      obtain rfl := (hcoherent.snapshot i v s _ hi).2 hv
      exact .opens _ _ _ _ _ hi not_linked_install
        (.writing .probe hname hopens fun _ ht => by cases ht) not_linked_probe
  | writing p hname hopens hon =>
    cases p with
    | probe =>
      cases (Sessions.next_look hi).symm.trans h
      by_cases hseen : (r.statAgain && st.disk.contains r.credential) = true
      · rw [if_pos hseen]
        exact .opens _ _ _ _ st.lock hi not_linked_probe (.refused _ _) (not_linked_throw _)
      · rw [if_neg hseen]
        exact .moves .probe .folder _ hname hopens hi hon (.probe (Bool.eq_false_iff.mpr hseen))
    | folder =>
      exact turn_of_act hname hopens hon hi rfl (fun d hd => ⟨.create, rfl, by cases hd; exact .folder⟩) h
    | create =>
      exact turn_of_act hname hopens hon hi rfl (fun d hd => ⟨.permit, rfl, .create hd⟩) h
    | permit =>
      exact turn_of_act hname hopens hon hi rfl (fun d hd => ⟨.fill 0, rfl, by cases hd; exact .permit⟩) h
    | fill n =>
      cases hcs : r.token.text.toList.drop n with
      | nil =>
        have hrest : Progress.rest r (.fill n) = r.fill [] := congrArg r.fill hcs
        exact turn_of_act hname hopens hon hi hrest (fun d hd => ⟨.sync, rfl, by
          cases hd; exact .line (List.drop_eq_nil_iff.mp hcs)⟩) h
      | cons c cs =>
        have hrest : Progress.rest r (.fill n) = r.fill (c :: cs) := congrArg r.fill hcs
        refine turn_of_act hname hopens hon hi hrest (fun d hd => ⟨.fill (n + 1), ?_, ?_⟩) h
        · show r.fill cs = r.fill (r.token.text.toList.drop (n + 1))
          rw [← List.drop_drop, hcs]
          rfl
        · cases hd
          refine .fill ?_
          rw [← List.head?_drop, hcs]
          rfl
    | sync =>
      exact turn_of_act hname hopens hon hi rfl (fun d hd => ⟨.link, rfl, by cases hd; exact .sync⟩) h
    | link =>
      exact turn_of_act hname hopens hon hi rfl (fun d hd => ⟨.clean, rfl, .link hd⟩) h
    | clean =>
      exact turn_of_act hname hopens hon hi rfl (fun d hd => ⟨.commit, rfl, .clean hd⟩) h
    | commit =>
      cases (Sessions.next_commit hi).symm.trans h
      exact .commits hopens hi
  | refused _ m =>
    cases (Sessions.next_throw hi).symm.trans h
    exact .refuses _

end Turns

/-! ## 4. What every action does -/

section Effects

variable {ι κ : Type} [DecidableEq ι] [DecidableEq κ] [Sha256] [Formats] (sc : Scenario ι κ)

/-- Every redemption that runs is at one of its stages, and one that succeeded returned its
    token. -/
structure Staged (st : Sessions.State ι Enrollments Links String String) : Prop where
  coherent : Sessions.Coherent st
  stage : ∀ i acc rest, st.calls i = .active acc rest →
    Stage (sc.redeems i) st.latest st.disk acc rest
  token : ∀ i token, st.calls i = .done (.ok token) → token = (sc.redeems i).token.text

/-- **What an action does** to the database, the directory and the redemptions. -/
inductive Effect (st : Sessions.State ι Enrollments Links String String) :
    SiteAction ι κ → Sessions.State ι Enrollments Links String String → Prop
  | enrolls (i : ι) (hi : st.calls i = .waiting) :
    Effect st (.enroll i) (st.set i (.active .unopened (consumeEnrollment (sc.redeems i))))
  | turns (i : ι) (acc : Access Enrollments) (rest : Redemption String)
    (st' : Sessions.State ι Enrollments Links String String)
    (hi : st.calls i = .active acc rest) (hnext : st.next i = some st')
    (hturn : Turn (sc.redeems i) i st st') : Effect st (.next i) st'
  | fails (i : ι) (acc : Access Enrollments) (rest : Redemption String)
    (hi : st.calls i = .active acc rest) : Effect st (.fail i) (st.finish i (.error .refused))
  | crashes : Effect st .crash st.crash
  | creates (c : Creation) (t : Enrollments) (hfree : st.lock = none)
    (ht : createEnrollment c st.latest = some t) :
    Effect st (.create c) { st with latest := t, version := st.version + 1 }
  | changes (c : Change) (d : Links) (hname : Directory.extension c.name ≠ some "tmp")
    (hd : c.apply st.disk = some d) : Effect st (.operator c) { st with disk := d }
  | lists (q : κ) (names : List String) : Effect st (.list q names) st
  | reads (q : κ) : Effect st (.read q) st
  | loses (q : κ) : Effect st (.lose q) st
  | serves (q : κ) (env : Handling) : Effect st (.serve q env) st

variable {sc} {s s' : Site ι κ} {a : SiteAction ι κ}

theorem effect_of_step (h : Staged sc s.redemptions) (hs : sc.step s a = some s') :
    Effect sc s.redemptions a s'.redemptions := by
  cases a with
  | enroll i =>
    obtain ⟨st, hst, rfl⟩ := Option.map_eq_some_iff.mp hs
    have hi : s.redemptions.calls i = .waiting := by
      unfold Sessions.State.start at hst
      split at hst
      · assumption
      · cases hst
    rw [Sessions.start_eq_some hst]
    exact .enrolls i hi
  | next i =>
    obtain ⟨st, hst, rfl⟩ := Option.map_eq_some_iff.mp hs
    cases hi : s.redemptions.calls i with
    | waiting => rw [Sessions.State.next, hi] at hst; cases hst
    | done r => rw [Sessions.State.next, hi] at hst; cases hst
    | active acc rest =>
      exact .turns i acc rest st hi hst (turn_of_next (h.stage i acc rest hi) h.coherent hi hst)
  | fail i =>
    obtain ⟨st, hst, rfl⟩ := Option.map_eq_some_iff.mp hs
    cases hi : s.redemptions.calls i with
    | waiting => rw [Sessions.State.fail, hi] at hst; cases hst
    | done r => rw [Sessions.State.fail, hi] at hst; cases hst
    | active acc rest =>
      rw [Sessions.fail_eq_some hst]
      exact .fails i acc rest hi
  | crash =>
    cases hs
    exact .crashes
  | create c =>
    obtain ⟨st, hst, rfl⟩ := Option.map_eq_some_iff.mp hs
    obtain ⟨hfree, t, ht, rfl⟩ := Sessions.publish_eq_some hst
    exact .creates c t hfree ht
  | operator c =>
    rw [Scenario.step] at hs
    split at hs
    · cases hs
    · rename_i hname
      obtain ⟨d, hd, rfl⟩ := Option.map_eq_some_iff.mp hs
      exact .changes c d hname hd
  | list q names =>
    rw [Scenario.step] at hs
    split at hs
    · split at hs
      · cases hs
        exact .lists q names
      · cases hs
    · cases hs
  | read q =>
    rw [Scenario.step] at hs
    split at hs
    · cases hs
      exact .reads q
    · cases hs
  | lose q =>
    rw [Scenario.step] at hs
    split at hs
    · cases hs
      exact .loses q
    · cases hs
  | serve q env =>
    rw [Scenario.step] at hs
    split at hs
    · cases hs
      exact .serves q env
    · cases hs

omit [DecidableEq ι] [Sha256] [Formats] in
/-- There is no second writer. -/
theorem not_writer {st : Sessions.State ι Enrollments Links String String} (h : Sessions.Coherent st)
    {i j : ι} {w : Enrollments} {acc : Access Enrollments} {rest rest' : Redemption String}
    (hi : st.calls i = .active (.writer w) rest) (hj : st.calls j = .active acc rest')
    (hne : j ≠ i) (w' : Enrollments) : acc ≠ .writer w' := by
  rintro rfl
  have hlock := h.writer j w' rest' hj
  rw [h.writer i w rest hi] at hlock
  exact hne (Option.some.inj hlock).symm

omit [DecidableEq ι] [DecidableEq κ] in
/-- A redemption that has not written is not concerned with what others do. -/
theorem Stage.frame {r : EnrollmentRequest} {t t' : Enrollments} {d d' : Links}
    {acc : Access Enrollments} {rest : Redemption String} (h : Stage r t d acc rest)
    (hno : ∀ w, acc ≠ .writer w) : Stage r t' d' acc rest := by
  cases h with
  | begun => exact .begun
  | checked hname => exact .checked hname
  | selected v s hname hopens => exact .selected v s hname hopens
  | writing p hname hopens hon => exact absurd rfl (hno _)
  | refused acc m => exact .refused acc m

omit [DecidableEq κ] in
/-- **Every action keeps the redemptions at their stages.** -/
theorem staged_effect {st st' : Sessions.State ι Enrollments Links String String}
    (h : Staged sc st) (he : Effect sc st a st') : Staged sc st' := by
  cases he with
  | enrolls i hi =>
    refine ⟨Sessions.coherent_start h.coherent (i := i) (by rw [Sessions.State.start, hi]), ?_, ?_⟩
    · intro j acc rest hj
      by_cases hji : j = i
      · rw [hji] at hj ⊢
        cases (Sessions.set_calls_self st i _).symm.trans hj
        exact .begun
      · exact h.stage j acc rest ((Sessions.set_calls_ne st _ hji).symm.trans hj)
    · intro j token hj
      by_cases hji : j = i
      · rw [hji] at hj
        cases (Sessions.set_calls_self st i _).symm.trans hj
      · exact h.token j token ((Sessions.set_calls_ne st _ hji).symm.trans hj)
  | turns i acc rest _ hi hnext hturn =>
    have hself : ∀ c : Call Enrollments Links String String, (st.set i c).calls i = c :=
      Sessions.set_calls_self st i
    refine ⟨Sessions.coherent_next h.coherent hnext, fun j acc' rest' hj => ?_, fun j token hj => ?_⟩
    · by_cases hji : j = i
      · rw [hji] at hj ⊢
        cases hturn with
        | opens _ _ _ _ _ _ _ hstage _ =>
          cases (hself _).symm.trans hj
          exact hstage
        | moves p p' d hname hopens _ hon hmove =>
          cases (hself _).symm.trans hj
          exact .writing p' hname hopens (on_of_move hmove hon)
        | commits _ _ => cases (hself _).symm.trans hj
        | refuses e => cases (hself _).symm.trans hj
      · rw [hturn.calls_ne hji] at hj
        have hold := h.stage j acc' rest' hj
        cases hturn with
        | opens _ _ _ _ _ _ _ _ _ => exact hold
        | moves _ _ _ _ _ hi' _ _ => exact hold.frame (not_writer h.coherent hi' hj hji)
        | commits _ hi' => exact hold.frame (not_writer h.coherent hi' hj hji)
        | refuses _ => exact hold
    · by_cases hji : j = i
      · rw [hji] at hj ⊢
        cases hturn with
        | opens _ _ _ _ _ _ _ _ _ => cases (hself _).symm.trans hj
        | moves p p' d _ _ _ _ _ => cases (hself _).symm.trans hj
        | commits _ _ =>
          cases (hself _).symm.trans hj
          rfl
        | refuses e => cases (hself _).symm.trans hj
      · rw [hturn.calls_ne hji] at hj
        exact h.token j token hj
  | fails i acc rest hi =>
    refine ⟨Sessions.coherent_finish h.coherent _, fun j acc' rest' hj => ?_, fun j token hj => ?_⟩
    · by_cases hji : j = i
      · rw [hji] at hj
        cases (Sessions.set_calls_self st i _).symm.trans hj
      · exact h.stage j acc' rest' ((Sessions.set_calls_ne st _ hji).symm.trans hj)
    · by_cases hji : j = i
      · rw [hji] at hj
        cases (Sessions.set_calls_self st i _).symm.trans hj
      · exact h.token j token ((Sessions.set_calls_ne st _ hji).symm.trans hj)
  | crashes =>
    refine ⟨Sessions.coherent_crash st, fun j acc' rest' hj => ?_, fun j token hj => ?_⟩
    · exact absurd hj (Sessions.crash_calls j)
    · exact h.token j token ((Sessions.crash_calls_ok j).mp hj)
  | creates c t hfree ht =>
    refine ⟨Sessions.coherent_publish h.coherent (f := createEnrollment c)
      (by rw [Sessions.State.publish, if_pos hfree, ht]; rfl), fun j acc rest hj => ?_, h.token⟩
    refine (h.stage j acc rest hj).frame fun w => ?_
    rintro rfl
    have hlock := h.coherent.writer j w rest hj
    rw [hfree] at hlock
    cases hlock
  | changes c d hname hd =>
    refine ⟨Sessions.coherent_disk h.coherent d, fun j acc rest hj => ?_, h.token⟩
    cases h.stage j acc rest hj with
    | writing p hvalid hopens hon =>
      refine .writing p hvalid hopens fun text ht => ?_
      have hdraft : (sc.redeems j).draft ≠ c.name := fun e =>
        hname (e ▸ extension_temporaryName _)
      obtain ⟨hget, hsole⟩ := Change.frame hd hdraft (hon text ht).2
      exact ⟨hget.trans (hon text ht).1, hsole⟩
    | begun => exact .begun
    | checked hname => exact .checked hname
    | selected v s hname hopens => exact .selected v s hname hopens
    | refused acc m => exact .refused acc m
  | lists q names => exact h
  | reads q => exact h
  | loses q => exact h
  | serves q env => exact h

omit [DecidableEq ι] [DecidableEq κ] in
theorem staged_init : Staged sc (⟨.empty, 0, none, .empty, fun _ => .waiting⟩ :
    Sessions.State ι Enrollments Links String String) where
  coherent := Sessions.coherent_init
  stage := fun _ _ _ h => by cases h
  token := fun _ _ h => by cases h

/-- **In every run the redemptions are at their stages.** -/
theorem staged_run (as : List (SiteAction ι κ)) : Staged sc (sc.site.run as).redemptions :=
  sc.site.invariant (I := fun s => Staged sc s.redemptions) staged_init
    (fun _ _ _ h hs => staged_effect h (effect_of_step h hs)) as

end Effects

end Beacon
