/-
  File:      Beacon/Server/CodeFiles.lean
  Subject:   The creation of a code (`server.rs`, `create_enrollment`, `write_secret_file`).

  The code is written to its file first and stored in the table after. Any statement may fail, and
  some panic; what removes the file again runs for an error of the second half only, and not for a
  panic. The expiry passes through a cast and two operations of chrono that panic.

  * `perform_ok` -- a creation that succeeds does to the table what `createEnrollment` says;
  * `expiry_exact_iff` -- when the stored expiry is the one asked for and can be read back;
  * `creation_ends_well_iff` -- **when the file and the row appear together, or neither does**;
  * `created_expired`, `creation_panics` -- a wrapped TTL, and one the calendar ends before.
-/
import Beacon.Server.Codes
import Beacon.Server.RetryTime

namespace Beacon

open Foundation

/-! ## 1. The creation -/

/-- How a call ends. -/
inductive Outcome where
  | ok
  | error (text : String)
  | panic
  deriving DecidableEq, Repr

/-- A statement that fails, or panics. -/
def Outcome.broken (panics : Bool) : Outcome := if panics then .panic else .error ""

/-- The statements of the second half that can fail. -/
inductive StoreStep where
  | directory
  | connect
  | timeout
  | initializeDatabase
  | insert
  deriving DecidableEq, Repr

/-- What fails, and whether it panics: before the code file, in `write_secret_file` by the number
    of the statement, and in the second half; whether `code_file.exists()` can look, and whether
    the file can be removed then. -/
structure CreationFaults where
  prepare : Option Bool := none
  stat : Bool := true
  secret : Option (Fin 43 × Bool) := none
  store : Option (StoreStep × Bool) := none
  removed : Bool := true

/-- The arguments of the command, what is drawn for it, and the clock. -/
structure CodeRequest where
  name : String
  codeFile : String
  ttlSeconds : UInt64
  code : Uuid
  temporary : Uuid
  now : DateTime

namespace CodeRequest

variable (r : CodeRequest)

def creation : Creation := ⟨r.name, r.code.text, r.ttlSeconds.toNat, r.now⟩

/-- The file the code is written to first. -/
def draft : String :=
  Path.join ((Path.parent r.codeFile).getD "") (temporaryName r.temporary)

variable [Sha256]

/-- The second half: the row of the code. -/
def store (fault : Option (StoreStep × Bool)) (t : Enrollments) : Outcome × Enrollments :=
  match fault with
  | some (.insert, panics) =>
    match r.creation.expiry with
    | none => (.panic, t)
    | some _ => (.broken panics, t)
  | some (_, panics) => (.broken panics, t)
  | none =>
    match r.creation.expiry with
    | none => (.panic, t)
    | some expiry =>
      match t.insert ⟨hashSecret r.code.text, r.name, expiry.toRfc3339, none⟩ with
      | none => (.error "UNIQUE constraint failed: enrollments.code_hash", t)
      | some t => (.ok, t)

/-- What is done when the second half is over: the file is removed after an error. -/
def settle (faults : CreationFaults) (d : Links) : Outcome × Enrollments → Outcome × Enrollments × Links
  | (.error text, t) => (.error text, t, if faults.removed then (d.unlink r.codeFile).getD d else d)
  | (outcome, t) => (outcome, t, d)

/-- `create_enrollment`. -/
def perform (faults : CreationFaults) (t : Enrollments) (d : Links) :
    Outcome × Enrollments × Links :=
  match faults.prepare with
  | some panics => (.broken panics, t, d)
  | none =>
    match validateAgentName r.name with
    | .error message => (.error message, t, d)
    | .ok () =>
      if r.ttlSeconds = 0 then (.error "enrollment TTL must be greater than zero", t, d)
      else if (Path.parent r.codeFile).isNone then
        (.error "secret file must have a parent directory", t, d)
      else
        match (writeSecretFile faults.stat r.codeFile r.draft r.code.text).perform
            (faults.secret.map fun f => f.1.val) t t d with
        | (.error (.raised message), _, d) => (.error message, t, d)
        | (.error .refused, _, d) =>
          (.broken ((faults.secret.map Prod.snd).getD false), t, d)
        | (.ok (), _, d) => r.settle faults d (r.store faults.store t)

end CodeRequest

/-! ## 2. What is promised -/

section Promise

variable [Sha256] [Formats]

/-- The code stands in its file and in the table, for the agent and until the TTL has passed. -/
structure Stored (r : CodeRequest) (t : Enrollments) (d : Links) : Prop where
  file : Holds d r.codeFile r.code.text
  row : ∃ row, t.get? (hashSecret r.code.text) = some row ∧ row.name = r.name ∧
    Formats.parseFromRfc3339 row.expiresAt = some (r.now.addSeconds r.ttlSeconds.toNat) ∧
    ∀ q : EnrollmentRequest, q.name = r.name →
      (row.admits q = .ok () ↔ q.checkedAt < r.now.addSeconds r.ttlSeconds.toNat)

omit [Sha256] [Formats] in
/-- Nothing of the code is left, and what stood there stands there. -/
structure Undone (r : CodeRequest) (t t' : Enrollments) (d d' : Links) : Prop where
  rows : t' = t
  codeFile : d'.taken r.codeFile = d.taken r.codeFile
  secret : ∀ name, Holds d' name r.code.text → Holds d name r.code.text
  kept : ∀ name node, d.get? name = some node → d'.get? name = some node

/-- One of the two ways a creation should end in. -/
def EndsWell (r : CodeRequest) (t : Enrollments) (d : Links)
    (after : Outcome × Enrollments × Links) : Prop :=
  match after.1 with
  | .ok => Stored r after.2.1 after.2.2
  | _ => Undone r t after.2.1 d after.2.2

end Promise

/-! ## 3. The code file -/

section File

variable {r : CodeRequest} {stat : Bool} {t : Enrollments} {d d' : Links}

/-- The line of the code. -/
theorem holds_line {name : String} (id : Uuid)
    (h : d.get? name = some (.file (some (String.ofList (id.text.toList ++ ['\n']))))) :
    Holds d name id.text := ⟨_, h, trim_line id⟩

theorem take_eq_text (id : Uuid) {k : Nat} : String.ofList (id.text.toList.take k) = id.text ↔ 36 ≤ k := by
  have hlen := id.length
  constructor
  · intro h
    have htext := congrArg (fun s => s.toList.length) h
    simp only [String.toList_ofList, List.length_take, hlen] at htext
    omega
  · intro h
    rw [List.take_of_length_le (by omega), String.ofList_toList]

theorem not_holds_of_fresh {name text : String} (h : d.taken name = false) :
    ¬ Holds d name text := by
  rintro ⟨content, hget, _⟩
  rw [Links.taken_eq_isSome, hget] at h
  cases h

/-- A part of the code in the temporary file counts as long as it is not the whole. -/
theorem undone_part_iff {text : String} {k : Nat} (hdraft : d.taken r.draft = false)
    (htrim : Text.trim text = String.ofList (r.code.text.toList.take k))
    (hget : ∀ name, d'.get? name = if name = r.draft then some (.file (some text))
      else d.get? name) :
    Undone r t t d d' ↔ k < 36 ∧ r.draft ≠ r.codeFile := by
  have hdraft' : d'.get? r.draft = some (.file (some text)) := (hget r.draft).trans (if_pos rfl)
  constructor
  · intro h
    refine ⟨Nat.not_le.mp fun hk => ?_, fun hsame => ?_⟩
    · have hholds : Holds d' r.draft r.code.text :=
        ⟨text, hdraft', htrim.trans ((take_eq_text r.code).mpr hk)⟩
      exact not_holds_of_fresh hdraft (h.secret _ hholds)
    · have hthere := h.codeFile
      rw [← hsame, hdraft, Links.taken_of_get? hdraft'] at hthere
      cases hthere
  · rintro ⟨hk, hne⟩
    refine ⟨rfl, ?_, fun name hholds => ?_, fun name node hname => ?_⟩
    · exact Links.taken_congr ((hget r.codeFile).trans (if_neg hne.symm))
    · obtain ⟨content, hcontent, hsecret⟩ := hholds
      rw [hget] at hcontent
      split at hcontent
      · cases hcontent
        exact absurd ((take_eq_text r.code).mp (htrim.symm.trans hsecret)) (Nat.not_le.mpr hk)
      · exact ⟨content, hcontent, hsecret⟩
    · rw [hget, if_neg, hname]
      rintro rfl
      rw [Links.taken_of_get? hname] at hdraft
      cases hdraft

theorem undone_refl (r : CodeRequest) (t : Enrollments) (d : Links) : Undone r t t d d :=
  ⟨rfl, rfl, fun _ h => h, fun _ _ h => h⟩

theorem writeSecretFile_pure (stat : Bool) :
    writeSecretFile stat r.codeFile r.draft r.code.text =
      writeSecretFile stat r.codeFile r.draft r.code.text >>= Session.pure :=
  (Session.bind_pure _).symm

theorem trim_whole : Text.trim (String.ofList (r.code.text.toList ++ ['\n'])) =
    String.ofList (r.code.text.toList.take 36) :=
  (trim_line r.code).trans ((take_eq_text r.code).mpr (Nat.le_refl _)).symm

/-- **A fault before the link.** -/
theorem perform_codeFile_part (hseen : (stat && d.contains r.codeFile) = false)
    (hdraft : d.taken r.draft = false) {n : Nat} (hn : n ≤ 41) :
    ∃ d', (writeSecretFile stat r.codeFile r.draft r.code.text).perform (some n) t t d =
        (.error .refused, t, d') ∧
      (Undone r t t d d' ↔ n ≤ 38 ∧ (r.draft = r.codeFile → n ≤ 1)) := by
  obtain ⟨d', hfail, hleft⟩ := perform_secret_part r.code (s := t) (w := t)
    (k := Session.pure) hseen hdraft hn
  rw [writeSecretFile_pure]
  refine ⟨d', hfail, ?_⟩
  cases hleft with
  | nothing hlow hsame =>
    rw [hsame]
    exact iff_of_true (undone_refl r t d) ⟨by omega, fun _ => hlow⟩
  | part text hlow htrim hget =>
    rw [undone_part_iff hdraft htrim hget]
    refine and_congr (by omega) ⟨fun hne hsame => absurd hsame hne, fun h hsame => ?_⟩
    have hfirst := h hsame
    omega

/-- **No fault before the link, and something in the way of it**: the temporary file itself, or what
    the check did not see. The file with the code stays. -/
theorem perform_codeFile_blocked (hseen : (stat && d.contains r.codeFile) = false)
    (hdraft : d.taken r.draft = false)
    (hblocked : r.draft = r.codeFile ∨ d.taken r.codeFile = true) {fault : Option Nat}
    (hlate : ∀ n, fault = some n → n = 42) :
    ∃ d', (writeSecretFile stat r.codeFile r.draft r.code.text).perform fault t t d =
      (.error .refused, t, d') ∧ ¬ Undone r t t d d' := by
  obtain ⟨d', hget, hlink⟩ := perform_secret_line r.code (s := t) (w := t) (k := Session.pure)
    hseen hdraft fault fun n hn => by
      rw [hlate n hn]
      omega
  have htaken : d'.taken r.codeFile = true := by
    rw [Links.taken_eq_isSome, hget]
    split
    · rfl
    · rename_i hne
      rw [← Links.taken_eq_isSome]
      exact hblocked.resolve_left fun h => hne h.symm
  rw [writeSecretFile_pure, hlink, perform_linkSecret_taken htaken]
  refine ⟨d', rfl, fun h => ?_⟩
  exact absurd ((undone_part_iff hdraft trim_whole hget).mp h).1 (Nat.lt_irrefl _)

/-- **No fault before the link, and the link made**: the file is there, also where the temporary
    one cannot be dropped. -/
theorem perform_codeFile_linked (stat : Bool) (hfree : d.taken r.codeFile = false)
    (hdraft : d.taken r.draft = false) (hne : r.draft ≠ r.codeFile) :
    (∃ d', (writeSecretFile stat r.codeFile r.draft r.code.text).perform none t t d =
        (.ok (), t, d') ∧ ∀ name, d'.get? name = if name = r.codeFile then
        some (.file (some (String.ofList (r.code.text.toList ++ ['\n'])))) else d.get? name) ∧
    ∃ d', (writeSecretFile stat r.codeFile r.draft r.code.text).perform (some 42) t t d =
      (.error .refused, t, d') ∧ ¬ Undone r t t d d' := by
  have hlinked := fun fault (hlate : ∀ n, fault = some n → 42 ≤ n) =>
    perform_secret_linked stat r.code (s := t) (w := t) (k := Session.pure) hfree hdraft hne fault
      hlate
  rw [writeSecretFile_pure]
  constructor
  · obtain ⟨_, d', _, hget, hlink⟩ := hlinked none fun _ hn => by cases hn
    exact ⟨d', hlink, hget⟩
  · obtain ⟨d', _, hthere, _, hlink⟩ := hlinked (some 42) fun _ hn => by
      cases hn
      exact Nat.le_refl 42
    refine ⟨d', hlink, fun h => ?_⟩
    have hcode := h.codeFile
    rw [hfree, hthere] at hcode
    cases hcode

/-- **The code file**: written, or given up, by the place of the fault and by what stands at its
    name. -/
theorem perform_codeFile (hseen : (stat && d.contains r.codeFile) = false)
    (hdraft : d.taken r.draft = false) (fault : Option (Fin 43)) :
    ∃ d', (fault = none ∧ r.draft ≠ r.codeFile ∧ d.taken r.codeFile = false ∧
        (writeSecretFile stat r.codeFile r.draft r.code.text).perform none t t d =
          (.ok (), t, d') ∧
        ∀ name, d'.get? name = if name = r.codeFile then
          some (.file (some (String.ofList (r.code.text.toList ++ ['\n'])))) else d.get? name) ∨
      ((fault ≠ none ∨ r.draft = r.codeFile ∨ d.taken r.codeFile = true) ∧
        (writeSecretFile stat r.codeFile r.draft r.code.text).perform (fault.map Fin.val) t t d =
          (.error .refused, t, d') ∧
        (Undone r t t d d' ↔ ∃ n, fault = some n ∧ n.val ≤ 38 ∧
          (r.draft = r.codeFile → n.val ≤ 1))) := by
  by_cases hearly : ∃ n, fault = some n ∧ n.val ≤ 41
  · obtain ⟨n, rfl, hn⟩ := hearly
    obtain ⟨d', hfail, hundone⟩ := perform_codeFile_part (t := t) hseen hdraft hn
    refine ⟨d', .inr ⟨.inl (Option.some_ne_none n), hfail, hundone.trans ?_⟩⟩
    simp
  · have hlate : ∀ n, fault.map Fin.val = some n → n = 42 := by
      intro n hn
      obtain ⟨m, hm, rfl⟩ := Option.map_eq_some_iff.mp hn
      have hlt := m.isLt
      have hge : ¬ m.val ≤ 41 := fun hle => hearly ⟨m, hm, hle⟩
      omega
    have hnever : ¬ ∃ n, fault = some n ∧ n.val ≤ 38 ∧ (r.draft = r.codeFile → n.val ≤ 1) := by
      rintro ⟨n, hn, hle, _⟩
      exact hearly ⟨n, hn, by omega⟩
    by_cases hblocked : r.draft = r.codeFile ∨ d.taken r.codeFile = true
    · obtain ⟨d', hfail, hkept⟩ := perform_codeFile_blocked (t := t) hseen hdraft hblocked hlate
      exact ⟨d', .inr ⟨.inr hblocked, hfail, iff_of_false hkept hnever⟩⟩
    · obtain ⟨hne, hfree⟩ := not_or.mp hblocked
      have hfree := Bool.eq_false_iff.mpr hfree
      obtain ⟨⟨d₁, hok, hget⟩, d₂, hfail, hkept⟩ :=
        perform_codeFile_linked stat (t := t) hfree hdraft hne
      cases fault with
      | none => exact ⟨d₁, .inl ⟨rfl, hne, hfree, hok, hget⟩⟩
      | some n =>
        rw [← hlate n.val rfl] at hfail
        exact ⟨d₂, .inr ⟨.inl (Option.some_ne_none n), hfail, iff_of_false hkept hnever⟩⟩

end File

/-! ## 4. The expiry -/

section Expiry

variable [Formats]

/-- `parse_from_rfc3339` reads back what `to_rfc3339` wrote, for years of four digits; a year with
    a sign is no RFC 3339. -/
def ReadsBack (t : DateTime) : Prop :=
  (t.InRange → Formats.parseFromRfc3339 t.toRfc3339 = some t) ∧
    (¬ t.InRange → Formats.parseFromRfc3339 t.toRfc3339 = none)

variable {r : CodeRequest} {e : DateTime}

omit [Formats] in
/-- **An expiry with a year of four digits is computed as asked for.** -/
theorem expiry_of_inRange (hnow : chronoYears r.now = true)
    (h : (r.now.addSeconds r.ttlSeconds.toNat).InRange) :
    r.creation.expiry = some (r.now.addSeconds r.ttlSeconds.toNat) := by
  have hyears : chronoYears (r.now.addSeconds r.ttlSeconds.toNat) = true := by
    have hlow := h.1
    have hhigh := h.2
    unfold chronoYears
    rw [Bool.and_eq_true, decide_eq_true_eq, decide_eq_true_eq]
    omega
  exact (chronoAddSeconds_of_years hnow hyears).2

/-- **When the stored expiry is the one asked for** and can be read back. -/
theorem expiry_exact_iff (hnow : chronoYears r.now = true) (he : r.creation.expiry = some e)
    (hchrono : ReadsBack e) :
    Formats.parseFromRfc3339 e.toRfc3339 = some (r.now.addSeconds r.ttlSeconds.toNat) ↔
      (r.now.addSeconds r.ttlSeconds.toNat).InRange := by
  constructor
  · intro hparse
    by_cases hrange : e.InRange
    · rw [hchrono.1 hrange] at hparse
      exact Option.some.inj hparse ▸ hrange
    · rw [hchrono.2 hrange] at hparse
      cases hparse
  · intro hrange
    rw [expiry_of_inRange hnow hrange] at he
    cases he
    exact hchrono.1 hrange

/-- A code is redeemed by its agent until it expires. -/
theorem admits_iff {row : EnrollmentRow} {q : EnrollmentRequest} (hname : row.name = q.name)
    (hfresh : row.consumedAt = none) (he : Formats.parseFromRfc3339 row.expiresAt = some e) :
    row.admits q = .ok () ↔ q.checkedAt < e := by
  unfold EnrollmentRow.admits
  rw [if_neg (not_not.mpr hname), hfresh, he]
  simp only [Option.isSome_none, Bool.false_eq_true, if_false]
  split
  · rename_i hle
    exact iff_of_false (by intro h; cases h) (Int.not_lt.mpr hle)
  · rename_i hlt
    exact iff_of_true rfl (Int.not_le.mp hlt)

end Expiry

/-! ## 5. Both halves -/

section Halves

variable [Sha256] [Formats] {r : CodeRequest} {faults : CreationFaults} {t t' : Enrollments}
  {d d' : Links}

/-- The checks pass, as far as they can look, and the temporary name is free. -/
def CodeRequest.Ready (r : CodeRequest) (faults : CreationFaults) (d : Links) : Prop :=
  faults.prepare = none ∧ validateAgentName r.name = .ok () ∧ r.ttlSeconds ≠ 0 ∧
    (Path.parent r.codeFile).isSome ∧ (faults.stat && d.contains r.codeFile) = false ∧
    d.taken r.draft = false

/-- What keeps the two together: the call is refused before it creates a file; it is cut off
    before the last character of the code is written; or the name of the code file is free, and the
    call is cut off after, by an error, and the file can be removed, or it is not cut off and the
    expiry has a year of four digits. -/
inductive Sound (r : CodeRequest) (faults : CreationFaults) (t : Enrollments) (d : Links) : Prop where
  | refused (h : ¬ r.Ready faults d)
  | cut (n : Fin 43) (panics : Bool) (h : faults.secret = some (n, panics)) (hn : n.val ≤ 38)
      (hsame : r.draft = r.codeFile → n.val ≤ 1)
  | failed (step : StoreStep) (hsecret : faults.secret = none) (hne : r.draft ≠ r.codeFile)
      (hfree : d.taken r.codeFile = false) (h : faults.store = some (step, false))
      (hdate : step = .insert → r.creation.expiry.isSome) (hremoved : faults.removed = true)
  | conflict (hsecret : faults.secret = none) (hne : r.draft ≠ r.codeFile)
      (hfree : d.taken r.codeFile = false) (h : faults.store = none)
      (hdate : r.creation.expiry.isSome)
      (hrow : (t.get? (hashSecret r.code.text)).isSome) (hremoved : faults.removed = true)
  | stored (hsecret : faults.secret = none) (hne : r.draft ≠ r.codeFile)
      (hfree : d.taken r.codeFile = false) (h : faults.store = none)
      (hrow : t.get? (hashSecret r.code.text) = none)
      (hexpiry : (r.now.addSeconds r.ttlSeconds.toNat).InRange)

omit [Sha256] [Formats] in
theorem broken_ne_ok (panics : Bool) : Outcome.broken panics ≠ .ok := by
  cases panics <;> (intro h; cases h)

omit [Sha256] [Formats] in
/-- The code file is not written where it is seen, or its temporary name is taken. -/
theorem perform_taken (stat : Bool)
    (h : ¬ ((stat && d.contains r.codeFile) = false ∧ d.taken r.draft = false))
    (fault : Option Nat) :
    ∃ e, (writeSecretFile stat r.codeFile r.draft r.code.text).perform fault t t d =
      (.error e, t, d) := by
  cases hcode : stat && d.contains r.codeFile with
  | true =>
    refine ⟨.raised ("secret file " ++ r.codeFile ++ " already exists"), ?_⟩
    unfold writeSecretFile
    simp only [Session.onDisk, Bind.bind, Session.bind, Session.perform, hcode, if_true]
    rfl
  | false =>
    have hdraft : d.taken r.draft = true := by
      cases hd : d.taken r.draft with
      | true => rfl
      | false => exact absurd ⟨hcode, hd⟩ h
    refine ⟨.refused, ?_⟩
    rw [← Session.bind_pure (writeSecretFile stat r.codeFile r.draft r.code.text)]
    refine (perform_writeSecretFile (k := Session.pure) hcode fault).trans ?_
    simp [Session.perform, Links.createNew_of_taken hdraft]

omit [Formats] in
/-- A call that is refused changes nothing. -/
theorem perform_of_not_ready (h : ¬ r.Ready faults d) :
    ∃ o, o ≠ .ok ∧ r.perform faults t d = (o, t, d) := by
  unfold CodeRequest.Ready at h
  unfold CodeRequest.perform
  cases hprepare : faults.prepare with
  | some panics => exact ⟨_, broken_ne_ok panics, rfl⟩
  | none =>
    cases hname : validateAgentName r.name with
    | error message => exact ⟨.error message, (by intro h; cases h), rfl⟩
    | ok u =>
      by_cases httl : r.ttlSeconds = 0
      · exact ⟨.error _, (by intro h; cases h), if_pos httl⟩
      · cases hparent : Path.parent r.codeFile with
        | none => exact ⟨.error _, (by intro h; cases h), by simp only [httl, if_false]; rfl⟩
        | some parent =>
          simp only [httl, if_false, Option.isNone_some, Bool.false_eq_true]
          obtain ⟨e, hrefused⟩ := perform_taken faults.stat (r := r) (t := t) (d := d)
            (fun hfree => h ⟨hprepare, hname, httl, by rw [hparent]; rfl, hfree⟩)
            (faults.secret.map fun f => f.1.val)
          rw [hrefused]
          cases e with
          | raised message => exact ⟨.error message, (by intro h; cases h), rfl⟩
          | refused => exact ⟨_, broken_ne_ok _, rfl⟩

omit [Sha256] [Formats] in
theorem undone_of_same (h : ∀ name, d'.get? name = d.get? name) : Undone r t t d d' := by
  refine ⟨rfl, ?_, fun name hholds => ?_, fun name node hname => (h name).trans hname⟩
  · exact Links.taken_congr (h _)
  · obtain ⟨content, hcontent, htrim⟩ := hholds
    exact ⟨content, (h name).symm.trans hcontent, htrim⟩

omit [Sha256] [Formats] in
/-- A code file that stands is something left. -/
theorem not_undone_of_taken (hcode : d.taken r.codeFile = false)
    (h : d'.taken r.codeFile = true) : ¬ Undone r t t' d d' := by
  intro hundone
  have hsame := hundone.codeFile
  rw [hcode, h] at hsame
  cases hsame

theorem endsWell_of_ok {after : Outcome × Enrollments × Links} (h : after.1 = .ok) :
    EndsWell r t d after ↔ Stored r after.2.1 after.2.2 := by
  unfold EndsWell
  rw [h]

theorem endsWell_of_ne_ok {after : Outcome × Enrollments × Links} (h : after.1 ≠ .ok) :
    EndsWell r t d after ↔ Undone r t after.2.1 d after.2.2 := by
  obtain ⟨o, t', d'⟩ := after
  cases o with
  | ok => exact absurd rfl h
  | error text => exact Iff.rfl
  | panic => exact Iff.rfl

/-- The directory with the code file in it. -/
def Written (r : CodeRequest) (d d' : Links) : Prop :=
  d.taken r.codeFile = false ∧ ∀ name, d'.get? name = if name = r.codeFile then
    some (.file (some (String.ofList (r.code.text.toList ++ ['\n'])))) else d.get? name

omit [Sha256] [Formats] in
theorem not_undone_of_written (h : Written r d d') : ¬ Undone r t t' d d' := by
  refine not_undone_of_taken h.1 ?_
  rw [Links.taken_eq_isSome, h.2, if_pos rfl]
  rfl

omit [Sha256] [Formats] in
/-- The removal of the code file undoes everything. -/
theorem undone_of_removed (h : Written r d d') :
    Undone r t t d ((d'.unlink r.codeFile).getD d') := by
  obtain ⟨d'', hd''⟩ : ∃ d'', d'.unlink r.codeFile = some d'' := by
    have hcode := h.2 r.codeFile
    rw [if_pos rfl] at hcode
    obtain ⟨k, hk, _⟩ := Links.get?_eq_some.mp hcode
    rw [Links.unlink, hk]
    exact ⟨_, rfl⟩
  rw [hd'', Option.getD_some]
  refine undone_of_same fun name => ?_
  rw [Links.get?_unlink hd'', h.2]
  by_cases hn : name = r.codeFile
  · rw [if_pos hn, hn, eq_comm, ← Option.not_isSome_iff_eq_none, ← Links.taken_eq_isSome, h.1]
    exact Bool.false_ne_true
  · rw [if_neg hn, if_neg hn]

theorem settle_error_iff (h : Written r d d') (text : String) :
    EndsWell r t d (r.settle faults d' (.error text, t)) ↔ faults.removed = true := by
  show Undone r t t d (if faults.removed then _ else _) ↔ _
  cases hremoved : faults.removed with
  | true => exact iff_of_true (undone_of_removed h) rfl
  | false => exact iff_of_false (not_undone_of_written h) Bool.false_ne_true

theorem not_endsWell_of_panic (h : Written r d d') :
    ¬ EndsWell r t d (r.settle faults d' (.panic, t)) := not_undone_of_written h

/-- What is stored is what is promised exactly if the expiry has a year of four digits. -/
theorem stored_iff (h : Written r d d') {e : DateTime} (hnow : chronoYears r.now = true)
    (he : r.creation.expiry = some e) (hchrono : ReadsBack e)
    (hrow : t.insert ⟨hashSecret r.code.text, r.name, e.toRfc3339, none⟩ = some t') :
    Stored r t' d' ↔ (r.now.addSeconds r.ttlSeconds.toNat).InRange := by
  have hself := Table.get?_insert_self hrow
  rw [← expiry_exact_iff hnow he hchrono]
  constructor
  · intro hstored
    obtain ⟨row, hget, _, hparse, _⟩ := hstored.row
    cases hself.symm.trans hget
    exact hparse
  · intro hparse
    refine ⟨holds_line r.code ((h.2 _).trans (if_pos rfl)), _, hself, rfl, hparse, fun q hq => ?_⟩
    exact admits_iff hq.symm rfl hparse

/-- **Once the code file stands**, the second half decides. -/
theorem settle_ends_well_iff (hnow : chronoYears r.now = true)
    (hchrono : ∀ e, r.creation.expiry = some e → ReadsBack e) (h : Written r d d') :
    EndsWell r t d (r.settle faults d' (r.store faults.store t)) ↔
      (∃ step, faults.store = some (step, false) ∧ (step = .insert → r.creation.expiry.isSome) ∧
        faults.removed = true) ∨
      (faults.store = none ∧ r.creation.expiry.isSome ∧
        (t.get? (hashSecret r.code.text)).isSome ∧ faults.removed = true) ∨
      (faults.store = none ∧ t.get? (hashSecret r.code.text) = none ∧
        (r.now.addSeconds r.ttlSeconds.toNat).InRange) := by
  cases hstore : faults.store with
  | none =>
    simp only [reduceCtorEq, false_and, exists_false, false_or, true_and]
    unfold CodeRequest.store
    cases he : r.creation.expiry with
    | none =>
      refine iff_of_false (not_endsWell_of_panic h) ?_
      rintro (⟨hdate, _⟩ | ⟨_, hrange⟩)
      · cases hdate
      · cases he.symm.trans (expiry_of_inRange hnow hrange)
    | some e =>
      cases hrow : t.insert ⟨hashSecret r.code.text, r.name, e.toRfc3339, none⟩ with
      | none =>
        have htaken : (t.get? (hashSecret r.code.text)).isSome := by
          by_contra hfresh
          obtain ⟨t', ht', _⟩ := Table.insert_of_fresh (t := t)
            (r := ⟨hashSecret r.code.text, r.name, e.toRfc3339, none⟩)
            (Option.not_isSome_iff_eq_none.mp hfresh)
          cases hrow.symm.trans ht'
        have hpresent : t.get? (hashSecret r.code.text) ≠ none := Option.isSome_iff_ne_none.mp htaken
        simp only [htaken, hpresent, Option.isSome_some, true_and, false_and, or_false]
        rw [hrow]
        exact settle_error_iff h _
      | some t' =>
        have hfresh : t.get? (hashSecret r.code.text) = none := Table.fresh_of_insert hrow
        simp only [hfresh, Option.isSome_none, Bool.false_eq_true, false_and, and_false, true_and,
          false_or]
        rw [hrow]
        exact stored_iff h hnow he (hchrono e he) hrow
  | some fault =>
    obtain ⟨step, panics⟩ := fault
    have hplace : (∃ step', some (step, panics) = some (step', false) ∧
        (step' = .insert → r.creation.expiry.isSome) ∧ faults.removed = true) ↔
        panics = false ∧ (step = .insert → r.creation.expiry.isSome) ∧ faults.removed = true := by
      simp [and_assoc]
    simp only [hplace, reduceCtorEq, false_and, or_false]
    have hbroken : EndsWell r t d (r.settle faults d' (.broken panics, t)) ↔
        panics = false ∧ faults.removed = true := by
      cases panics with
      | true => exact iff_of_false (not_endsWell_of_panic h) fun hno => Bool.noConfusion hno.1
      | false => exact (settle_error_iff h "").trans (and_iff_right rfl).symm
    cases step with
    | insert =>
      cases he : r.creation.expiry with
      | none =>
        simp only [CodeRequest.store, he, Option.isSome_none, Bool.false_eq_true, forall_const,
          false_and, and_false, iff_false]
        exact not_endsWell_of_panic h
      | some e =>
        simp only [CodeRequest.store, he, Option.isSome_some, implies_true, true_and]
        exact hbroken
    | directory => simpa [CodeRequest.store] using hbroken
    | connect => simpa [CodeRequest.store] using hbroken
    | timeout => simpa [CodeRequest.store] using hbroken
    | initializeDatabase => simpa [CodeRequest.store] using hbroken

omit [Formats] in
/-- **A call that passes the checks** comes to the second half, or gives the code file up. -/
theorem perform_of_ready (h : r.Ready faults d) :
    ∃ d', (faults.secret = none ∧ r.draft ≠ r.codeFile ∧ d.taken r.codeFile = false ∧
        Written r d d' ∧
        r.perform faults t d = r.settle faults d' (r.store faults.store t)) ∨
      ((faults.secret = none → r.draft = r.codeFile ∨ d.taken r.codeFile = true) ∧
        (∃ panics, r.perform faults t d = (.broken panics, t, d')) ∧
        (Undone r t t d d' ↔ ∃ n panics, faults.secret = some (n, panics) ∧ n.val ≤ 38 ∧
          (r.draft = r.codeFile → n.val ≤ 1))) := by
  obtain ⟨hprepare, hname, httl, hparent, hseen, hdraft⟩ := h
  have hsome : (Path.parent r.codeFile).isNone = false := by
    rw [← Option.not_isSome, hparent]
    rfl
  have hnumber : (faults.secret.map fun f => f.1.val) = (faults.secret.map Prod.fst).map Fin.val := by
    rw [Option.map_map]
    rfl
  unfold CodeRequest.perform
  rw [hprepare, hname, hnumber]
  simp only [httl, if_false, hsome, Bool.false_eq_true]
  obtain ⟨d', ⟨hnone, hne, hfree, hok, hget⟩ | ⟨hwhy, hfail, hundone⟩⟩ :=
    perform_codeFile (t := t) hseen hdraft (faults.secret.map Prod.fst)
  · refine ⟨d', .inl ⟨Option.map_eq_none_iff.mp hnone, hne, hfree, ⟨hfree, hget⟩, ?_⟩⟩
    rw [hnone, Option.map_none, hok]
  · refine ⟨d', .inr ⟨fun hsecret => ?_, ⟨(faults.secret.map Prod.snd).getD false, ?_⟩, ?_⟩⟩
    · rw [hsecret] at hwhy
      exact hwhy.resolve_left fun hne => hne rfl
    · rw [hfail]
    · rw [hundone]
      constructor
      · rintro ⟨n, hn, hle, hsame⟩
        obtain ⟨⟨m, panics⟩, hsecret, rfl⟩ := Option.map_eq_some_iff.mp hn
        exact ⟨m, panics, hsecret, hle, hsame⟩
      · rintro ⟨n, panics, hsecret, hle, hsame⟩
        exact ⟨n, by rw [hsecret]; rfl, hle, hsame⟩

/-- **When the file and the row appear together, or neither does.** For every request, every fault
    and whatever stands there: the creation ends well exactly if it is `Sound`. -/
theorem creation_ends_well_iff (r : CodeRequest) (faults : CreationFaults) (t : Enrollments)
    (d : Links) (hnow : chronoYears r.now = true)
    (hchrono : ∀ e, r.creation.expiry = some e → ReadsBack e) :
    EndsWell r t d (r.perform faults t d) ↔ Sound r faults t d := by
  by_cases hready : r.Ready faults d
  swap
  · obtain ⟨o, ho, hrun⟩ := perform_of_not_ready (t := t) hready
    rw [hrun]
    exact iff_of_true ((endsWell_of_ne_ok ho).mpr (undone_refl r t d)) (.refused hready)
  obtain ⟨d', ⟨hsecret, hne, hfree, hwritten, hrun⟩ | ⟨hwhy, ⟨panics, hrun⟩, hundone⟩⟩ :=
    perform_of_ready (t := t) hready
  · rw [hrun, settle_ends_well_iff hnow hchrono hwritten]
    constructor
    · rintro (⟨step, hs, hdate, hr⟩ | ⟨hs, hdate, hrow, hr⟩ | ⟨hs, hrow, hrange⟩)
      · exact .failed step hsecret hne hfree hs hdate hr
      · exact .conflict hsecret hne hfree hs hdate hrow hr
      · exact .stored hsecret hne hfree hs hrow hrange
    · intro hsound
      cases hsound with
      | refused h => exact absurd hready h
      | cut n panics h hn hsame =>
        rw [hsecret] at h
        cases h
      | failed step _ _ _ h hdate hr => exact .inl ⟨step, h, hdate, hr⟩
      | conflict _ _ _ h hdate hrow hr => exact .inr (.inl ⟨h, hdate, hrow, hr⟩)
      | stored _ _ _ h hrow hrange => exact .inr (.inr ⟨h, hrow, hrange⟩)
  · rw [hrun]
    refine ((endsWell_of_ne_ok (broken_ne_ok panics)).trans hundone).trans ?_
    constructor
    · rintro ⟨n, panics, hsecret, hle, hsame⟩
      exact .cut n panics hsecret hle hsame
    · have hblocked : faults.secret = none → r.draft ≠ r.codeFile → d.taken r.codeFile ≠ false :=
        fun hsecret hne => by rw [(hwhy hsecret).resolve_left hne]; exact Bool.noConfusion
      intro hsound
      cases hsound with
      | refused h => exact absurd hready h
      | cut n panics h hn hsame => exact ⟨n, panics, h, hn, hsame⟩
      | failed _ hsecret hne hfree _ _ _ => exact absurd hfree (hblocked hsecret hne)
      | conflict hsecret hne hfree _ _ _ _ => exact absurd hfree (hblocked hsecret hne)
      | stored hsecret hne hfree _ _ _ => exact absurd hfree (hblocked hsecret hne)

omit [Sha256] [Formats] in
theorem settle_outcome (o : Outcome × Enrollments) : (r.settle faults d o).1 = o.1 := by
  obtain ⟨_ | _ | _, t⟩ := o <;> rfl

omit [Sha256] [Formats] in
theorem settle_table (o : Outcome × Enrollments) : (r.settle faults d o).2.1 = o.2 := by
  obtain ⟨_ | _ | _, t⟩ := o <;> rfl

omit [Formats] in
theorem store_ok {fault : Option (StoreStep × Bool)} (h : (r.store fault t).1 = .ok) :
    (r.creation.expiry.bind fun expiry =>
      t.insert ⟨hashSecret r.code.text, r.name, expiry.toRfc3339, none⟩) =
        some (r.store fault t).2 := by
  have hbroken : ∀ panics, (Outcome.broken panics, t).1 ≠ Outcome.ok := broken_ne_ok
  unfold CodeRequest.store at h ⊢
  cases he : r.creation.expiry with
  | none =>
    rw [he] at h
    rcases fault with _ | ⟨_ | _ | _ | _ | _, panics⟩
    · cases h
    all_goals first
      | exact absurd h (hbroken panics)
      | cases h
  | some e =>
    rw [he] at h
    rcases fault with _ | ⟨_ | _ | _ | _ | _, panics⟩
    · cases hrow : t.insert ⟨hashSecret r.code.text, r.name, e.toRfc3339, none⟩ with
      | none =>
        simp only [hrow] at h
        cases h
      | some t' =>
        simp only [Option.bind_some, hrow]
    all_goals exact absurd h (hbroken panics)

omit [Formats] in
/-- **A creation that succeeds** does to the table what `createEnrollment` says. -/
theorem perform_ok (h : (r.perform faults t d).1 = .ok) :
    createEnrollment r.creation t = some (r.perform faults t d).2.1 := by
  by_cases hready : r.Ready faults d
  swap
  · obtain ⟨o, ho, hrun⟩ := perform_of_not_ready (t := t) hready
    rw [hrun] at h
    exact absurd h ho
  obtain ⟨d', ⟨_, _, _, _, hrun⟩ | ⟨_, ⟨panics, hrun⟩, _⟩⟩ := perform_of_ready (t := t) hready
  · obtain ⟨_, hname, httl, _⟩ := hready
    have httl' : r.ttlSeconds.toNat ≠ 0 := fun h => httl (UInt64.toNat_inj.mp h)
    rw [hrun] at h ⊢
    rw [settle_outcome] at h
    rw [settle_table]
    unfold createEnrollment
    show (match validateAgentName r.name with
      | .error _ => none
      | .ok () => if r.ttlSeconds.toNat = 0 then none else _) = _
    rw [hname]
    exact (if_neg httl').trans (store_ok h)
  · rw [hrun] at h
    exact absurd h (broken_ne_ok panics)

end Halves

/-! ## 6. Samples -/

namespace Sample

/-- A code for the agent of the samples. -/
def codeRequest (ttlSeconds : UInt64) (now : DateTime) : CodeRequest :=
  ⟨"media", "/etc/beacon/media.code", ttlSeconds, token, temporary, now⟩

/-- The largest TTL there is, and one that no calendar holds. -/
def largest : UInt64 := 18446744073709551615
def endless : UInt64 := 10000000000000

/-- The creation from nothing, a second after the expiry of the samples. -/
def created (ttlSeconds : UInt64) : Outcome × Enrollments × Links :=
  @CodeRequest.perform (codeRequest ttlSeconds ⟨1767225601000000000⟩) hashing {} .empty .empty

theorem readsBack_expiry : @ReadsBack expiryFormats ⟨1767225600000000000⟩ :=
  ⟨fun _ => by decide, fun h => absurd (by decide) h⟩

end Sample

theorem creation_ends_well_iff_default :
    let r := Sample.codeRequest 900 ⟨1767224700000000000⟩
    @EndsWell Sample.hashing Sample.expiryFormats r .empty .empty
      (@CodeRequest.perform r Sample.hashing {} .empty .empty) := by
  intro r
  refine (@creation_ends_well_iff Sample.hashing Sample.expiryFormats r {} .empty .empty
    (by decide) ?_).mpr
    (@Sound.stored Sample.hashing r {} .empty .empty rfl (by decide) rfl rfl rfl (by decide))
  intro e he
  have hexpiry : r.creation.expiry = some ⟨1767225600000000000⟩ := by decide
  cases he.symm.trans hexpiry
  exact Sample.readsBack_expiry

/-- **Two TTLs the command line admits.** The largest one is a second of the past once it is cast,
    and the call succeeds; ten million million seconds are beyond the calendar, and the call
    panics with the code in its file. -/
theorem creation_breaks :
    ((Sample.created Sample.largest).1 = .ok ∧
      ¬ @EndsWell Sample.hashing Sample.expiryFormats
        (Sample.codeRequest Sample.largest ⟨1767225601000000000⟩) .empty .empty
        (Sample.created Sample.largest)) ∧
    ((Sample.created Sample.endless).1 = .panic ∧
      (Sample.created Sample.endless).2.2.taken "/etc/beacon/media.code" = true ∧
      ¬ @EndsWell Sample.hashing Sample.expiryFormats
        (Sample.codeRequest Sample.endless ⟨1767225601000000000⟩) .empty .empty
        (Sample.created Sample.endless)) := by
  have hok : (Sample.created Sample.largest).1 = .ok := by decide +kernel
  have hpanic : (Sample.created Sample.endless).1 = .panic := by decide +kernel
  have hpast : ((Sample.created Sample.largest).2.1.get?
      (@hashSecret Sample.hashing Sample.token.text)).map EnrollmentRow.expiresAt =
        some "2026-01-01T00:00:00+00:00" := by decide +kernel
  have hleft : (Sample.created Sample.endless).2.2.taken "/etc/beacon/media.code" = true := by
    decide +kernel
  refine ⟨⟨hok, mt (@endsWell_of_ok Sample.hashing Sample.expiryFormats _ _ _ _ hok).mp
    fun hstored => ?_⟩, hpanic, hleft, mt (@endsWell_of_ne_ok Sample.hashing Sample.expiryFormats
      _ _ _ _ (by rw [hpanic]; intro h; cases h)).mp ?_⟩
  · obtain ⟨row, hget, _, hparse, _⟩ := @Stored.row Sample.hashing Sample.expiryFormats _ _ _ hstored
    have hrow := hpast.symm.trans (congrArg (Option.map EnrollmentRow.expiresAt) hget)
    rw [Option.map_some, Option.some.injEq] at hrow
    rw [← hrow] at hparse
    exact absurd hparse (by decide +kernel)
  · exact not_undone_of_taken (d := .empty) (by decide +kernel) hleft

end Beacon
