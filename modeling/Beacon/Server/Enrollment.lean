/-
  File:      Beacon/Server/Enrollment.lean
  Subject:   Enrollment codes and their redemption (`server.rs`, `consume_enrollment`).

  An operator creates a code for an agent name; the agent redeems it once, before it expires, and
  the server installs a credential for the name. `consumeEnrollment` is the text of a redemption:
  one transaction on the enrollments table, and beside it the steps on the credentials directory,
  where the token is written to a temporary file that is then linked to its name. The clock
  readings and the two UUIDs a redemption draws are inputs of it.

  * `perform_of_refused`, `perform_install` -- what a redemption does, whichever of its statements
    fails;
  * `failed_enrollment_iff` -- **a failed redemption grants nothing exactly as long as no part of
    the token stands in the directory**.
-/
import Beacon.Foundation.Sessions
import Beacon.Server.Credentials
import Beacon.Server.Queue

namespace Beacon

open Foundation

/-! ## 1. Codes -/

/-- A row of the enrollments table. -/
structure EnrollmentRow where
  codeHash : String
  name : String
  expiresAt : String
  consumedAt : Option String
  deriving DecidableEq, Repr

abbrev Enrollments := Table String EnrollmentRow EnrollmentRow.codeHash

/-- The creation of a code: what the operator asks for, the code drawn, and the clock. -/
structure Creation where
  name : String
  code : String
  ttlSeconds : Nat
  now : DateTime

/-- `Utc::now() + Duration::seconds(ttl_seconds as i64)`. -/
def Creation.expiry (c : Creation) : Option DateTime := chronoAddSeconds c.now (asI64 c.ttlSeconds)

/-- What `create_enrollment` does to the table; `none` where it does not succeed. -/
def createEnrollment [Sha256] (c : Creation) (t : Enrollments) : Option Enrollments :=
  match validateAgentName c.name with
  | .error _ => none
  | .ok () =>
    if c.ttlSeconds = 0 then none
    else c.expiry.bind fun expiry =>
      t.insert ⟨hashSecret c.code, c.name, expiry.toRfc3339, none⟩

/-! ## 2. Redemption -/

/-- A request, with what the server draws for it, the clock at the check and at the update, and
    whether its two checks of the credential's name can look: one that cannot says "not there". -/
structure EnrollmentRequest where
  name : String
  code : String
  token : Uuid
  temporary : Uuid
  checkedAt : DateTime
  consumedAt : DateTime
  stat : Bool
  statAgain : Bool

namespace EnrollmentRequest

variable (r : EnrollmentRequest)

/-- The file the credential is installed as. -/
def credential : String := credentialName r.name

/-- The file the token is written to first. -/
def draft : String := temporaryName r.temporary

end EnrollmentRequest

/-- The checks on the row of the code. -/
def EnrollmentRow.admits [Formats] (row : EnrollmentRow) (r : EnrollmentRequest) :
    Except String Unit :=
  if row.name ≠ r.name then .error "enrollment code does not match agent name"
  else if row.consumedAt.isSome then .error "enrollment code has already been used"
  else match Formats.parseFromRfc3339 row.expiresAt with
    | none => .error "parse enrollment expiry"
    | some expiresAt =>
      if expiresAt ≤ r.checkedAt then .error "enrollment code has expired" else .ok ()

section Redemption

variable [Sha256] (r : EnrollmentRequest)

/-- `UPDATE enrollments SET consumed_at = ?1 WHERE code_hash = ?2 AND consumed_at IS NULL`. -/
def EnrollmentRequest.consume (t : Enrollments) : Enrollments :=
  match t.get? (hashSecret r.code) with
  | none => t
  | some row =>
    if row.consumedAt.isNone then t.upsert { row with consumedAt := some r.consumedAt.toRfc3339 }
    else t

end Redemption

abbrev Redemption := Session Enrollments Links String

/-- The secret is written to a temporary file, which is then linked to its name and dropped; `stat`
    is whether `path.exists()` can look. -/
def writeSecretFile (stat : Bool) (path temporary secret : String) : Redemption Unit := do
  let seen ← Session.onDisk fun d => stat && d.contains path
  if seen then Session.raise ("secret file " ++ path ++ " already exists")
  else do
    Session.attempt -- `create_dir_all`
    Session.disk fun d => d.createNew temporary
    Session.attempt -- `set_permissions`
    Session.forEach (fun c => Session.disk fun d => some (d.append temporary c))
      (Text.trim secret).toList
    Session.disk fun d => some (d.append temporary '\n')
    Session.attempt -- `sync_all`
    Session.disk fun d => d.hardLink temporary path
    Session.disk fun d => d.unlink temporary

/-- What follows the checks. -/
def EnrollmentRequest.install [Sha256] (r : EnrollmentRequest) : Redemption String := do
  Session.execute r.consume
  writeSecretFile r.statAgain r.credential r.draft r.token.text
  pure r.token.text

def consumeEnrollment [Sha256] [Formats] (r : EnrollmentRequest) : Redemption String := do
  match validateAgentName r.name with
  | .error message => Session.raise message
  | .ok () =>
    if Text.isBlank r.code then Session.raise "enrollment code cannot be empty"
    else do
      let seen ← Session.onDisk fun d => r.stat && d.contains r.credential
      if seen then Session.raise ("agent credential already exists for " ++ r.name)
      else do
        let row ← Session.query fun t => t.get? (hashSecret r.code)
        match row with
        | none => Session.raise "invalid enrollment code"
        | some row =>
          match row.admits r with
          | .error message => Session.raise message
          | .ok () => r.install

/-- The request passes every check, and the name of its credential is free. -/
def EnrollmentRequest.Admitted [Sha256] [Formats] (r : EnrollmentRequest) (t : Enrollments)
    (d : Links) : Prop :=
  validateAgentName r.name = .ok () ∧ Text.isBlank r.code = false ∧
    d.taken r.credential = false ∧
    ∃ row, t.get? (hashSecret r.code) = some row ∧ row.admits r = .ok ()

/-- The request passes the checks before the write: no credential of the name is seen. Its name may
    be taken all the same, by a link that leads nowhere or where the check cannot look. -/
def EnrollmentRequest.Passes [Sha256] [Formats] (r : EnrollmentRequest) (t : Enrollments)
    (d : Links) : Prop :=
  validateAgentName r.name = .ok () ∧ Text.isBlank r.code = false ∧
    (r.stat && d.contains r.credential) = false ∧
    ∃ row, t.get? (hashSecret r.code) = some row ∧ row.admits r = .ok ()

/-! ## 3. A secret file -/

theorem trim_written (id : Uuid) (k : Nat) :
    Text.trim (String.ofList (id.text.toList.take k)) = String.ofList (id.text.toList.take k) := by
  refine Text.trim_of_no_blank fun c hc => id.not_whitespace c ?_
  rw [String.toList_ofList] at hc
  exact List.mem_of_mem_take hc

theorem trim_line (id : Uuid) : Text.trim (String.ofList (id.text.toList ++ ['\n'])) = id.text := by
  rw [String.ofList_append, String.ofList_toList]
  refine Text.trim_append id.not_whitespace fun c hc => ?_
  rw [List.mem_singleton.mp hc]
  rfl

/-- From the link on. -/
def linkSecret (path temporary : String) : Redemption Unit := do
  Session.disk fun d => d.hardLink temporary path
  Session.disk fun d => d.unlink temporary

/-- From the line break on. -/
def endSecret (path temporary : String) : Redemption Unit := do
  Session.disk fun d => some (d.append temporary '\n')
  Session.attempt
  linkSecret path temporary

section Secret

variable {α : Type} {stat : Bool} {path temporary : String} {id : Uuid}
  {k : Unit → Redemption α} {s w : Enrollments} {d : Links}

/-- A free name is not seen, whether a check can look or not. -/
theorem unseen_of_free (stat : Bool) (h : d.taken path = false) :
    (stat && d.contains path) = false := by
  rw [Links.contains_of_free h, Bool.and_false]

/-- The statements of `writeSecretFile` one after the other. -/
theorem writeSecretFile_bind (stat : Bool) (path temporary : String) (id : Uuid)
    (k : Unit → Redemption α) : writeSecretFile stat path temporary id.text >>= k =
      .look fun d => if stat && d.contains path then
        .throw ("secret file " ++ path ++ " already exists")
        else .act some (.act (fun d => d.createNew temporary) (.act some
          (Session.forEach (fun c => Session.disk fun d => some (d.append temporary c))
            id.text.toList >>= fun _ => endSecret path temporary >>= k))) := by
  unfold writeSecretFile
  simp only [Uuid.trim_text]
  show Session.look _ = _
  refine congrArg Session.look (funext fun d => ?_)
  show Session.bind (if stat && d.contains path then _ else _) k = _
  cases stat && d.contains path with
  | true => rfl
  | false =>
    rw [if_neg Bool.false_ne_true]
    refine congrArg (Session.act some) (congrArg (Session.act _) (congrArg (Session.act some) ?_))
    exact Session.bind_assoc (Session.forEach _ id.text.toList) _ _

theorem perform_writeSecretFile (hpath : (stat && d.contains path) = false)
    (fault : Option Nat) : (writeSecretFile stat path temporary id.text >>= k).perform fault s w d =
      (Session.act some (.act (fun d => d.createNew temporary) (.act some
        (Session.forEach (fun c => Session.disk fun d => some (d.append temporary c))
          id.text.toList >>= fun _ => endSecret path temporary >>= k)))).perform fault s w d := by
  rw [writeSecretFile_bind, Session.perform, hpath]
  rfl

/-- What a fault up to the link leaves of a secret file: nothing, or a part of the secret in the
    temporary file. -/
inductive SecretLeft (temporary : String) (id : Uuid) (d d' : Links) (n : Nat) : Prop where
  | nothing (hn : n ≤ 1) (h : d' = d)
  | part (text : String) (hlow : 2 ≤ n)
      (htrim : Text.trim text = String.ofList (id.text.toList.take (n - 3)))
      (hget : ∀ name, d'.get? name = if name = temporary then some (.file (some text))
        else d.get? name)

/-- The temporary file while it is filled. -/
theorem get?_drafted {d₁ : Links} (h : d.createNew temporary = some d₁) (cs : List Char)
    (name : String) : (cs.foldl (fun d c => d.append temporary c) d₁).get? name =
      if name = temporary then some (.file (some (String.ofList cs))) else d.get? name := by
  have hnew := Links.get?_createNew h
  have hempty : d₁.get? temporary = some (.file (some "")) := (hnew temporary).trans (if_pos rfl)
  rw [Links.get?_appendAll cs hempty (Links.sole_createNew h), String.empty_append, hnew]
  by_cases hn : name = temporary
  · rw [if_pos hn, if_pos hn]
  · rw [if_neg hn, if_neg hn, if_neg hn]

theorem line_of_drafted (d : Links) (temporary : String) (cs : List Char) :
    (cs.foldl (fun d c => d.append temporary c) d).append temporary '\n' =
      (cs ++ ['\n']).foldl (fun d c => d.append temporary c) d := by
  rw [List.foldl_append, List.foldl_cons, List.foldl_nil]

/-- **A fault up to the link.** -/
theorem perform_secret_part (id : Uuid) (hpath : (stat && d.contains path) = false)
    (htemp : d.taken temporary = false) {n : Nat} (hn : n ≤ 41) :
    ∃ d', (writeSecretFile stat path temporary id.text >>= k).perform (some n) s w d =
      (.error .refused, s, d') ∧ SecretLeft temporary id d d' n := by
  have hlen := id.length
  obtain ⟨d₁, hd₁⟩ := Links.createNew_of_fresh (Links.taken_eq_false.mp htemp)
  have hfilled := get?_drafted hd₁
  rw [perform_writeSecretFile hpath]
  rcases n with _ | _ | _ | m
  · exact ⟨d, rfl, .nothing (by omega) rfl⟩
  · exact ⟨d, rfl, .nothing (by omega) rfl⟩
  · refine ⟨d₁, ?_, .part "" (by omega) rfl fun name => Links.get?_createNew hd₁ name⟩
    simp [Session.perform, hd₁]
  · have hloop := Session.perform_forEach (fun d c => Links.append d temporary c) id.text.toList
      (endSecret path temporary >>= k) m s w d₁
    have hcreated : (Session.act some (.act (fun d => d.createNew temporary) (.act some
        (Session.forEach (fun c => Session.disk fun d => some (d.append temporary c))
          id.text.toList >>= fun _ => endSecret path temporary >>= k)))).perform (some (m + 3)) s w d =
        (Session.forEach (fun c => Session.disk fun d => some (d.append temporary c))
          id.text.toList >>= fun _ => endSecret path temporary >>= k).perform (some m) s w d₁ := by
      simp [Session.perform, hd₁]
    rw [hcreated, hloop, hlen]
    by_cases hm : m < 36
    · rw [if_pos hm]
      exact ⟨_, rfl, .part _ (by omega) (trim_written id m) (hfilled _)⟩
    · obtain ⟨j, rfl⟩ : ∃ j, m = 36 + j := ⟨m - 36, by omega⟩
      rw [if_neg hm, Nat.add_sub_cancel_left]
      have htoken : String.ofList (id.text.toList.take (36 + j + 3 - 3)) = id.text := by
        rw [List.take_of_length_le (by omega), String.ofList_toList]
      have hline := hfilled (id.text.toList ++ ['\n'])
      rw [← line_of_drafted] at hline
      rcases j with _ | _ | _ | j
      · refine ⟨_, rfl, .part _ (by omega) ?_ (hfilled id.text.toList)⟩
        rw [htoken, String.ofList_toList, Uuid.trim_text]
      · exact ⟨_, rfl, .part _ (by omega) ((trim_line id).trans htoken.symm) hline⟩
      · exact ⟨_, rfl, .part _ (by omega) ((trim_line id).trans htoken.symm) hline⟩
      · omega

/-- **Without a fault up to the link** the temporary file holds the line. -/
theorem perform_secret_line (id : Uuid) (hpath : (stat && d.contains path) = false)
    (htemp : d.taken temporary = false) (fault : Option Nat)
    (hlate : ∀ n, fault = some n → 41 ≤ n) :
    ∃ d', (∀ name, d'.get? name = if name = temporary then
        some (.file (some (String.ofList (id.text.toList ++ ['\n'])))) else d.get? name) ∧
      (writeSecretFile stat path temporary id.text >>= k).perform fault s w d =
        (linkSecret path temporary >>= k).perform (fault.map fun n => n - 41) s w d' := by
  have hlen := id.length
  obtain ⟨d₁, hd₁⟩ := Links.createNew_of_fresh (Links.taken_eq_false.mp htemp)
  refine ⟨_, get?_drafted hd₁ (id.text.toList ++ ['\n']), ?_⟩
  rw [perform_writeSecretFile hpath, ← line_of_drafted]
  cases fault with
  | none =>
    rw [Session.perform_act rfl, Session.perform_act hd₁, Session.perform_act rfl,
      Session.perform_forEach_none (fun d c => Links.append d temporary c)]
    rfl
  | some n =>
    obtain ⟨j, rfl⟩ : ∃ j, n = 36 + 2 + j + 3 := ⟨n - 41, by have := hlate n rfl; omega⟩
    have hcreated : (Session.act some (.act (fun d => d.createNew temporary) (.act some
        (Session.forEach (fun c => Session.disk fun d => some (d.append temporary c))
          id.text.toList >>= fun _ => endSecret path temporary >>= k)))).perform
            (some (36 + 2 + j + 3)) s w d =
        (Session.forEach (fun c => Session.disk fun d => some (d.append temporary c))
          id.text.toList >>= fun _ => endSecret path temporary >>= k).perform
            (some (36 + 2 + j)) s w d₁ := by
      simp [Session.perform, hd₁]
    rw [hcreated, Session.perform_forEach (fun d c => Links.append d temporary c), hlen,
      if_neg (by omega), show 36 + 2 + j - 36 = j + 2 by omega, Option.map_some,
      show 36 + 2 + j + 3 - 41 = j by omega]
    rfl

theorem perform_linkSecret_taken (h : d.taken path = true) (fault : Option Nat) :
    (linkSecret path temporary >>= k).perform fault s w d = (.error .refused, s, d) := by
  simp [linkSecret, Session.disk, Bind.bind, Session.bind, Session.perform,
    Links.hardLink_of_taken h]

/-- **From the link on**: the file has both names, and then its own. -/
theorem perform_linkSecret {node : Node} (hold : d.get? temporary = some node)
    (hnew : d.taken path = false) (hne : temporary ≠ path) :
    ∃ d₁ d₂, (∀ name, d₁.get? name = if name = path then some node else d.get? name) ∧
      (∀ name, d₂.get? name = if name = path then some node else
        if name = temporary then none else d.get? name) ∧
      ∀ fault, (linkSecret path temporary >>= k).perform fault s w d =
        if fault = some 0 then (.error .refused, s, d)
        else if fault = some 1 then (.error .refused, s, d₁)
        else (k ()).perform (fault.map fun n => n - 2) s w d₂ := by
  obtain ⟨m, hm, _⟩ := Links.get?_eq_some.mp hold
  obtain ⟨d₁, hd₁⟩ := Links.hardLink_of_fresh hm (Links.taken_eq_false.mp hnew)
  have hget₁ := Links.get?_hardLink hd₁
  have hold₁ : d₁.node? temporary ≠ none := by
    rw [ne_eq, ← Links.get?_eq_none, hget₁, if_neg hne, hold]
    exact Option.some_ne_none node
  obtain ⟨d₂, hd₂⟩ : ∃ d₂, d₁.unlink temporary = some d₂ := by
    obtain ⟨m', hm'⟩ := Option.ne_none_iff_exists'.mp hold₁
    rw [Links.unlink, hm']
    exact ⟨_, rfl⟩
  refine ⟨d₁, d₂, fun name => ?_, fun name => ?_, fun fault => ?_⟩
  · rw [hget₁, hold]
  · rw [Links.get?_unlink hd₂, hget₁, hold]
    by_cases hn : name = temporary
    · rw [if_pos hn, if_neg (hn ▸ hne), if_pos hn]
    · rw [if_neg hn, if_neg hn]
  · rcases fault with _ | _ | _ | n
    · simp [linkSecret, Session.disk, Bind.bind, Session.bind, Session.perform, hd₁, hd₂]
    · rfl
    · simp [linkSecret, Session.disk, Bind.bind, Session.bind, Session.perform, hd₁]
    · simp [linkSecret, Session.disk, Bind.bind, Session.bind, Session.perform, hd₁, hd₂]

/-- **Without a fault up to the link, and its name free**, the secret stands under its name, also
    where the temporary file cannot be dropped. -/
theorem perform_secret_linked (stat : Bool) (id : Uuid) (hfree : d.taken path = false)
    (htemp : d.taken temporary = false) (hne : temporary ≠ path) (fault : Option Nat)
    (hlate : ∀ n, fault = some n → 42 ≤ n) :
    ∃ d₁ d₂, d₁.taken path = true ∧ (∀ name, d₂.get? name = if name = path then
        some (.file (some (String.ofList (id.text.toList ++ ['\n'])))) else d.get? name) ∧
      (writeSecretFile stat path temporary id.text >>= k).perform fault s w d =
        if fault = some 42 then (.error .refused, s, d₁)
        else (k ()).perform (fault.map fun n => n - 43) s w d₂ := by
  obtain ⟨d', hget, hline⟩ := perform_secret_line (k := k) (s := s) (w := w) id
    (unseen_of_free stat hfree) htemp fault fun n hn => Nat.le_of_succ_le (hlate n hn)
  have hnew : d'.taken path = false :=
    (Links.taken_congr ((hget path).trans (if_neg hne.symm))).trans hfree
  obtain ⟨d₁, d₂, hget₁, hget₂, hlink⟩ :=
    perform_linkSecret (k := k) (s := s) (w := w) ((hget temporary).trans (if_pos rfl)) hnew hne
  refine ⟨d₁, d₂, Links.taken_of_get? ((hget₁ path).trans (if_pos rfl)), fun name => ?_, ?_⟩
  · -- the temporary file is gone again
    rw [hget₂]
    refine if_congr Iff.rfl rfl ?_
    by_cases hn : name = temporary
    · rw [if_pos hn, hn, eq_comm, Links.get?_eq_none]
      exact Links.taken_eq_false.mp htemp
    · rw [if_neg hn, hget, if_neg hn]
  · rw [hline, hlink]
    cases fault with
    | none => rfl
    | some n =>
      obtain ⟨j, rfl⟩ : ∃ j, n = 42 + j := ⟨n - 42, by have := hlate n rfl; omega⟩
      have hnumber : 42 + j - 41 = j + 1 := by omega
      have hrest : j + 1 - 2 = 42 + j - 43 := by omega
      simp only [Option.map_some, Option.some.injEq, hnumber, hrest, Nat.add_one_ne_zero, if_false,
        Nat.add_eq_right, Nat.add_eq_left]

end Secret

/-! ## 4. A redemption alone -/

section Alone

variable [Sha256] [Formats] {r : EnrollmentRequest} {t : Enrollments} {d : Links}

theorem EnrollmentRequest.Admitted.passes (h : r.Admitted t d) : r.Passes t d :=
  ⟨h.1, h.2.1, unseen_of_free r.stat h.2.2.1, h.2.2.2⟩

theorem admitted_iff_passes : r.Admitted t d ↔ r.Passes t d ∧ d.taken r.credential = false :=
  ⟨fun h => ⟨h.passes, h.2.2.1⟩, fun h => ⟨h.1.1, h.1.2.1, h.2, h.1.2.2.2⟩⟩

/-- **A request that fails a check** is refused and changes nothing. -/
theorem perform_of_refused (h : ¬ r.Passes t d) (fault : Option Nat) :
    ∃ e, (consumeEnrollment r).perform fault t t d = (.error e, t, d) := by
  unfold EnrollmentRequest.Passes at h
  unfold consumeEnrollment
  cases hname : validateAgentName r.name with
  | error m => exact ⟨_, rfl⟩
  | ok u =>
    simp only
    cases hcode : Text.isBlank r.code with
    | true => exact ⟨_, rfl⟩
    | false =>
      simp only [Bool.false_eq_true, if_false, Session.onDisk, Session.query, Bind.bind, Session.bind,
        Session.perform]
      cases hcred : r.stat && d.contains r.credential with
      | true => exact ⟨_, rfl⟩
      | false =>
        simp only [Bool.false_eq_true, if_false, Session.perform]
        by_cases hfault : fault = some 0
        · exact ⟨_, if_pos hfault⟩
        · rw [if_neg hfault]
          cases hrow : t.get? (hashSecret r.code) with
          | none => exact ⟨_, rfl⟩
          | some row =>
            simp only
            cases hadmits : row.admits r with
            | error m => exact ⟨_, rfl⟩
            | ok u => exact absurd ⟨hname, hcode, hcred, row, hrow, hadmits⟩ h

/-- A request that passes the checks goes on after the SELECT. -/
theorem perform_of_passed (h : r.Passes t d) (fault : Option Nat) :
    (consumeEnrollment r).perform fault t t d =
      if fault = some 0 then (.error .refused, t, d)
      else r.install.perform (fault.map Nat.pred) t t d := by
  obtain ⟨hname, hcode, hcred, row, hrow, hadmits⟩ := h
  unfold consumeEnrollment
  rw [hname]
  simp only [hcode, Bool.false_eq_true, if_false, Session.onDisk, Session.query, Bind.bind,
    Session.bind, Session.perform, hcred, hrow, hadmits]

/-- From the link on. -/
def EnrollmentRequest.finish (r : EnrollmentRequest) : Redemption String := do
  Session.disk fun d => d.hardLink r.draft r.credential
  Session.disk fun d => d.unlink r.draft
  pure r.token.text

/-- From the line break on. -/
def EnrollmentRequest.line (r : EnrollmentRequest) : Redemption String := do
  Session.disk fun d => some (d.append r.draft '\n')
  Session.attempt
  r.finish

/-- From the first character of the token on. -/
def EnrollmentRequest.fill (r : EnrollmentRequest) : List Char → Redemption String := fun cs => do
  Session.forEach (fun c => Session.disk fun d => some (d.append r.draft c)) cs
  r.line

omit [Formats] in
/-- The statements of an installation one after the other. -/
theorem install_eq (r : EnrollmentRequest) : r.install =
    .update r.consume (.look fun d => if r.statAgain && d.contains r.credential then
      .throw ("secret file " ++ r.credential ++ " already exists")
      else .act some (.act (fun d => d.createNew r.draft)
        (.act some (r.fill r.token.text.toList)))) := by
  show Session.update r.consume (writeSecretFile _ _ _ _ >>= fun _ => pure r.token.text) = _
  rw [writeSecretFile_bind]
  rfl

/-- What a fault leaves of an installation: nothing, a part of the token in the temporary file, or
    the credential. -/
inductive Leaves (r : EnrollmentRequest) (d d' : Links) (n : Nat) : Prop where
  | nothing (hn : n ≤ 2) (h : d' = d)
  | part (text : String) (hlow : 3 ≤ n) (hhigh : n ≤ 42)
      (htrim : Text.trim text = String.ofList (r.token.text.toList.take (n - 4)))
      (hget : ∀ name, d'.get? name = if name = r.draft then some (.file (some text))
        else d.get? name)
  | installed (hlow : 43 ≤ n) (h : d'.taken r.credential = true)

omit [Sha256] [Formats] in
theorem draft_ne_credential (r : EnrollmentRequest) (hname : r.name ≠ "") :
    r.draft ≠ r.credential := by
  intro h
  have hext := extension_temporaryName r.temporary
  rw [show temporaryName r.temporary = credentialName r.name from h,
    extension_credentialName hname] at hext
  exact absurd (Option.some.inj hext) (by decide)

omit [Formats] in
/-- **A fault before the link** leaves nothing, or the temporary file with a part of the token. -/
theorem perform_install_part (hseen : (r.statAgain && d.contains r.credential) = false)
    (hdraft : d.taken r.draft = false) {n : Nat} (hn : n ≤ 41) :
    ∃ d', r.install.perform (some (n + 1)) t t d = (.error .refused, t, d') ∧
      Leaves r d d' (n + 1) := by
  obtain ⟨d', hfail, hleft⟩ := perform_secret_part r.token (s := t) (w := r.consume t)
    (k := fun _ => pure r.token.text) hseen hdraft hn
  refine ⟨d', hfail, ?_⟩
  cases hleft with
  | nothing hn h => exact .nothing (by omega) h
  | part text hlow htrim hget => exact .part text (by omega) (by omega) htrim hget

omit [Formats] in
/-- **What a fault in an installation does**, by the number of the statement it hits. -/
theorem perform_install (hcred : d.taken r.credential = false)
    (hdraft : d.taken r.draft = false) (hname : r.name ≠ "") (n : Nat) :
    ∃ d', (n < 45 ∧ r.install.perform (some n) t t d = (.error .refused, t, d') ∧
        Leaves r d d' n) ∨
      (45 ≤ n ∧ r.install.perform (some n) t t d = (.ok r.token.text, r.consume t, d')) := by
  cases n with
  | zero => exact ⟨d, .inl ⟨by omega, rfl, .nothing (by omega) rfl⟩⟩
  | succ n =>
    have hseen := unseen_of_free r.statAgain hcred
    rcases Nat.lt_or_ge 41 n with hlate | hearly
    · obtain ⟨d₁, d₂, hthere, hget, hlink⟩ := perform_secret_linked r.statAgain r.token (s := t)
        (w := r.consume t) (k := fun _ => pure r.token.text) hcred hdraft
        (draft_ne_credential r hname) (some n) fun m hm => by
          cases hm
          omega
      have hwritten : r.install.perform (some (n + 1)) t t d = _ := hlink
      rw [hwritten]
      obtain ⟨j, rfl⟩ : ∃ j, n = 42 + j := ⟨n - 42, by omega⟩
      rcases j with _ | _ | j
      · exact ⟨d₁, .inl ⟨by omega, rfl, .installed (by omega) hthere⟩⟩
      · exact ⟨d₂, .inl ⟨by omega, rfl,
          .installed (by omega) (Links.taken_of_get? ((hget r.credential).trans (if_pos rfl)))⟩⟩
      · refine ⟨d₂, .inr ⟨by omega, ?_⟩⟩
        rw [if_neg (by simp), Option.map_some, show 42 + (j + 2) - 43 = j + 1 by omega]
        rfl
    · obtain ⟨d', hfail, hleaves⟩ := perform_install_part (t := t) hseen hdraft hearly
      exact ⟨d', .inl ⟨by omega, hfail, hleaves⟩⟩

omit [Formats] in
/-- **The name of the credential is taken, and the check does not see it**: the installation fails
    at the link at the latest, and the temporary file stays. -/
theorem perform_install_taken (hseen : (r.statAgain && d.contains r.credential) = false)
    (hcred : d.taken r.credential = true) (hdraft : d.taken r.draft = false) (fault : Option Nat) :
    ∃ d', r.install.perform fault t t d = (.error .refused, t, d') ∧
      Leaves r d d' (min 42 (fault.getD 42)) := by
  let rest : Redemption String :=
    writeSecretFile r.statAgain r.credential r.draft r.token.text >>= fun _ => pure r.token.text
  -- nothing fails before the link, which is refused
  have hlate : ∀ left, (∀ n, left = some n → 41 ≤ n) → ∃ d',
      rest.perform left t (r.consume t) d = (.error .refused, t, d') ∧ Leaves r d d' 42 := by
    intro left hleft
    obtain ⟨d₁, hget, hlink⟩ := perform_secret_line r.token (s := t) (w := r.consume t)
      (k := fun _ => pure r.token.text) hseen hdraft left hleft
    have hne : r.credential ≠ r.draft := by
      intro e
      rw [e, hdraft] at hcred
      cases hcred
    have hthere : d₁.taken r.credential = true :=
      (Links.taken_congr ((hget r.credential).trans (if_neg hne))).trans hcred
    refine ⟨d₁, hlink.trans (perform_linkSecret_taken hthere _),
      .part _ (by omega) (by omega) ?_ hget⟩
    rw [trim_line, List.take_of_length_le (by rw [r.token.length]; omega), String.ofList_toList]
  match fault with
  | none => exact hlate none fun _ hn => by cases hn
  | some 0 => exact ⟨d, rfl, .nothing (by simp) rfl⟩
  | some (n + 1) =>
    rw [Option.getD_some]
    rcases Nat.lt_or_ge 41 n with hlast | hearly
    · rw [Nat.min_eq_left (by omega)]
      exact hlate (some n) fun m hm => by cases hm; omega
    · rw [Nat.min_eq_right (by omega)]
      exact perform_install_part hseen hdraft hearly

/-- **A request that passes the checks is redeemed**, if nothing fails. -/
theorem perform_redeemed (h : r.Admitted t d) (hdraft : d.taken r.draft = false) :
    ∃ d', (consumeEnrollment r).perform none t t d = (.ok r.token.text, r.consume t, d') := by
  obtain ⟨d', ⟨hn, _⟩ | ⟨_, hok⟩⟩ := perform_install h.2.2.1 hdraft (name_ne_of_valid h.1) 45
  · omega
  · refine ⟨d', ?_⟩
    rw [perform_of_passed h.passes, if_neg (by simp)]
    exact (Session.perform_none (congrArg Prod.fst hok)).trans hok

/-- A credential that the second check sees ends the installation. -/
theorem perform_of_seen (h : r.Passes t d)
    (hseen : (r.statAgain && d.contains r.credential) = true) (fault : Option Nat) :
    ∃ e, (consumeEnrollment r).perform fault t t d = (.error e, t, d) := by
  rw [perform_of_passed h, install_eq]
  rcases fault with _ | _ | _ | n <;> exact ⟨_, by simp only [Session.perform, hseen]; rfl⟩

/-- A temporary name that is taken ends the installation where it is to be created. -/
theorem perform_of_taken (h : r.Passes t d)
    (hseen : (r.statAgain && d.contains r.credential) = false) (hdraft : d.taken r.draft = true)
    (fault : Option Nat) :
    (consumeEnrollment r).perform fault t t d = (.error .refused, t, d) := by
  rw [perform_of_passed h, install_eq]
  simp [Session.perform, hseen, Links.createNew_of_taken hdraft]

/-! ## 5. What a failed redemption grants -/

/-- The part of the token that is written when the statement with this number fails. -/
def EnrollmentRequest.written (r : EnrollmentRequest) (n : Nat) : String :=
  String.ofList (r.token.text.toList.take (n - 5))

omit [Sha256] [Formats] in
/-- A new file grants nothing exactly where its text is empty, or held before, or nothing is
    granted at all. -/
theorem authorized_add_iff {d' : Links} {name text : String} (hfresh : d.get? name = none)
    (hget : ∀ n, d'.get? n = if n = name then some (.file (some text)) else d.get? n) :
    (∀ token, authorized token d' = authorized token d) ↔
      Text.trim text = "" ∨ authorized (Text.trim text) d = true ∨ Blocked d := by
  have hold : ∀ {n : String} {node : Node}, d.get? n = some node → d'.get? n = some node := by
    intro n node hn
    rw [hget, if_neg, hn]
    rintro rfl
    rw [hfresh] at hn
    cases hn
  have hblocked : Blocked d' ↔ Blocked d := by
    constructor
    · rintro ⟨n, hn⟩
      rw [hget] at hn
      split at hn
      · cases hn
      · exact ⟨n, hn⟩
    · rintro ⟨n, hn⟩
      exact ⟨n, hold hn⟩
  have hholds : ∀ token, (∃ n, Holds d' n token) ↔
      (∃ n, Holds d n token) ∨ Text.trim text = token := by
    intro token
    constructor
    · rintro ⟨n, content, hn, htrim⟩
      rw [hget] at hn
      split at hn
      · cases hn
        exact .inr htrim
      · exact .inl ⟨n, content, hn, htrim⟩
    · rintro (⟨n, content, hn, htrim⟩ | htrim)
      · exact ⟨n, content, hold hn, htrim⟩
      · exact ⟨name, text, by rw [hget, if_pos rfl], htrim⟩
  constructor
  · intro h
    by_cases hb : Blocked d
    · exact .inr (.inr hb)
    · by_cases hblank : Text.trim text = ""
      · exact .inl hblank
      · refine .inr (.inl ?_)
        rw [← h]
        exact authorized_iff.mpr ⟨mt hblocked.mp hb, hblank, (hholds _).mpr (.inr rfl)⟩
  · intro h token
    rw [Bool.eq_iff_iff, authorized_iff, authorized_iff, hblocked, hholds]
    refine and_congr_right fun hb => and_congr_right fun hne => ⟨fun hor => ?_, .inl⟩
    rcases hor with hor | rfl
    · exact hor
    · rcases h with h | h | h
      · exact absurd h hne
      · exact (authorized_iff.mp h).2.2
      · exact absurd h hb

/-- The request presents its code again, with what the server then draws for it. -/
def EnrollmentRequest.Again (r r' : EnrollmentRequest) : Prop := r'.name = r.name ∧ r'.code = r.code

/-- The request passes the checks, and is redeemed if its temporary name is free. -/
def EnrollmentRequest.Redeemable (r : EnrollmentRequest) (t : Enrollments) (d : Links) : Prop :=
  r.Admitted t d ∧ (d.taken r.draft = false →
    ((consumeEnrollment r).perform none t t d).1 = .ok r.token.text)

theorem EnrollmentRequest.Admitted.redeemable (h : r.Admitted t d) : r.Redeemable t d := by
  refine ⟨h, fun hdraft => ?_⟩
  obtain ⟨d', hok⟩ := perform_redeemed h hdraft
  rw [hok]

/-- The code is as good as before where no credential of the name has come. -/
theorem EnrollmentRequest.Admitted.again {r' : EnrollmentRequest} {d' : Links}
    (hagain : r.Again r') (hcred : d'.taken r.credential = false) (h : r'.Admitted t d) :
    r'.Redeemable t d' := by
  obtain ⟨hname, hcode, _, hrow⟩ := h
  refine redeemable ⟨hname, hcode, ?_, hrow⟩
  rw [EnrollmentRequest.credential, hagain.1]
  exact hcred

/-- The statement that fails: the one that is made to, or the link where the name of the credential
    is taken. -/
def EnrollmentRequest.failing (r : EnrollmentRequest) (d : Links) (fault : Option Nat) :
    Option Nat :=
  if d.taken r.credential then some (min 43 (fault.getD 43)) else fault

omit [Sha256] [Formats] in
/-- What fails after the link has a free name to link to. -/
theorem free_of_failing {fault : Option Nat} {n : Nat} (h : r.failing d fault = some n)
    (hn : 43 < n) : d.taken r.credential = false := by
  by_contra htaken
  rw [EnrollmentRequest.failing, if_pos (Bool.not_eq_false _ ▸ htaken)] at h
  cases h
  omega

/-- The request comes to its temporary file: it passes all checks, as far as they can look, and the
    temporary name is free. -/
def EnrollmentRequest.Drafts (r : EnrollmentRequest) (t : Enrollments) (d : Links) : Prop :=
  r.Passes t d ∧ (r.statAgain && d.contains r.credential) = false ∧ d.taken r.draft = false

/-- A request that does not come to its temporary file is refused and changes nothing. -/
theorem perform_of_not_drafts (h : ¬ r.Drafts t d) (fault : Option Nat) :
    ∃ e, (consumeEnrollment r).perform fault t t d = (.error e, t, d) := by
  by_cases hpasses : r.Passes t d
  swap
  · exact perform_of_refused hpasses fault
  cases hseen : r.statAgain && d.contains r.credential with
  | true => exact perform_of_seen hpasses hseen fault
  | false =>
    cases hdraft : d.taken r.draft with
    | true => exact ⟨_, perform_of_taken hpasses hseen hdraft fault⟩
    | false => exact absurd ⟨hpasses, hseen, hdraft⟩ h

/-- **A request that comes to its temporary file** succeeds, or fails at the failing statement. -/
theorem perform_of_drafts (h : r.Drafts t d) (fault : Option Nat) :
    ∃ d', (consumeEnrollment r).perform fault t t d = (.ok r.token.text, r.consume t, d') ∧
        d.taken r.credential = false ∧ (∀ n, fault = some n → 46 ≤ n) ∨
      ∃ n, r.failing d fault = some n ∧ n < 46 ∧
        (consumeEnrollment r).perform fault t t d = (.error .refused, t, d') ∧
        Leaves r d d' (n - 1) := by
  obtain ⟨hpasses, hseen, hdraft⟩ := h
  unfold EnrollmentRequest.failing
  rw [perform_of_passed hpasses]
  cases hcred : d.taken r.credential with
  | true =>
    by_cases hfirst : fault = some 0
    · subst hfirst
      exact ⟨d, .inr ⟨0, by rw [if_pos rfl]; rfl, by omega, if_pos rfl, .nothing (by omega) rfl⟩⟩
    · obtain ⟨d', hfail, hleft⟩ := perform_install_taken (t := t) hseen hcred hdraft
        (fault.map Nat.pred)
      refine ⟨d', .inr ⟨_, if_pos rfl, by omega, by rw [if_neg hfirst, hfail], ?_⟩⟩
      cases fault with
      | none => exact hleft
      | some n =>
        rw [Option.map_some, Option.getD_some] at hleft
        rw [Option.getD_some, show min 43 n - 1 = min 42 n.pred by rw [Nat.pred_eq_sub_one]; omega]
        exact hleft
  | false =>
    rw [if_neg Bool.false_ne_true]
    have hadmitted : r.Admitted t d := admitted_iff_passes.mpr ⟨hpasses, hcred⟩
    match fault with
    | none =>
      obtain ⟨d', hok⟩ := perform_redeemed hadmitted hdraft
      rw [perform_of_passed hpasses] at hok
      exact ⟨d', .inl ⟨hok, rfl, fun _ hn => by cases hn⟩⟩
    | some 0 => exact ⟨d, .inr ⟨0, rfl, by omega, if_pos rfl, .nothing (by omega) rfl⟩⟩
    | some (n + 1) =>
      rw [if_neg (by simp)]
      obtain ⟨d', ⟨hlow, hfail, hleaves⟩ | ⟨hhigh, hok⟩⟩ :=
        perform_install (t := t) hcred hdraft (name_ne_of_valid hpasses.1) n
      · exact ⟨d', .inr ⟨n + 1, rfl, by omega, hfail, hleaves⟩⟩
      · refine ⟨d', .inl ⟨hok, rfl, fun m hm => ?_⟩⟩
        cases hm
        omega

/-- **A failed redemption grants nothing** exactly if no part of the token that counts for a
    credential stands in the directory when it fails: it is refused before it changes anything, or
    it fails at the link at the latest, with nothing of the token written yet, or with a part that
    is granted already, or where a file that cannot be read ends every look-up. -/
theorem failed_enrollment_iff {fault : Option Nat} {e : Fault String} {t' : Enrollments}
    {d' : Links} (h : (consumeEnrollment r).perform fault t t d = (.error e, t', d')) :
    ((∀ token, authorized token d' = authorized token d) ∧ t' = t ∧
      ∀ r', r.Again r' → r'.Admitted t d → r'.Redeemable t' d') ↔
    (r.Drafts t d → ∃ n, r.failing d fault = some n ∧ n ≤ 43 ∧
      (r.written n = "" ∨ authorized (r.written n) d = true ∨ Blocked d)) := by
  have hsame : t' = t ∧ d' = d → (∀ token, authorized token d' = authorized token d) ∧ t' = t ∧
      ∀ r', r.Again r' → r'.Admitted t d → r'.Redeemable t' d' := by
    rintro ⟨rfl, rfl⟩
    exact ⟨fun _ => rfl, rfl, fun r' _ hr' => hr'.redeemable⟩
  by_cases hdrafts : r.Drafts t d
  swap
  · obtain ⟨e', hrefused⟩ := perform_of_not_drafts hdrafts fault
    cases h.symm.trans hrefused
    exact iff_of_true (hsame ⟨rfl, rfl⟩) fun h => absurd h hdrafts
  simp only [hdrafts, forall_const]
  obtain ⟨d'', ⟨hok, _⟩ | ⟨n, hfailing, hlast, hfail, hleaves⟩⟩ := perform_of_drafts hdrafts fault
  · cases h.symm.trans hok
  cases h.symm.trans hfail
  have hn : ∀ {p : Nat → Prop}, (∃ m, r.failing d fault = some m ∧ p m) ↔ p n := by
    intro p
    rw [hfailing]
    exact ⟨fun ⟨m, hm, hp⟩ => Option.some.inj hm ▸ hp, fun hp => ⟨n, rfl, hp⟩⟩
  rw [hn]
  cases hleaves with
  | nothing hle hd =>
    refine iff_of_true (hsame ⟨rfl, hd⟩) ⟨by omega, .inl ?_⟩
    rw [EnrollmentRequest.written, show n - 5 = 0 by omega]
    rfl
  | part text hlow hhigh htrim hget =>
    have hfresh : d.get? r.draft = none :=
      Links.get?_eq_none.mpr (Links.taken_eq_false.mp hdrafts.2.2)
    have hwritten : Text.trim text = r.written n := by
      rw [htrim, EnrollmentRequest.written, show n - 1 - 4 = n - 5 by omega]
    have hne := draft_ne_credential r (name_ne_of_valid hdrafts.1.1)
    have hcred : d'.taken r.credential = d.taken r.credential :=
      Links.taken_congr ((hget r.credential).trans (if_neg hne.symm))
    rw [← hwritten, ← authorized_add_iff hfresh hget]
    refine ⟨fun hl => ⟨by omega, hl.1⟩, fun hl => ⟨hl.2, rfl, fun r' hagain hr' => ?_⟩⟩
    refine hr'.again hagain (hcred.trans ?_)
    rw [EnrollmentRequest.credential, ← hagain.1]
    exact hr'.2.2.1
  | installed hlow hcred =>
    refine iff_of_false (fun hl => ?_) fun hl => by omega
    -- the code was good for a request of the name, and no longer is
    have hadmitted := admitted_iff_passes.mpr ⟨hdrafts.1, free_of_failing hfailing (by omega)⟩
    have hback := (hl.2.2 r ⟨rfl, rfl⟩ hadmitted).1.2.2.1
    rw [hcred] at hback
    cases hback

end Alone

/-! ## 6. Samples -/

namespace Sample

/-- Hashing, as if it kept the text. -/
@[reducible] def hashing : Sha256 := ⟨id⟩

/-- The parsers on the one expiry of the samples. -/
@[reducible] def expiryFormats : Formats where
  uuidParseStr _ := true
  parseFromRfc3339 text :=
    if text = "2026-01-01T00:00:00+00:00" then some ⟨1767225600000000000⟩ else none

def token : Uuid := ⟨"aaaaaaaa-aaaa-4aaa-8aaa-aaaaaaaaaaaa", by decide,
  List.all_iff_forall_prop.mp (by decide)⟩
def temporary : Uuid := ⟨"bbbbbbbb-bbbb-4bbb-8bbb-bbbbbbbbbbbb", by decide,
  List.all_iff_forall_prop.mp (by decide)⟩

def enrollment : EnrollmentRequest := ⟨"media", "code", token, temporary, ⟨0⟩, ⟨0⟩, true, true⟩

/-- The table with the code of the sample. -/
def codes : Enrollments := Table.empty.upsert ⟨"code", "media", "2026-01-01T00:00:00+00:00", none⟩

/-- The sample redeemed from an empty directory. -/
def redemption (fault : Option Nat) : Except (Fault String) String × Enrollments × Links :=
  (@consumeEnrollment hashing expiryFormats enrollment).perform fault codes codes .empty

theorem redemption_eq {fault : Option Nat} (h : (redemption fault).1 = .error .refused) :
    @Session.perform _ _ _ _ (@consumeEnrollment hashing expiryFormats enrollment) fault codes codes
      .empty = (.error .refused, (redemption fault).2) := Prod.ext h rfl

example : (redemption none).1 = .ok token.text := by decide +kernel

end Sample

/-- A fault before the first character is written leaves an empty file, which grants nothing. -/
theorem failed_enrollment_iff_empty :
    (∀ token, authorized token (Sample.redemption (some 5)).2.2 = authorized token .empty) ∧
      (Sample.redemption (some 5)).2.1 = Sample.codes ∧
      ∀ r', Sample.enrollment.Again r' →
        @EnrollmentRequest.Admitted Sample.hashing Sample.expiryFormats r' Sample.codes .empty →
        @EnrollmentRequest.Redeemable Sample.hashing Sample.expiryFormats r'
          (Sample.redemption (some 5)).2.1 (Sample.redemption (some 5)).2.2 :=
  (@failed_enrollment_iff Sample.hashing Sample.expiryFormats _ _ _ _ _ _ _
    (Sample.redemption_eq (by decide +kernel))).mpr fun _ => ⟨5, rfl, by decide, .inl rfl⟩

/-- **A failed redemption can grant its token**: where the commit fails, the token stands in the
    directory as the credential of the agent, and the code, not consumed, is refused from then
    on. -/
theorem failed_enrollment_grants :
    (Sample.redemption (some 45)).1 = .error .refused ∧
      ¬ ((∀ token, authorized token (Sample.redemption (some 45)).2.2 = authorized token .empty) ∧
        (Sample.redemption (some 45)).2.1 = Sample.codes ∧
        ∀ r', Sample.enrollment.Again r' →
          @EnrollmentRequest.Admitted Sample.hashing Sample.expiryFormats r' Sample.codes .empty →
          @EnrollmentRequest.Redeemable Sample.hashing Sample.expiryFormats r'
            (Sample.redemption (some 45)).2.1 (Sample.redemption (some 45)).2.2) ∧
      authorized Sample.token.text (Sample.redemption (some 45)).2.2 = true ∧
      (Sample.redemption (some 45)).2.2.contains Sample.enrollment.credential = true := by
  have hafter : authorized Sample.token.text (Sample.redemption (some 45)).2.2 = true := by
    decide +kernel
  have hbefore : authorized Sample.token.text .empty = false := by decide +kernel
  refine ⟨by decide +kernel, ?_, hafter, by decide +kernel⟩
  rintro ⟨hsame, _⟩
  have hgranted := hsame Sample.token.text
  rw [hafter, hbefore] at hgranted
  exact Bool.noConfusion hgranted

end Beacon
