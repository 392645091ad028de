/-
  File:      Beacon/Agent/Enroll.lean
  Subject:   The enrollment of an agent, both sides of it (`agent.rs`, `enroll`, `write_token`;
             `server.rs`, `enroll_agent`).

  The agent checks its arguments, posts the code, and then writes the token it gets. Whether the
  token can be written is looked at last: by then the server has consumed the code and installed
  the credential whose token the agent drops.

  * `writeToken_blocked` -- a token file that stands there, or has no parent, is always refused;
  * `redemption_spares_iff` -- what the server side of the request leaves of the code;
  * `blocked_enroll_iff` -- **when a refused enrollment leaves the code as it was**;
  * `leftover_of_spared` -- what may stand beside the credentials then;
  * `code_lost` -- the token file is there, and the code is gone.
-/
import Beacon.Agent.Bodies
import Beacon.Server.Codes

namespace Beacon

open Foundation

/-! ## 1. The agent -/

/-- The arguments of an enrollment: the code file with what reading it gives, and what
    `build_client` gives for the server's address and the CA file. -/
structure EnrollmentConfig where
  name : String
  codeFile : String
  code : Option String
  tokenFile : String
  client : Except String Unit

/-- The files of the agent by their paths; a step on them may fail. -/
abbrev Installation := Session Unit Links String

/-- Where writing the token fails, if it does, whether the check of the token file can look, and
    whether the temporary file can be dropped. -/
structure TokenFaults where
  draft : Option Nat := none
  stat : Bool := true
  cleaned : Bool := true
  install : Option Nat := none

/-- From the line break on. -/
def endDraft (temporary : String) : Installation Unit := do
  Session.disk fun d => some (d.append temporary '\n')
  Session.attempt -- `sync_all`

/-- The temporary file with the token. -/
def draftToken (temporary token : String) : Installation Unit := do
  Session.attempt -- `create_dir_all`
  Session.disk fun d => d.createNew temporary
  Session.attempt -- `set_permissions`
  Session.forEach (fun c => Session.disk fun d => some (d.append temporary c))
    (Text.trim token).toList
  endDraft temporary

def installToken (temporary path : String) : Installation Unit := do
  Session.disk fun d => d.hardLink temporary path
  Session.disk fun d => d.unlink temporary

def writeToken (path token : String) (temporary : Uuid) (faults : TokenFaults) (disk : Links) :
    Except (Fault String) Unit × Links :=
  match (Path.parent path).filter (· ≠ "") with
  | none => (.error (.raised "agent token file must have a parent directory"), disk)
  | some parent =>
    let temporary := Path.join parent (temporaryName temporary)
    match (draftToken temporary token).perform faults.draft () () disk with
    | (.error fault, _, disk) => (.error fault, disk)
    | (.ok (), _, disk) =>
      if faults.stat && disk.contains path then
        (.error (.raised ("agent token file " ++ path ++
            " already exists; remove it before enrolling")),
          if faults.cleaned then (disk.unlink temporary).getD disk else disk)
      else
        let (result, _, disk) := (installToken temporary path).perform faults.install () () disk
        (result, disk)

/-! ## 2. The request -/

/-- What the server draws for a request, the clock, whether its checks of the credential's name can
    look, and the statement that fails, if one does. -/
structure ServerDraws where
  token : Uuid
  temporary : Uuid
  checkedAt : DateTime
  consumedAt : DateTime
  stat : Bool
  statAgain : Bool
  fault : Option Nat

/-- What becomes of the answer. -/
inductive Reception where
  | received
  | garbled
  | lost
  deriving DecidableEq

/-- What becomes of the request: it does not arrive, or it is handled. -/
inductive Exchange where
  | undelivered
  | delivered (draws : ServerDraws) (reception : Reception)

/-- The server's table of codes and its credentials, and the files of the agent. -/
structure Sides where
  enrollments : Enrollments
  credentials : Links
  files : Links

def enrollmentBody (name code : String) : Json := .obj [("code", .str code), ("name", .str name)]

def faultText : Fault String → String
  | .raised message => message
  | .refused => ""

/-- The request as the server reads it. -/
def ServerDraws.request (draws : ServerDraws) (name code : String) : EnrollmentRequest :=
  ⟨name, code, draws.token, draws.temporary, draws.checkedAt, draws.consumedAt, draws.stat,
    draws.statAgain⟩

section Enroll

variable [Sha256] [Formats]

/-- `POST /v1/enroll`, behind the limit of the router. -/
def enrollAgent (name code : String) (draws : ServerDraws) (enrollments : Enrollments)
    (credentials : Links) : Response × Enrollments × Links :=
  if (enrollmentBody name code).text.utf8ByteSize > bodyLimit then
    (⟨413, .null⟩, enrollments, credentials)
  else
    match (consumeEnrollment (draws.request name code)).perform draws.fault enrollments enrollments
        credentials with
    | (.ok token, after) => (⟨201, .obj [("token", .str token)]⟩, after)
    | (.error fault, after) => (⟨401, errorBody (faultText fault)⟩, after)

/-- The token of an answer, if it decodes. -/
def decodeToken : Json → Option String
  | .obj members => match members.lookup "token" with
    | some (.str token) => some token
    | _ => none
  | _ => none

/-- From the answer on. -/
def storeToken (config : EnrollmentConfig) (temporary : Uuid) (faults : TokenFaults)
    (response : Response) (files : Links) : Except (Fault String) Unit × Links :=
  if !response.isSuccess then
    (.error (.raised ("server returned " ++ statusText response.status)), files)
  else match decodeToken response.body with
    | none => (.error (.raised "decode enrollment response"), files)
    | some token =>
      if Text.isBlank token then
        (.error (.raised "server returned an empty agent token"), files)
      else writeToken config.tokenFile token temporary faults files

/-- From the request on. -/
def receive (config : EnrollmentConfig) (temporary : Uuid) (faults : TokenFaults)
    (reception : Reception) (answer : Response × Enrollments × Links) (files : Links) :
    Except (Fault String) Unit × Sides :=
  match reception with
  | .lost => (.error (.raised "send enrollment request to server"),
      ⟨answer.2.1, answer.2.2, files⟩)
  | .garbled => (.error (.raised "decode enrollment response"), ⟨answer.2.1, answer.2.2, files⟩)
  | .received =>
    let stored := storeToken config temporary faults answer.1 files
    (stored.1, ⟨answer.2.1, answer.2.2, stored.2⟩)

def enroll (config : EnrollmentConfig) (exchange : Exchange) (temporary : Uuid)
    (faults : TokenFaults) (s : Sides) : Except (Fault String) Unit × Sides :=
  if Text.isBlank config.name then (.error (.raised "agent name cannot be empty"), s)
  else match config.code with
    | none => (.error (.raised ("read enrollment code file " ++ config.codeFile)), s)
    | some content =>
      let code := Text.trim content
      if code.isEmpty then
        (.error (.raised ("enrollment code file " ++ config.codeFile ++ " is empty")), s)
      else match config.client with
        | .error message => (.error (.raised message), s)
        | .ok () =>
          match exchange with
          | .undelivered => (.error (.raised "send enrollment request to server"), s)
          | .delivered draws reception => receive config temporary faults reception
              (enrollAgent config.name code draws s.enrollments s.credentials) s.files

end Enroll

/-! ## 3. The refusal on the agent's side -/

/-- The token cannot be installed: the name of its file is taken, or has no parent. -/
def EnrollmentConfig.Refuses (config : EnrollmentConfig) (files : Links) : Prop :=
  (Path.parent config.tokenFile).filter (· ≠ "") = none ∨ files.taken config.tokenFile = true

section Refusal

variable {config : EnrollmentConfig} {files files' : Links} {temporary token : String}
  {fault : Option Nat}

theorem draftToken_eq (temporary token : String) :
    draftToken temporary token = .act some (.act (fun d => d.createNew temporary)
      (.act some (Session.forEach (fun c => Session.disk fun d => some (d.append temporary c))
        (Text.trim token).toList >>= fun _ => endDraft temporary))) := by
  simp only [draftToken, Session.attempt, Session.disk, Bind.bind, Session.bind]

/-- The draft without a fault. -/
theorem perform_draftToken {created : Links} (hc : files.createNew temporary = some created) :
    (draftToken temporary token).perform none () () files =
      (.ok (), (), ((Text.trim token).toList ++ ['\n']).foldl
        (fun d c => d.append temporary c) created) := by
  have hloop := Session.perform_forEach_none (fun d c => Links.append d temporary c)
    (Text.trim token).toList (endDraft temporary) () () created
  have hline : ∀ d, (endDraft temporary).perform none () () d =
      (.ok (), (), d.append temporary '\n') := fun _ => rfl
  rw [List.foldl_append, List.foldl_cons, List.foldl_nil, ← hline, ← hloop, draftToken_eq,
    Session.perform_act rfl, Session.perform_act hc, Session.perform_act rfl]

/-- What the temporary file is made of. -/
theorem draftToken_ok
    (h : (draftToken temporary token).perform fault () () files = (.ok (), (), files')) :
    ∃ created, files.createNew temporary = some created ∧
      files' = ((Text.trim token).toList ++ ['\n']).foldl (fun d c => d.append temporary c)
        created := by
  have hnone : (draftToken temporary token).perform none () () files = (.ok (), (), files') := by
    cases fault with
    | none => exact h
    | some n => exact (Session.perform_none (congrArg Prod.fst h)).trans h
  cases hc : files.createNew temporary with
  | none => simp [draftToken, Session.attempt, Session.disk, Bind.bind, Session.bind,
      Session.perform, hc] at hnone
  | some created =>
    rw [perform_draftToken hc, Prod.mk.injEq, Prod.mk.injEq] at hnone
    exact ⟨created, rfl, hnone.2.2.symm⟩

/-- The name of the token file is taken as long as the temporary one is written. -/
theorem taken_of_draft
    (h : (draftToken temporary token).perform fault () () files = (.ok (), (), files'))
    {path : String} (hp : files.taken path = true) : files'.taken path = true := by
  obtain ⟨created, hc, hfilled⟩ := draftToken_ok h
  obtain ⟨hfresh, _, hnode⟩ := Links.createNew_eq_some hc
  have hne : path ≠ temporary := by
    rintro rfl
    rw [Links.taken_eq_false.mpr hfresh] at hp
    cases hp
  rw [hfilled, Links.taken, Links.node?_appendAll, hnode, if_neg hne]
  exact hp

/-- Nothing is linked to a name that is taken. -/
theorem installToken_taken {path : String} (h : files.taken path = true) :
    (installToken temporary path).perform fault () () files = (.error .refused, (), files) := by
  simp [installToken, Session.disk, Bind.bind, Session.bind, Session.perform,
    Links.hardLink_of_taken h]

/-- **A token file whose name is taken, or has no parent, is always refused**: by the check, or by
    the link where the check does not see it. -/
theorem writeToken_blocked (h : config.Refuses files) (token : String) (temporary : Uuid)
    (faults : TokenFaults) :
    ∃ e, (writeToken config.tokenFile token temporary faults files).1 = .error e := by
  unfold writeToken
  cases hparent : (Path.parent config.tokenFile).filter (· ≠ "") with
  | none => exact ⟨_, rfl⟩
  | some parent =>
    have hthere := h.resolve_left (by rw [hparent]; exact Option.some_ne_none parent)
    simp only
    split
    · exact ⟨_, rfl⟩
    · rename_i hdraft
      split
      · exact ⟨_, rfl⟩
      · rw [installToken_taken (taken_of_draft hdraft hthere)]
        exact ⟨_, rfl⟩

theorem storeToken_blocked (h : config.Refuses files) (temporary : Uuid) (faults : TokenFaults)
    (response : Response) : ∃ e, (storeToken config temporary faults response files).1 = .error e := by
  unfold storeToken
  split
  · exact ⟨_, rfl⟩
  · split
    · exact ⟨_, rfl⟩
    · split
      · exact ⟨_, rfl⟩
      · exact writeToken_blocked h _ temporary faults

end Refusal

/-! ## 4. The code on the server's side -/

section Redemption

variable [Sha256] [Formats] {r : EnrollmentRequest} {t : Enrollments} {d : Links}

/-- A code that is redeemed leaves another table. -/
theorem consume_ne (h : r.Admitted t d) : r.consume t ≠ t := by
  obtain ⟨row, hrow, _, hnone, hget⟩ := consume_of_opens h.2.2.2
  intro hsame
  have hself := hget (hashSecret r.code)
  rw [if_pos rfl, hsame, hrow] at hself
  rw [Option.some.inj hself] at hnone
  cases hnone

/-- **What a redemption leaves of the code**: the table is as it was and no credential of the
    agent has come, exactly if the request is refused or a statement up to the link fails. -/
theorem redemption_spares_iff (r : EnrollmentRequest) (t : Enrollments) (d : Links)
    (fault : Option Nat) :
    let after := ((consumeEnrollment r).perform fault t t d).2
    after.1 = t ∧ after.2.taken r.credential = d.taken r.credential ↔
      (r.Admitted t d → d.taken r.draft = false → ∃ n, fault = some n ∧ n ≤ 43) := by
  intro after
  by_cases hdrafts : r.Drafts t d
  swap
  · obtain ⟨e, hrefused⟩ := perform_of_not_drafts hdrafts fault
    have hafter : after = (t, d) := congrArg Prod.snd hrefused
    rw [hafter]
    refine iff_of_true ⟨rfl, rfl⟩ fun hadmitted hdraft => absurd ?_ hdrafts
    exact ⟨hadmitted.passes, unseen_of_free r.statAgain hadmitted.2.2.1, hdraft⟩
  have hdraft := hdrafts.2.2
  have hfree : d.taken r.credential = false → r.Admitted t d := fun hcred =>
    admitted_iff_passes.mpr ⟨hdrafts.1, hcred⟩
  obtain ⟨d', ⟨hok, hcred, hlate⟩ | ⟨n, hfailing, _, hfail, hleaves⟩⟩ :=
    perform_of_drafts hdrafts fault
  · have hafter : after = (r.consume t, d') := congrArg Prod.snd hok
    rw [hafter]
    refine iff_of_false (fun h => consume_ne (hfree hcred) h.1) fun h => ?_
    obtain ⟨n, hn, hearly⟩ := h (hfree hcred) hdraft
    have := hlate n hn
    omega
  · have hafter : after = (t, d') := congrArg Prod.snd hfail
    rw [hafter]
    have hfault : r.Admitted t d → fault = some n := by
      intro hadmitted
      rw [EnrollmentRequest.failing, if_neg (by rw [hadmitted.2.2.1]; exact Bool.false_ne_true)]
        at hfailing
      exact hfailing
    cases hleaves with
    | nothing hle hsame =>
      rw [hsame]
      exact iff_of_true ⟨rfl, rfl⟩ fun hadmitted _ => ⟨n, hfault hadmitted, by omega⟩
    | part text hlow hhigh _ hget =>
      refine iff_of_true ⟨rfl, ?_⟩ fun hadmitted _ => ⟨n, hfault hadmitted, by omega⟩
      have hne := draft_ne_credential r (name_ne_of_valid hdrafts.1.1)
      exact Links.taken_congr ((hget r.credential).trans (if_neg hne.symm))
    | installed hlow hthere =>
      -- the link is made, so its name was free, and no earlier statement was made to fail
      have hcred := free_of_failing hfailing (by omega)
      rw [hthere, hcred]
      refine iff_of_false (fun h => Bool.noConfusion h.2) fun h => ?_
      obtain ⟨m, hm, hearly⟩ := h (hfree hcred) hdraft
      cases hm.symm.trans (hfault (hfree hcred))
      omega

/-- The limit and the answer change nothing of it. -/
theorem enrollAgent_sides (name code : String) (draws : ServerDraws) :
    (enrollAgent name code draws t d).2 =
      if (enrollmentBody name code).text.utf8ByteSize > bodyLimit then (t, d)
      else ((consumeEnrollment (draws.request name code)).perform draws.fault t t d).2 := by
  unfold enrollAgent
  split
  · rfl
  · split <;> rename_i hrun <;> rw [hrun]

end Redemption

/-! ## 5. Both sides -/

section Both

variable [Sha256] [Formats] {config : EnrollmentConfig} {s s' : Sides}

/-- The code is as it was, no credential of the agent has come, and so a request the server would
    have admitted is still admitted. A temporary file may have come beside the credentials, with a
    part of the token (`leftover_of_spared`). -/
structure Spared (config : EnrollmentConfig) (s s' : Sides) : Prop where
  enrollments : s'.enrollments = s.enrollments
  credential : s'.credentials.taken (credentialName config.name) =
    s.credentials.taken (credentialName config.name)
  again : ∀ r : EnrollmentRequest, r.name = config.name →
    r.Admitted s.enrollments s.credentials → r.Admitted s'.enrollments s'.credentials

theorem spared_iff : Spared config s s' ↔ s'.enrollments = s.enrollments ∧
    s'.credentials.taken (credentialName config.name) =
      s.credentials.taken (credentialName config.name) := by
  refine ⟨fun h => ⟨h.enrollments, h.credential⟩, fun h => ⟨h.1, h.2, fun r hname hr => ?_⟩⟩
  obtain ⟨hvalid, hcode, hcred, hrow⟩ := hr
  rw [EnrollmentRequest.credential, hname] at hcred
  refine ⟨hvalid, hcode, ?_, h.1 ▸ hrow⟩
  rw [EnrollmentRequest.credential, hname, h.2]
  exact hcred

/-- The enrollment comes to a request that the server redeems: the agent's own checks pass, the
    request arrives and is not too long, it passes the checks of the server, and no statement of
    the redemption fails before the credential is installed. -/
def Redeems (config : EnrollmentConfig) (exchange : Exchange) (s : Sides) : Prop :=
  Text.isBlank config.name = false ∧ config.client = .ok () ∧
    ∃ content draws reception, config.code = some content ∧ Text.isBlank content = false ∧
      exchange = .delivered draws reception ∧
      (enrollmentBody config.name (Text.trim content)).text.utf8ByteSize ≤ bodyLimit ∧
      let r := draws.request config.name (Text.trim content)
      r.Admitted s.enrollments s.credentials ∧ s.credentials.taken r.draft = false ∧
        ∀ n, draws.fault = some n → 43 < n

/-- The agent's own checks pass and the request arrives. -/
def Sends (config : EnrollmentConfig) (exchange : Exchange) (content : String)
    (draws : ServerDraws) (reception : Reception) : Prop :=
  Text.isBlank config.name = false ∧ config.client = .ok () ∧ config.code = some content ∧
    Text.isBlank content = false ∧ exchange = .delivered draws reception

omit [Sha256] [Formats] in
theorem Sends.unique {exchange : Exchange} {content content' : String}
    {draws draws' : ServerDraws} {reception reception' : Reception}
    (h : Sends config exchange content draws reception)
    (h' : Sends config exchange content' draws' reception') : content = content' ∧ draws = draws' := by
  obtain ⟨_, _, hcode, _, hex⟩ := h
  obtain ⟨_, _, hcode', _, hex'⟩ := h'
  cases hcode.symm.trans hcode'
  cases hex.symm.trans hex'
  exact ⟨rfl, rfl⟩

/-- The enrollment ends before anything is sent, or goes on with the answer. -/
theorem enroll_cases (config : EnrollmentConfig) (exchange : Exchange) (temporary : Uuid)
    (faults : TokenFaults) (s : Sides) :
    (∃ e, enroll config exchange temporary faults s = (.error e, s) ∧
      ∀ content draws reception, ¬ Sends config exchange content draws reception) ∨
    ∃ content draws reception, Sends config exchange content draws reception ∧
      enroll config exchange temporary faults s = receive config temporary faults reception
        (enrollAgent config.name (Text.trim content) draws s.enrollments s.credentials) s.files := by
  unfold enroll Sends
  cases hname : Text.isBlank config.name with
  | true => exact .inl ⟨_, rfl, fun _ _ _ h => Bool.noConfusion h.1⟩
  | false =>
    cases hcode : config.code with
    | none => exact .inl ⟨_, rfl, fun _ _ _ h => by cases h.2.2.1⟩
    | some content =>
      simp only [Bool.false_eq_true, if_false, Option.some.injEq]
      cases hblank : (Text.trim content).isEmpty with
      | true =>
        refine .inl ⟨_, rfl, fun content' _ _ h => ?_⟩
        rw [← h.2.2.1, Text.isBlank, hblank] at h
        exact Bool.noConfusion h.2.2.2.1
      | false =>
        cases hclient : config.client with
        | error message => exact .inl ⟨_, rfl, fun _ _ _ h => by cases h.2.1⟩
        | ok u =>
          cases exchange with
          | undelivered => exact .inl ⟨_, rfl, fun _ _ _ h => by cases h.2.2.2.2⟩
          | delivered draws reception =>
            exact .inr ⟨content, draws, reception, ⟨trivial, rfl, rfl, hblank, rfl⟩, rfl⟩

omit [Sha256] [Formats] in
theorem receive_sides (config : EnrollmentConfig) (temporary : Uuid) (faults : TokenFaults) (reception : Reception)
    (answer : Response × Enrollments × Links) (files : Links) :
    (receive config temporary faults reception answer files).2.enrollments = answer.2.1 ∧
      (receive config temporary faults reception answer files).2.credentials = answer.2.2 := by
  cases reception <;> exact ⟨rfl, rfl⟩

omit [Sha256] [Formats] in
theorem receive_error {files : Links} (h : config.Refuses files) (temporary : Uuid)
    (faults : TokenFaults) (reception : Reception) (answer : Response × Enrollments × Links) :
    ∃ e, (receive config temporary faults reception answer files).1 = .error e := by
  cases reception with
  | lost => exact ⟨_, rfl⟩
  | garbled => exact ⟨_, rfl⟩
  | received =>
    show ∃ e, (storeToken config temporary faults answer.1 files).1 = .error e
    exact storeToken_blocked h temporary faults answer.1

/-- **An enrollment whose token cannot be installed** ends in an error. -/
theorem enroll_error (h : config.Refuses s.files) (exchange : Exchange) (temporary : Uuid)
    (faults : TokenFaults) : ∃ e, (enroll config exchange temporary faults s).1 = .error e := by
  rcases enroll_cases config exchange temporary faults s with ⟨e, hrun, _⟩ | ⟨_, _, reception, _, hrun⟩
  · exact ⟨e, congrArg Prod.fst hrun⟩
  · rw [hrun]
    exact receive_error h temporary faults reception _

/-- What the enrollment makes of the server, whatever becomes of the answer. -/
theorem spared_enroll_iff (exchange : Exchange) (temporary : Uuid) (faults : TokenFaults) :
    Spared config s (enroll config exchange temporary faults s).2 ↔ ¬ Redeems config exchange s := by
  rcases enroll_cases config exchange temporary faults s with
    ⟨e, hrun, hnever⟩ | ⟨content, draws, reception, hsends, hrun⟩
  · rw [hrun]
    refine iff_of_true (spared_iff.mpr ⟨rfl, rfl⟩) ?_
    rintro ⟨hname, hclient, content, draws, reception, hcode, hblank, hex, _⟩
    exact hnever content draws reception ⟨hname, hclient, hcode, hblank, hex⟩
  · obtain ⟨henr, hcred⟩ := receive_sides config temporary faults reception
      (enrollAgent config.name (Text.trim content) draws s.enrollments s.credentials) s.files
    have hredeems : Redeems config exchange s ↔
        (enrollmentBody config.name (Text.trim content)).text.utf8ByteSize ≤ bodyLimit ∧
        let r := draws.request config.name (Text.trim content)
        r.Admitted s.enrollments s.credentials ∧ s.credentials.taken r.draft = false ∧
          ∀ n, draws.fault = some n → 43 < n := by
      constructor
      · rintro ⟨hname, hclient, content', draws', reception', hcode, hblank, hex, hrest⟩
        obtain ⟨rfl, rfl⟩ := hsends.unique ⟨hname, hclient, hcode, hblank, hex⟩
        exact hrest
      · intro hrest
        obtain ⟨hname, hclient, hcode, hblank, hex⟩ := hsends
        exact ⟨hname, hclient, content, draws, reception, hcode, hblank, hex, hrest⟩
    rw [hrun, spared_iff, henr, hcred, enrollAgent_sides, hredeems]
    split
    · rename_i hlong
      exact iff_of_true ⟨rfl, rfl⟩ fun h => absurd h.1 (Nat.not_le.mpr hlong)
    · rename_i hshort
      refine (redemption_spares_iff (draws.request config.name (Text.trim content)) _ _
        draws.fault).trans ?_
      constructor
      · rintro hspares ⟨_, hadmitted, hdraft, hlate⟩
        obtain ⟨n, hn, hearly⟩ := hspares hadmitted hdraft
        exact absurd hearly (Nat.not_le.mpr (hlate n hn))
      · intro hnot hadmitted hdraft
        by_contra hnone
        refine hnot ⟨Nat.not_lt.mp hshort, hadmitted, hdraft, fun n hn => ?_⟩
        exact Nat.not_le.mp fun hearly => hnone ⟨n, hn, hearly⟩

/-- **When a refused enrollment leaves the code as it was.** The token cannot be installed: then
    the enrollment ends in an error, and it leaves the code as it was exactly if it does not come
    to a request that the server redeems. -/
theorem blocked_enroll_iff (h : config.Refuses s.files) (exchange : Exchange) (temporary : Uuid)
    (faults : TokenFaults) :
    let after := enroll config exchange temporary faults s
    (∃ e, after.1 = .error e) ∧ Spared config s after.2 ↔ ¬ Redeems config exchange s := by
  intro after
  rw [← spared_enroll_iff exchange temporary faults]
  exact and_iff_right (enroll_error h exchange temporary faults)

/-- **What a spared enrollment may leave on the server**: the directory of the credentials is as it
    was, or has one file more, the temporary one of the redemption with a part of the token. -/
theorem leftover_of_spared {exchange : Exchange} {temporary : Uuid} {faults : TokenFaults}
    (h : Spared config s (enroll config exchange temporary faults s).2) :
    (enroll config exchange temporary faults s).2.credentials = s.credentials ∨
      ∃ (draws : ServerDraws) (reception : Reception) (text : String) (written : Nat),
        exchange = .delivered draws reception ∧
        s.credentials.taken (temporaryName draws.temporary) = false ∧
        Text.trim text = String.ofList (draws.token.text.toList.take written) ∧
        ∀ name, (enroll config exchange temporary faults s).2.credentials.get? name =
          if name = temporaryName draws.temporary then some (.file (some text))
          else s.credentials.get? name := by
  rcases enroll_cases config exchange temporary faults s with
    ⟨e, hrun, _⟩ | ⟨content, draws, reception, hsends, hrun⟩
  · rw [hrun]
    exact .inl rfl
  obtain ⟨henr, hcred⟩ := receive_sides config temporary faults reception
    (enrollAgent config.name (Text.trim content) draws s.enrollments s.credentials) s.files
  have henrollments := h.enrollments
  have hcredential := h.credential
  rw [hrun, henr, enrollAgent_sides] at henrollments
  rw [hrun, hcred, enrollAgent_sides] at hcredential
  rw [hrun, hcred, enrollAgent_sides]
  split at henrollments
  · rename_i hlong
    rw [if_pos hlong]
    exact .inl rfl
  rename_i hshort
  rw [if_neg hshort] at hcredential ⊢
  by_cases hdrafts : (draws.request config.name (Text.trim content)).Drafts s.enrollments
      s.credentials
  swap
  · obtain ⟨e, hrefused⟩ := perform_of_not_drafts hdrafts draws.fault
    rw [hrefused]
    exact .inl rfl
  obtain ⟨d', ⟨hok, hfree, _⟩ | ⟨n, hfailing, _, hfail, hleaves⟩⟩ :=
    perform_of_drafts hdrafts draws.fault
  · rw [hok] at henrollments
    exact absurd henrollments (consume_ne (admitted_iff_passes.mpr ⟨hdrafts.1, hfree⟩))
  · rw [hfail] at hcredential ⊢
    cases hleaves with
    | nothing _ hsame => exact .inl hsame
    | part text _ _ htrim hget =>
      exact .inr ⟨draws, reception, text, _, hsends.2.2.2.2, hdrafts.2.2, htrim, hget⟩
    | installed hlow hthere =>
      -- a link that was made is a credential that has come
      exact absurd (hcredential.symm.trans hthere) (by
        rw [show s.credentials.taken (credentialName config.name) = false from
          free_of_failing hfailing (by omega)]
        exact Bool.false_ne_true)

end Both

/-! ## 6. Samples -/

namespace Sample

/-- The code of the sample enrollment, and a token file. -/
def host (tokenFile : String) : EnrollmentConfig :=
  ⟨"media", "code.txt", some "code\n", tokenFile, .ok ()⟩

/-- The agent holds a token already. -/
def tokenHeld : Links := Links.empty.put "/etc/beacon/agent.token" (.file (some "old\n"))

def sides : Sides := ⟨codes, .empty, tokenHeld⟩

/-- Everything goes well on the server and on the way. -/
def handled : Exchange := .delivered ⟨token, temporary, ⟨0⟩, ⟨0⟩, true, true, none⟩ .received

/-- The request is handled when the code has expired. -/
def expired : Exchange :=
  .delivered ⟨token, temporary, ⟨1767225600000000000⟩, ⟨1767225600000000000⟩, true, true, none⟩
    .received

end Sample

/-- The theorem at a request that the server refuses, as its code has expired. -/
theorem blocked_enroll_iff_expired :
    @Spared Sample.hashing Sample.expiryFormats (Sample.host "/etc/beacon/agent.token") Sample.sides
      (@enroll Sample.hashing Sample.expiryFormats (Sample.host "/etc/beacon/agent.token")
        Sample.expired Sample.temporary {} Sample.sides).2 := by
  refine ((@blocked_enroll_iff Sample.hashing Sample.expiryFormats
    (Sample.host "/etc/beacon/agent.token") Sample.sides (.inr (by decide)) Sample.expired
    Sample.temporary {}).mpr ?_).2
  rintro ⟨_, _, content, draws, reception, hcode, _, hexchange, _, hadmitted, _⟩
  cases hcode
  cases hexchange
  obtain ⟨_, _, _, row, hrow, hadmits⟩ := hadmitted
  have hstored : @Table.get? _ _ EnrollmentRow.codeHash _ Sample.codes
      (@hashSecret Sample.hashing (Text.trim "code\n")) =
        some ⟨"code", "media", "2026-01-01T00:00:00+00:00", none⟩ := by decide +kernel
  cases hrow.symm.trans hstored
  exact absurd hadmits (by decide +kernel)

/-- **The token file is there, and the code is gone**: the agent reports the file, and asks for
    its removal before enrolling. By then the code is consumed and the credential installed, so
    that the server admits no further request of the agent. -/
theorem code_lost :
    let config := Sample.host "/etc/beacon/agent.token"
    let after := @enroll Sample.hashing Sample.expiryFormats config Sample.handled
      Sample.temporary {} Sample.sides
    config.Refuses Sample.sides.files ∧
      after.1 = .error (.raised ("agent token file /etc/beacon/agent.token already exists; " ++
        "remove it before enrolling")) ∧
      after.2.enrollments ≠ Sample.sides.enrollments ∧
      after.2.credentials.contains (credentialName config.name) = true ∧
      ¬ @Spared Sample.hashing Sample.expiryFormats config Sample.sides after.2 := by
  intro config after
  have htable : after.2.enrollments ≠ Sample.sides.enrollments := by decide +kernel
  exact ⟨.inr (by decide), by decide +kernel, htable, by decide +kernel, fun h =>
    htable (@Spared.enrollments Sample.hashing Sample.expiryFormats _ _ _ h)⟩

end Beacon
