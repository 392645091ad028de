/-
  File:      Beacon/Agent/Admission.lean
  Subject:   The token of an agent on its way around (`agent.rs`, `enroll`, `write_token`;
             `beacon-agent.rs`, `read_token`; `server.rs`, `enroll_agent`, `authorized`).

  A token is written and read four times: the server draws it, writes it to the credential and puts
  it into its answer; the agent decodes it and writes it to its token file; a later run of the agent
  reads the file and sends what it reads behind `Bearer `; the server reads the credential and
  compares. Blanks at the ends are cut off at each of the readings, and a line break is added at
  each of the writings.

  * `redeemed_ok` -- what a redemption that succeeds leaves on the server;
  * `writeToken_ok` -- what it leaves on the agent;
  * `admitted_of_enroll` -- **an agent that has enrolled is let in**, and nobody else is.
-/
import Beacon.Agent.Enroll
import Beacon.Server.Lookups

namespace Beacon

open Foundation

/-- The token file of an agent as its later runs read it. -/
def readToken (path : String) (files : Links) : Except String String :=
  match files.read path with
  | none => .error ("read agent token file " ++ path)
  | some content =>
    let token := Text.trim content
    if token.isEmpty then .error ("agent token file " ++ path ++ " is empty") else .ok token

/-- What stands behind `Bearer ` in the header. -/
theorem stripPrefix_append (start s : String) : Text.stripPrefix start (start ++ s) = some s := by
  unfold Text.stripPrefix
  rw [String.toList_append, if_pos (List.isPrefixOf_iff_prefix.mpr (List.prefix_append _ _)),
    ← String.length_toList, List.drop_left, String.ofList_toList]

/-! ## 1. The server -/

/-- A new file adds the token it holds to what a look-up accepts, unless a file cannot be read. -/
theorem authorized_of_new {d d' : Links} {name text : String} (token : String)
    (hfresh : d.get? name = none)
    (hget : ∀ n, d'.get? n = if n = name then some (.file (some text)) else d.get? n)
    (hne : Text.trim text ≠ "") :
    authorized token d' = true ↔
      authorized token d = true ∨ (token = Text.trim text ∧ ¬ Blocked d) := by
  have hold : ∀ n, n ≠ name → d'.get? n = d.get? n := fun n hn => (hget n).trans (if_neg hn)
  have hother : ∀ {n : String} {node : Node}, d.get? n = some node → n ≠ name := by
    rintro n node hn rfl
    rw [hfresh] at hn
    cases hn
  have hself : d'.get? name = some (.file (some text)) := (hget name).trans (if_pos rfl)
  have hblocked : Blocked d' ↔ Blocked d := by
    refine exists_congr fun n => ?_
    by_cases hn : n = name
    · rw [hn, hself, hfresh]
      exact iff_of_false (fun h => by cases h) fun h => by cases h
    · rw [hold n hn]
  rw [authorized_iff, authorized_iff, hblocked]
  constructor
  · rintro ⟨hread, htoken, n, content, hn, htrim⟩
    by_cases hname : n = name
    · rw [hname, hself] at hn
      cases hn
      exact .inr ⟨htrim.symm, hread⟩
    · rw [hold n hname] at hn
      exact .inl ⟨hread, htoken, n, content, hn, htrim⟩
  · rintro (⟨hread, htoken, n, content, hn, htrim⟩ | ⟨rfl, hread⟩)
    · exact ⟨hread, htoken, n, content, (hold n (hother hn)).trans hn, htrim⟩
    · exact ⟨hread, hne, name, text, hself, rfl⟩

section Server

variable [Sha256] [Formats] {r : EnrollmentRequest} {t t' : Enrollments} {d d' : Links}
  {fault : Option Nat} {token : String}

/-- What a redemption leaves if nothing fails. -/
theorem redeemed_disk (h : r.Admitted t d) (hdraft : d.taken r.draft = false) :
    ∃ d', (consumeEnrollment r).perform none t t d = (.ok r.token.text, r.consume t, d') ∧
      ∀ name, d'.get? name = if name = r.credential then
        some (.file (some (String.ofList (r.token.text.toList ++ ['\n'])))) else d.get? name := by
  have hne := draft_ne_credential r (name_ne_of_valid h.1)
  obtain ⟨_, d', _, hget, hlink⟩ := perform_secret_linked r.statAgain r.token (s := t)
    (w := r.consume t) (k := fun _ => pure r.token.text) h.2.2.1 hdraft hne none
    fun _ hn => by cases hn
  refine ⟨d', ?_, hget⟩
  rw [perform_of_passed h.passes, if_neg (Option.some_ne_none 0).symm]
  exact hlink

/-- **What a redemption that succeeds leaves**: the code is consumed, and the directory has the
    credential and is otherwise as it was. -/
theorem redeemed_ok (h : (consumeEnrollment r).perform fault t t d = (.ok token, t', d')) :
    r.Admitted t d ∧ token = r.token.text ∧ t' = r.consume t ∧
      ∀ name, d'.get? name = if name = r.credential then
        some (.file (some (String.ofList (r.token.text.toList ++ ['\n'])))) else d.get? name := by
  have hdrafts : r.Drafts t d := by
    by_contra hno
    obtain ⟨e, hrefused⟩ := perform_of_not_drafts hno fault
    cases hrefused.symm.trans h
  have hfree : d.taken r.credential = false := by
    obtain ⟨_, ⟨_, hfree, _⟩ | ⟨_, _, _, hfail, _⟩⟩ := perform_of_drafts hdrafts fault
    · exact hfree
    · cases hfail.symm.trans h
  have hadmitted := admitted_iff_passes.mpr ⟨hdrafts.1, hfree⟩
  have hnone : (consumeEnrollment r).perform none t t d = (.ok token, t', d') := by
    cases fault with
    | none => exact h
    | some n => exact (Session.perform_none (congrArg Prod.fst h)).trans h
  obtain ⟨d₁, hrun, hget⟩ := redeemed_disk hadmitted hdrafts.2.2
  cases hrun.symm.trans hnone
  exact ⟨hadmitted, rfl, rfl, hget⟩

end Server

/-! ## 2. The agent -/

section Agent

variable {path token temporary : String} {files files' : Links} {fault : Option Nat}

/-- A link that goes well: the file has its name, and no other. -/
theorem installToken_ok
    (h : (installToken temporary path).perform fault () () files = (.ok (), (), files')) :
    ∀ n, files'.get? n = if n = temporary then none
      else if n = path then files.get? temporary else files.get? n := by
  have hnone : (installToken temporary path).perform none () () files = (.ok (), (), files') := by
    cases fault with
    | none => exact h
    | some n => exact (Session.perform_none (congrArg Prod.fst h)).trans h
  simp only [installToken, Session.disk, Bind.bind, Session.bind] at hnone
  cases hlink : files.hardLink temporary path with
  | none => simp [Session.perform, hlink] at hnone
  | some linked =>
    rw [Session.perform_act hlink] at hnone
    cases hdrop : linked.unlink temporary with
    | none => simp [Session.perform, hdrop] at hnone
    | some dropped =>
      rw [Session.perform_act hdrop] at hnone
      cases hnone
      intro n
      rw [Links.get?_unlink hdrop, Links.get?_hardLink hlink]

/-- **A token that is written** stands in its file, where none stood, and every other file of the
    agent is as it was. -/
theorem writeToken_ok {name : Uuid} {faults : TokenFaults}
    (h : (writeToken path token name faults files).1 = .ok ()) :
    files.get? path = none ∧ ∀ n, (writeToken path token name faults files).2.get? n =
      if n = path then some (.file (some (String.ofList ((Text.trim token).toList ++ ['\n']))))
      else files.get? n := by
  unfold writeToken at h ⊢
  cases hparent : (Path.parent path).filter (· ≠ "") with
  | none =>
    rw [hparent] at h
    cases h
  | some parent =>
    simp only [hparent] at h ⊢
    rcases hdraft : (draftToken (Path.join parent (temporaryName name)) token).perform faults.draft
      () () files with ⟨result, _, drafted⟩
    simp only [hdraft] at h ⊢
    cases result with
    | error e => cases h
    | ok u =>
      simp only at h ⊢
      cases hthere : faults.stat && drafted.contains path with
      | true =>
        rw [hthere, if_pos rfl] at h
        cases h
      | false =>
        rw [hthere] at h
        simp only [Bool.false_eq_true, if_false] at h ⊢
        obtain ⟨created, hcreate, hfilled⟩ := draftToken_ok hdraft
        obtain ⟨hfresh, _⟩ := Links.createNew_eq_some hcreate
        have hget := get?_drafted hcreate ((Text.trim token).toList ++ ['\n'])
        rw [← hfilled] at hget
        rcases hinstall : (installToken (Path.join parent (temporaryName name)) path).perform
          faults.install () () drafted with ⟨installed, _, files'⟩
        rw [hinstall] at h
        simp only at h ⊢
        rw [h] at hinstall
        -- the token is linked to a free name, so the file of the token is not the temporary one
        have hpath : drafted.get? path = none := by
          rw [Links.get?_eq_none, ← Links.taken_eq_false]
          by_contra htaken
          cases (installToken_taken (by simpa using htaken)).symm.trans hinstall
        have hne : path ≠ Path.join parent (temporaryName name) := by
          intro e
          rw [hget, if_pos e] at hpath
          cases hpath
        refine ⟨by rw [← hpath, hget, if_neg hne], fun n => ?_⟩
        rw [installToken_ok hinstall, hget, if_pos rfl, hget]
        by_cases htemp : n = Path.join parent (temporaryName name)
        · rw [if_pos htemp, if_neg (htemp ▸ hne.symm), htemp]
          exact (Links.get?_eq_none.mpr hfresh).symm
        · rw [if_neg htemp, if_neg htemp]

end Agent

/-! ## 3. Both sides -/

section Both

variable [Sha256] [Formats] {config : EnrollmentConfig} {s : Sides}

omit [Sha256] [Formats] in
/-- An answer that is stored has the token of a redemption that succeeded. -/
theorem storeToken_ok {temporary : Uuid} {faults : TokenFaults} {response : Response}
    {files : Links} (h : (storeToken config temporary faults response files).1 = .ok ()) :
    ∃ token, response.isSuccess = true ∧ decodeToken response.body = some token ∧
      storeToken config temporary faults response files =
        writeToken config.tokenFile token temporary faults files := by
  unfold storeToken at h ⊢
  cases hstatus : response.isSuccess with
  | false =>
    rw [hstatus] at h
    cases h
  | true =>
    rw [hstatus] at h
    simp only [Bool.not_true, Bool.false_eq_true, if_false] at h ⊢
    cases htoken : decodeToken response.body with
    | none =>
      rw [htoken] at h
      cases h
    | some token =>
      simp only [htoken] at h
      cases hblank : Text.isBlank token with
      | true =>
        rw [hblank] at h
        cases h
      | false => exact ⟨token, trivial, rfl, by simp only [hblank, Bool.false_eq_true, if_false]⟩

/-- A success of the handler comes with the token of a redemption that succeeded. -/
theorem enrollAgent_ok {name code token : String} {draws : ServerDraws} {t : Enrollments} {d : Links}
    (hstatus : (enrollAgent name code draws t d).1.isSuccess = true)
    (htoken : decodeToken (enrollAgent name code draws t d).1.body = some token) :
    (consumeEnrollment (draws.request name code)).perform draws.fault t t d =
      (.ok token, (enrollAgent name code draws t d).2.1, (enrollAgent name code draws t d).2.2) := by
  unfold enrollAgent at hstatus htoken ⊢
  split at hstatus
  · cases hstatus
  · rename_i hshort
    rw [if_neg hshort] at htoken ⊢
    split at htoken
    · rename_i drawn after hrun
      have hsame : drawn = token := by
        simpa [decodeToken] using htoken
      rw [hrun, hsame]
    · cases htoken

/-- An enrollment that succeeds: the server has redeemed the code, and the agent has stored the
    token. -/
theorem enroll_ok {exchange : Exchange} {temporary : Uuid} {faults : TokenFaults}
    (h : (enroll config exchange temporary faults s).1 = .ok ()) :
    ∃ (content : String) (draws : ServerDraws) (token : String), config.code = some content ∧
      (consumeEnrollment (draws.request config.name (Text.trim content))).perform draws.fault
        s.enrollments s.enrollments s.credentials =
          (.ok token, (enroll config exchange temporary faults s).2.enrollments,
            (enroll config exchange temporary faults s).2.credentials) ∧
      (writeToken config.tokenFile token temporary faults s.files).1 = .ok () ∧
      (enroll config exchange temporary faults s).2.files =
        (writeToken config.tokenFile token temporary faults s.files).2 := by
  rcases enroll_cases config exchange temporary faults s with
    ⟨e, hrun, _⟩ | ⟨content, draws, reception, hsends, hrun⟩
  · rw [hrun] at h
    cases h
  · obtain ⟨_, _, hcode, _, _⟩ := hsends
    rw [hrun] at h ⊢
    cases reception with
    | lost => cases h
    | garbled => cases h
    | received =>
      simp only [receive] at h ⊢
      obtain ⟨token, hstatus, htoken, hstored⟩ := storeToken_ok h
      rw [hstored] at h
      exact ⟨content, draws, token, hcode, enrollAgent_ok hstatus htoken, h, congrArg Prod.snd hstored⟩

end Both

/-- **An agent that has enrolled is let in.** Whatever statements fail on the way, if `enroll`
    succeeds then later runs of the agent read a token from its file, and behind `Bearer ` the server
    takes it from their requests; the server accepts this token in addition to those it accepted
    before, and no other (if every file of the directory can be read). The code was good and is now
    consumed, and neither side has touched another file or another code. -/
theorem admitted_of_enroll [Sha256] [Formats] (config : EnrollmentConfig) (exchange : Exchange)
    (temporary : Uuid) (faults : TokenFaults) (s : Sides)
    (h : (enroll config exchange temporary faults s).1 = .ok ()) :
    let after := (enroll config exchange temporary faults s).2
    ∃ token : Uuid, readToken config.tokenFile after.files = .ok token.text ∧
      (∀ request : Inquiry, request.authorization = some ("Bearer " ++ token.text) →
        request.presented = some token.text) ∧
      (∀ presented, authorized presented after.credentials = true ↔
        authorized presented s.credentials = true ∨
          (presented = token.text ∧ ¬ Blocked s.credentials)) ∧
      (∀ name, name ≠ credentialName config.name →
        after.credentials.get? name = s.credentials.get? name) ∧
      (∀ path, path ≠ config.tokenFile → after.files.get? path = s.files.get? path) ∧
      ∃ content row consumedAt, config.code = some content ∧
        s.enrollments.get? (hashSecret (Text.trim content)) = some row ∧ row.name = config.name ∧
        row.consumedAt = none ∧ ∀ k, after.enrollments.get? k =
          if hashSecret (Text.trim content) = k then some { row with consumedAt := some consumedAt }
          else s.enrollments.get? k := by
  intro after
  obtain ⟨content, draws, token, hcode, hredeemed, hwritten, hfiles⟩ := enroll_ok h
  let r := draws.request config.name (Text.trim content)
  obtain ⟨hadmitted, htoken, henrollments, hcredentials⟩ := redeemed_ok hredeemed
  obtain ⟨hnone, hget⟩ := writeToken_ok hwritten
  obtain ⟨row, hrow, hserves, hunconsumed, hcodes⟩ := consume_of_opens hadmitted.2.2.2
  have htext : Text.trim token = r.token.text := by
    rw [htoken]
    exact r.token.trim_text
  have hread : after.files.read config.tokenFile =
      some (String.ofList (r.token.text.toList ++ ['\n'])) := by
    have hfile := hget config.tokenFile
    rw [if_pos rfl, ← hfiles, htext] at hfile
    rw [Links.read, hfile]
  have hfresh : s.credentials.get? (credentialName config.name) = none :=
    Links.get?_eq_none.mpr (Links.taken_eq_false.mp hadmitted.2.2.1)
  refine ⟨r.token, ?_, fun request hheader => ?_, fun presented => ?_, fun name hname => ?_,
    fun path hpath => ?_, content, row, r.consumedAt.toRfc3339, hcode, hrow, hserves.1, hunconsumed,
    fun k => ?_⟩
  · unfold readToken
    rw [hread]
    simp only [trim_line]
    have hne : r.token.text.isEmpty = false := by
      simpa using r.token.text_ne
    rw [hne]
    rfl
  · rw [Inquiry.presented, hheader, Option.bind_some, stripPrefix_append]
  · have hone := authorized_of_new presented hfresh hcredentials (by
      rw [trim_line]
      exact r.token.text_ne)
    rwa [trim_line] at hone
  · exact (hcredentials name).trans (if_neg hname)
  · rw [hfiles, hget, if_neg hpath]
  · exact (congrArg (fun t : Enrollments => t.get? k) henrollments).trans (hcodes k)

/-- The theorem at the sample code and a token file that is free. -/
theorem admitted_of_enroll_media :
    let after := (@enroll Sample.hashing Sample.expiryFormats (Sample.host "/etc/beacon/media.token")
      Sample.handled Sample.temporary {} Sample.sides).2
    ∃ token : Uuid, readToken "/etc/beacon/media.token" after.files = .ok token.text ∧
      authorized token.text after.credentials = true := by
  have henrolled := @admitted_of_enroll Sample.hashing Sample.expiryFormats
    (Sample.host "/etc/beacon/media.token") Sample.handled Sample.temporary {} Sample.sides
    (by decide +kernel)
  obtain ⟨token, hread, _, haccepts, _⟩ := henrolled
  have hreadable : ¬ Blocked Sample.sides.credentials := by
    rintro ⟨_, h⟩
    cases h
  exact ⟨token, hread, (haccepts token.text).mpr (.inr ⟨rfl, hreadable⟩)⟩

end Beacon
