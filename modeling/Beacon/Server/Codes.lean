/-
  File:      Beacon/Server/Codes.lean
  Subject:   What enrollment codes are good for, over every run.

  * `Ledger`, `ledger_run` -- the table of codes tells who was redeemed: a code is consumed if and
    only if a redemption with it succeeded, and no two did;
  * `linked_of_effect` -- the credential comes with the hard link, where no file of its name
    stands, and holds the token and a line break;
  * `kept_of_effect` -- no step of the server changes a credential that is there;
  * `enrollment_safe` -- **a code is redeemed at most once**, by the agent it was created for,
    before it expires; what is refused burns no code.
-/
import Beacon.Server.Redemptions

namespace Beacon

open Foundation
open Snapshot (Access)
open Sessions (Call)

section Rows

variable [Sha256] [Formats] {r : EnrollmentRequest} {t t' : Enrollments} {row : EnrollmentRow}

/-- The row is for the agent, and not expired at the check. -/
def EnrollmentRow.Serves (row : EnrollmentRow) (r : EnrollmentRequest) : Prop :=
  row.name = r.name ∧
    ∃ expiresAt, Formats.parseFromRfc3339 row.expiresAt = some expiresAt ∧ r.checkedAt < expiresAt

omit [Sha256] in
theorem serves_of_admits (h : row.admits r = .ok ()) : row.Serves r ∧ row.consumedAt = none := by
  unfold EnrollmentRow.admits at h
  split at h
  · cases h
  · rename_i hname
    split at h
    · cases h
    · rename_i hconsumed
      refine ⟨⟨not_not.mp hname, ?_⟩, Option.not_isSome_iff_eq_none.mp hconsumed⟩
      split at h
      · cases h
      · rename_i expiresAt hparse
        split at h
        · cases h
        · rename_i hlate
          exact ⟨expiresAt, hparse, Int.not_le.mp hlate⟩

/-- A code that passes the checks is consumed, and no other row is touched. -/
theorem consume_of_opens (h : r.Opens t) : ∃ row, t.get? (hashSecret r.code) = some row ∧
    row.Serves r ∧ row.consumedAt = none ∧ ∀ k, (r.consume t).get? k =
      if hashSecret r.code = k then some { row with consumedAt := some r.consumedAt.toRfc3339 }
      else t.get? k := by
  obtain ⟨row, hrow, hadmits⟩ := h
  obtain ⟨hserves, hnone⟩ := serves_of_admits hadmits
  refine ⟨row, hrow, hserves, hnone, fun k => ?_⟩
  have hconsume : r.consume t = t.upsert { row with consumedAt := some r.consumedAt.toRfc3339 } := by
    unfold EnrollmentRequest.consume
    rw [hrow]
    simp only [hnone, Option.isNone_none, if_true]
  rw [hconsume, Table.get?_upsert]
  simp only [← Table.key_of_get? hrow]

omit [Formats] in
theorem createEnrollment_eq_some {c : Creation} (h : createEnrollment c t = some t') :
    ∃ expiry, c.expiry = some expiry ∧
      t.insert ⟨hashSecret c.code, c.name, expiry.toRfc3339, none⟩ = some t' := by
  unfold createEnrollment at h
  split at h
  · cases h
  · split at h
    · cases h
    · exact Option.bind_eq_some_iff.mp h

end Rows

section Ledgers

variable {ι κ : Type} [DecidableEq ι] [Sha256] [Formats] {sc : Scenario ι κ}
  {st st' : Sessions.State ι Enrollments Links String String} {a : SiteAction ι κ}

/-- Redemption `i` has returned a token. -/
def Returned (st : Sessions.State ι Enrollments Links String String) (i : ι) (token : String) :
    Prop := st.calls i = .done (.ok token)

/-- **The three ways an action concerns the table of codes**, and with it who has been redeemed. -/
theorem codes_of_effect (h : Effect sc st a st') :
    (st'.latest = st.latest ∧ ∀ j token, Returned st' j token ↔ Returned st j token) ∨
    (∃ c, a = .create c ∧ createEnrollment c st.latest = some st'.latest ∧
      ∀ j token, Returned st' j token ↔ Returned st j token) ∨
    ∃ i, a = .next i ∧ (sc.redeems i).Opens st.latest ∧
      st'.latest = (sc.redeems i).consume st.latest ∧ (∀ token, ¬ Returned st i token) ∧
      ∀ j token, Returned st' j token ↔
        Returned st j token ∨ j = i ∧ token = (sc.redeems i).token.text := by
  -- a call that runs has returned nothing, and neither has what it is set to
  have hset : ∀ {i : ι} {c c' : Call Enrollments Links String String} {st' : Sessions.State ..},
      st.calls i = c' → st'.calls = (st.set i c).calls → (∀ token, c ≠ .done (.ok token)) →
      (∀ token, c' ≠ .done (.ok token)) → ∀ j token, Returned st' j token ↔ Returned st j token := by
    intro i c c' st' hi hcalls hc hc' j token
    unfold Returned
    rw [hcalls]
    by_cases hj : j = i
    · rw [hj, Sessions.set_calls_self, hi]
      exact iff_of_false (hc token) (hc' token)
    · rw [Sessions.set_calls_ne st c hj]
  cases h with
  | enrolls i hi => exact .inl ⟨rfl, hset hi rfl (fun _ => by simp) (fun _ => by simp)⟩
  | turns i acc rest _ hi _ hturn =>
    cases hturn with
    | opens _ _ _ _ _ _ _ _ _ => exact .inl ⟨rfl, hset hi rfl (fun _ => by simp) (fun _ => by simp)⟩
    | moves _ _ _ _ _ _ _ _ => exact .inl ⟨rfl, hset hi rfl (fun _ => by simp) (fun _ => by simp)⟩
    | refuses e => exact .inl ⟨rfl, hset hi rfl (fun _ => by simp) (fun _ => by simp)⟩
    | commits hopens _ =>
      have hrunning : ∀ token, ¬ Returned st i token := by
        intro token htoken
        cases hi.symm.trans htoken
      refine .inr (.inr ⟨i, rfl, hopens, rfl, hrunning, fun j token => ?_⟩)
      by_cases hj : j = i
      · rw [hj]
        show (st.set i _).calls i = _ ↔ st.calls i = _ ∨ _
        rw [Sessions.set_calls_self, hi]
        simp [eq_comm]
      · show (st.set i _).calls j = _ ↔ st.calls j = _ ∨ _
        rw [Sessions.set_calls_ne st _ hj]
        simp [hj]
  | fails i acc rest hi => exact .inl ⟨rfl, hset hi rfl (fun _ => by simp) (fun _ => by simp)⟩
  | crashes => exact .inl ⟨rfl, fun j token => Sessions.crash_calls_ok j⟩
  | creates c t _ ht => exact .inr (.inl ⟨c, rfl, ht, fun _ _ => Iff.rfl⟩)
  | _ => exact .inl ⟨rfl, fun _ _ => Iff.rfl⟩

variable (sc) in
/-- **What the table of codes says of the redemptions.** -/
structure Ledger (st : Sessions.State ι Enrollments Links String String) : Prop where
  /-- The code of a redemption that succeeded is consumed by it. -/
  consumed : ∀ i token, Returned st i token → ∃ row,
    st.latest.get? (hashSecret (sc.redeems i).code) = some row ∧ row.Serves (sc.redeems i) ∧
      row.consumedAt = some (sc.redeems i).consumedAt.toRfc3339
  /-- No other redemption with the same code succeeded. -/
  once : ∀ i j x y, Returned st i x → Returned st j y →
    hashSecret (sc.redeems i).code = hashSecret (sc.redeems j).code → i = j
  /-- A consumed code was redeemed. -/
  burnt : ∀ k row, st.latest.get? k = some row → row.consumedAt.isSome →
    ∃ i token, Returned st i token ∧ hashSecret (sc.redeems i).code = k

/-- **Every action keeps the books.** -/
theorem ledger_effect (h : Ledger sc st) (he : Effect sc st a st') : Ledger sc st' := by
  rcases codes_of_effect he with ⟨hcodes, hsame⟩ | ⟨c, _, hcreate, hsame⟩ |
    ⟨i, _, hopens, hcodes, hrunning, hreturned⟩
  · refine ⟨fun i token hi => ?_, fun i j x y hi hj => ?_, fun k row hrow hsome => ?_⟩
    · rw [hcodes]
      exact h.consumed i token ((hsame i token).mp hi)
    · exact h.once i j x y ((hsame i x).mp hi) ((hsame j y).mp hj)
    · rw [hcodes] at hrow
      obtain ⟨i, token, hi, hk⟩ := h.burnt k row hrow hsome
      exact ⟨i, token, (hsame i token).mpr hi, hk⟩
  · obtain ⟨expiry, _, hinsert⟩ := createEnrollment_eq_some hcreate
    have hfresh := Table.fresh_of_insert hinsert
    refine ⟨fun i token hi => ?_, fun i j x y hi hj => ?_, fun k row hrow hsome => ?_⟩
    · obtain ⟨row, hrow, hserves⟩ := h.consumed i token ((hsame i token).mp hi)
      refine ⟨row, ?_, hserves⟩
      rw [Table.get?_insert_ne hinsert, hrow]
      intro e
      rw [← e] at hrow
      cases hfresh.symm.trans hrow
    · exact h.once i j x y ((hsame i x).mp hi) ((hsame j y).mp hj)
    · by_cases hk : hashSecret c.code = k
      · rw [← hk] at hrow
        cases (Table.get?_insert_self hinsert).symm.trans hrow
        cases hsome
      · rw [Table.get?_insert_ne hinsert hk] at hrow
        obtain ⟨i, token, hi, hki⟩ := h.burnt k row hrow hsome
        exact ⟨i, token, (hsame i token).mpr hi, hki⟩
  · obtain ⟨row, hrow, hserves, hnone, hget⟩ := consume_of_opens hopens
    -- a redemption that succeeded before had another code: this one was not consumed
    have hother : ∀ j token, Returned st j token →
        hashSecret (sc.redeems i).code ≠ hashSecret (sc.redeems j).code := by
      intro j token hj e
      obtain ⟨row', hrow', _, hsome⟩ := h.consumed j token hj
      rw [← e] at hrow'
      cases hrow.symm.trans hrow'
      cases hnone.symm.trans hsome
    refine ⟨fun j token hj => ?_, fun j l x y hj hl e => ?_, fun k row' hrow' hsome => ?_⟩
    · rw [hcodes, hget]
      rcases (hreturned j token).mp hj with hj | ⟨rfl, _⟩
      · rw [if_neg (hother j token hj)]
        exact h.consumed j token hj
      · rw [if_pos rfl]
        exact ⟨_, rfl, hserves, rfl⟩
    · rcases (hreturned j x).mp hj with hj | ⟨rfl, _⟩ <;>
        rcases (hreturned l y).mp hl with hl | ⟨rfl, _⟩
      · exact h.once j l x y hj hl e
      · exact absurd e.symm (hother j x hj)
      · exact absurd e (hother l y hl)
      · rfl
    · rw [hcodes, hget] at hrow'
      by_cases hk : hashSecret (sc.redeems i).code = k
      · exact ⟨i, _, (hreturned i _).mpr (.inr ⟨rfl, rfl⟩), hk⟩
      · rw [if_neg hk] at hrow'
        obtain ⟨j, token, hj, hkj⟩ := h.burnt k row' hrow' hsome
        exact ⟨j, token, (hreturned j token).mpr (.inl hj), hkj⟩

omit [DecidableEq ι] in
theorem ledger_init : Ledger sc (⟨.empty, 0, none, .empty, fun _ => .waiting⟩ :
    Sessions.State ι Enrollments Links String String) where
  consumed := fun _ _ h => by cases h
  once := fun _ _ _ _ h => by cases h
  burnt := fun _ _ h => by cases h

theorem ledger_run [DecidableEq κ] (as : List (SiteAction ι κ)) :
    Ledger sc (sc.site.run as).redemptions := by
  have key : Staged sc (sc.site.run as).redemptions ∧ Ledger sc (sc.site.run as).redemptions := by
    refine sc.site.invariant (I := fun s => Staged sc s.redemptions ∧ Ledger sc s.redemptions)
      ⟨staged_init, ledger_init⟩ (fun s a s' h hs => ?_) as
    have he := effect_of_step h.1 hs
    exact ⟨staged_effect h.1 he, ledger_effect h.2 he⟩
  exact key.2

/-- The table has a row of this code, name and expiry. -/
def Registered (t : Enrollments) (hash name expiresAt : String) : Prop :=
  ∃ row, t.get? hash = some row ∧ row.name = name ∧ row.expiresAt = expiresAt

/-- **A row comes with the creation of its code.** -/
theorem registered_of_effect (he : Effect sc st a st') {hash name expiresAt : String}
    (hno : ¬ Registered st.latest hash name expiresAt)
    (h : Registered st'.latest hash name expiresAt) :
    ∃ c expiry, a = .create c ∧ createEnrollment c st.latest = some st'.latest ∧
      hashSecret c.code = hash ∧ c.name = name ∧ c.expiry = some expiry ∧
      expiry.toRfc3339 = expiresAt := by
  obtain ⟨row, hrow, hname, hexpires⟩ := h
  rcases codes_of_effect he with ⟨hcodes, _⟩ | ⟨c, ha, hcreate, _⟩ | ⟨i, _, hopens, hcodes, _⟩
  · rw [hcodes] at hrow
    exact absurd ⟨row, hrow, hname, hexpires⟩ hno
  · obtain ⟨expiry, hexpiry, hinsert⟩ := createEnrollment_eq_some hcreate
    by_cases hk : hashSecret c.code = hash
    · rw [← hk] at hrow
      cases (Table.get?_insert_self hinsert).symm.trans hrow
      exact ⟨c, expiry, ha, hcreate, hk, hname, hexpiry, hexpires⟩
    · rw [Table.get?_insert_ne hinsert hk] at hrow
      exact absurd ⟨row, hrow, hname, hexpires⟩ hno
  · -- a redemption leaves name and expiry as they are
    obtain ⟨old, hold, _, _, hget⟩ := consume_of_opens hopens
    rw [hcodes, hget] at hrow
    by_cases hk : hashSecret (sc.redeems i).code = hash
    · rw [if_pos hk] at hrow
      cases hrow
      exact absurd ⟨old, hk ▸ hold, hname, hexpires⟩ hno
    · rw [if_neg hk] at hrow
      exact absurd ⟨row, hrow, hname, hexpires⟩ hno

/-! ## 2. The credential -/

/-- Redemption `i` is where `Q` says, or has returned a token. -/
def ReachedAt (Q : Redemption String → Prop)
    (st : Sessions.State ι Enrollments Links String String) (i : ι) : Prop :=
  (∃ acc rest, st.calls i = .active acc rest ∧ Q rest) ∨ ∃ token, Returned st i token

/-- **A redemption gets past the link by its own steps**, one after the other. -/
theorem reached_of_effect (he : Effect sc st a st') {i : ι} {Q : Redemption String → Prop}
    (hQ : ∀ rest, Q rest → (sc.redeems i).Linked rest)
    (hcommit : Q (Progress.commit.rest (sc.redeems i))) (hno : ¬ ReachedAt Q st i)
    (h : ReachedAt Q st' i) :
    a = .next i ∧ validateAgentName (sc.redeems i).name = .ok () ∧
      ∃ p p', p.On (sc.redeems i) st.disk ∧ ¬ Q (p.rest (sc.redeems i)) ∧
        Q (p'.rest (sc.redeems i)) ∧ Move (sc.redeems i) p st.disk p' st'.disk := by
  have hsame : st'.calls i ≠ st.calls i := by
    intro e
    unfold ReachedAt Returned at h hno
    rw [e] at h
    exact hno h
  have hset : ∀ {st₁ : Sessions.State ι Enrollments Links String String}
      {c : Call Enrollments Links String String} {j : ι}, st₁.calls = (st.set j c).calls →
      st₁.calls i ≠ st.calls i → j = i ∧ st₁.calls i = c := by
    intro st₁ c j e hne
    rw [e] at hne ⊢
    by_cases hj : i = j
    · rw [hj]
      exact ⟨rfl, Sessions.set_calls_self st j c⟩
    · exact absurd (Sessions.set_calls_ne st c hj) hne
  have hend : ∀ {e : Fault String}, st'.calls i ≠ .done (.error e) := by
    intro e hc
    rcases h with ⟨acc, rest, hcall, _⟩ | ⟨token, hcall⟩
    · cases hc.symm.trans hcall
    · cases hc.symm.trans hcall
  have hactive : ∀ {acc : Access Enrollments} {rest : Redemption String},
      st'.calls i = .active acc rest → Q rest := by
    intro acc rest hc
    rcases h with ⟨acc', rest', hcall, hq⟩ | ⟨token, hcall⟩
    · cases hc.symm.trans hcall
      exact hq
    · cases hc.symm.trans hcall
  cases he with
  | enrolls j hj =>
    obtain ⟨rfl, hc⟩ := hset rfl hsame
    exact absurd (hQ _ (hactive hc)) not_linked_begun
  | turns j acc rest _ hj _ hturn =>
    cases hturn with
    | opens _ _ _ _ _ _ _ _ hlinked =>
      obtain ⟨rfl, hc⟩ := hset rfl hsame
      exact absurd (hQ _ (hactive hc)) hlinked
    | refuses e =>
      obtain ⟨rfl, hc⟩ := hset rfl hsame
      exact absurd hc hend
    | commits _ hi =>
      obtain ⟨rfl, _⟩ := hset rfl hsame
      exact absurd (.inl ⟨_, _, hi, hcommit⟩) hno
    | moves p p' d hname _ hi hon hmove =>
      obtain ⟨rfl, hc⟩ := hset rfl hsame
      exact ⟨rfl, hname, p, p', hon, fun hq => hno (.inl ⟨_, _, hi, hq⟩), hactive hc, hmove⟩
  | fails j acc rest hj =>
    obtain ⟨rfl, hc⟩ := hset rfl hsame
    exact absurd hc hend
  | crashes =>
    rcases h with ⟨acc, rest, hcall, _⟩ | ⟨token, hcall⟩
    · exact absurd hcall (Sessions.crash_calls i)
    · exact absurd (.inr ⟨token, (Sessions.crash_calls_ok i).mp hcall⟩) hno
  | _ => exact absurd rfl hsame

/-- **The credential comes with the hard link**: no file of its name stood there, and then it
    holds the token and a line break. -/
theorem linked_of_effect (he : Effect sc st a st') {i : ι}
    (hno : ¬ ReachedAt (sc.redeems i).Linked st i) (h : ReachedAt (sc.redeems i).Linked st' i) :
    a = .next i ∧ validateAgentName (sc.redeems i).name = .ok () ∧
      st.disk.get? (sc.redeems i).credential = none ∧
      st'.disk.get? (sc.redeems i).credential =
        some (.file (some ((sc.redeems i).token.text ++ "\n"))) := by
  obtain ⟨ha, hname, p, p', hon, hbefore, hafter, hmove⟩ :=
    reached_of_effect he (fun _ => id) (.inr rfl) hno h
  refine ⟨ha, hname, ?_⟩
  rcases linked_rest.mp hafter with rfl | rfl
  · cases hmove with
    | link hlink =>
      refine ⟨Links.get?_eq_none.mpr (Links.hardLink_eq_some hlink).1, ?_⟩
      rw [Links.get?_hardLink hlink, if_pos rfl, (hon _ rfl).1, String.ofList_append,
        String.ofList_toList]
  · cases hmove with
    | clean _ => exact absurd (.inl rfl) hbefore

omit [DecidableEq ι] [Sha256] [Formats] in
/-- A redemption writes to its temporary file, and adds its credential: no other file changes. -/
theorem kept_of_move {r : EnrollmentRequest} {p p' : Progress} {d d' : Links} (hon : p.On r d)
    (hmove : Move r p d p' d') {name : String} {node : Node}
    (hname : Directory.extension name ≠ some "tmp") (hget : d.get? name = some node) :
    d'.get? name = some node := by
  have hdraft : name ≠ r.draft := fun e => hname (e ▸ extension_temporaryName _)
  cases hmove with
  | create h => rw [Links.get?_createNew h, if_neg hdraft, hget]
  | fill h =>
    rw [Links.get?_append_ne _ fun k hk hk' => hdraft ((hon _ rfl).2 name k hk hk'), hget]
  | line h =>
    rw [Links.get?_append_ne _ fun k hk hk' => hdraft ((hon _ rfl).2 name k hk hk'), hget]
  | link h =>
    rw [Links.get?_hardLink h, if_neg, hget]
    rintro rfl
    cases (Links.get?_eq_none.mpr (Links.hardLink_eq_some h).1).symm.trans hget
  | clean h => rw [Links.get?_unlink h, if_neg hdraft, hget]
  | _ => exact hget

/-- **No step of the server changes a file that is there**, temporary files apart. -/
theorem kept_of_effect (he : Effect sc st a st') (hno : ∀ c, a ≠ .operator c) {name : String}
    {node : Node} (hname : Directory.extension name ≠ some "tmp")
    (hget : st.disk.get? name = some node) : st'.disk.get? name = some node := by
  cases he with
  | turns i acc rest _ _ _ hturn =>
    cases hturn with
    | moves p p' d _ _ _ hon hmove => exact kept_of_move hon hmove hname hget
    | _ => exact hget
  | changes c d _ _ => exact absurd rfl (hno c)
  | _ => exact hget

theorem returned_of_effect (he : Effect sc st a st') {i : ι} {token : String}
    (h : Returned st i token) : Returned st' i token := by
  rcases codes_of_effect he with ⟨_, hsame⟩ | ⟨c, _, _, hsame⟩ | ⟨j, _, _, _, _, hreturned⟩
  · exact (hsame i token).mpr h
  · exact (hsame i token).mpr h
  · exact (hreturned i token).mpr (.inl h)

end Ledgers

/-! ## 3. Codes over runs -/

section Runs

variable {ι κ : Type} [DecidableEq ι] [DecidableEq κ] [Sha256] [Formats] {sc : Scenario ι κ}

/-- A state on the way of a run, and the one after it. -/
theorem step_of_run {before : List (SiteAction ι κ)} {a : SiteAction ι κ} {s' : Site ι κ}
    (hs : sc.site.step (sc.site.run before) a = some s') :
    sc.site.run (before ++ [a]) = s' ∧
      Effect sc (sc.site.run before).redemptions a s'.redemptions := by
  refine ⟨?_, effect_of_step (staged_run before) hs⟩
  rw [Machine.run_snoc, Machine.act_of_step hs]

theorem returned_later {as : List (SiteAction ι κ)} {i : ι} {token : String}
    (h : Returned (sc.site.run as).redemptions i token) (bs : List (SiteAction ι κ)) :
    Returned (sc.site.run (as ++ bs)).redemptions i token := by
  refine sc.site.steady (I := fun s => Staged sc s.redemptions)
    (R := fun s s' => Returned s.redemptions i token → Returned s'.redemptions i token)
    staged_init (fun _ _ _ h hs => staged_effect h (effect_of_step h hs)) (fun _ => id)
    (fun _ _ _ f g => g ∘ f) (fun _ _ _ hI hs => ?_) as bs h
  exact returned_of_effect (effect_of_step hI hs)

/-- **Enrollment is safe in every run**, however the statements of the redemptions, the creations
    of codes, the changes an operator makes and crashes follow each other. -/
theorem enrollment_safe
    (hdigest : ∀ a b, Sha256.digest (Text.trim a) = Sha256.digest (Text.trim b) →
      Text.trim a = Text.trim b)
    (hparse : ∀ t u : DateTime, Formats.parseFromRfc3339 t.toRfc3339 = some u → u = t)
    (as : List (SiteAction ι κ)) :
    -- a code is redeemed at most once
    (∀ i j x y, Returned (sc.site.run as).redemptions i x →
      Returned (sc.site.run as).redemptions j y →
      Text.trim (sc.redeems i).code = Text.trim (sc.redeems j).code → i = j) ∧
    -- by the name it was created for, before it expires
    (∀ i token, Returned (sc.site.run as).redemptions i token →
      ∃ before c after expiry, as = before ++ .create c :: after ∧
        createEnrollment c (sc.site.run before).codes =
          some (sc.site.run (before ++ [.create c])).codes ∧
        Text.trim c.code = Text.trim (sc.redeems i).code ∧ c.name = (sc.redeems i).name ∧
        c.expiry = some expiry ∧ (sc.redeems i).checkedAt < expiry) ∧
    -- its credential is new, lies in the directory and holds the token
    (∀ i token, Returned (sc.site.run as).redemptions i token →
      Directory.IsComponent (sc.redeems i).credential ∧
      ∃ before after, as = before ++ .next i :: after ∧
        (sc.site.run before).disk.get? (sc.redeems i).credential = none ∧
        (sc.site.run (before ++ [.next i])).disk.get? (sc.redeems i).credential =
          some (.file (some (token ++ "\n")))) ∧
    -- a credential that is there is changed by the operator only
    (∀ a, (∀ c, a ≠ .operator c) → ∀ name node, Directory.extension name ≠ some "tmp" →
      (sc.site.run as).disk.get? name = some node →
      (sc.site.run (as ++ [a])).disk.get? name = some node) ∧
    -- only who succeeds consumes a code
    (∀ k row, (sc.site.run as).codes.get? k = some row → row.consumedAt.isSome →
      ∃ i token, Returned (sc.site.run as).redemptions i token ∧
        hashSecret (sc.redeems i).code = k ∧ (sc.redeems i).name = row.name) ∧
    (∀ before a after, as = before ++ a :: after →
      (sc.site.run (before ++ [a])).codes ≠ (sc.site.run before).codes → (∃ c, a = .create c) ∨
        ∃ i token, a = .next i ∧ Returned (sc.site.run as).redemptions i token) := by
  have hledger : Ledger sc (sc.site.run as).redemptions := ledger_run as
  refine ⟨fun i j x y hi hj e => ?_, fun i token hi => ?_, fun i token hi => ?_,
    fun a hno name node hname hget => ?_, fun k row hrow hsome => ?_, fun before a after e hne => ?_⟩
  · exact hledger.once i j x y hi hj (congrArg Sha256.digest e)
  · obtain ⟨row, hrow, ⟨hname, expiresAt, hexpires, hbefore⟩, _⟩ := hledger.consumed i token hi
    obtain ⟨before, a, after, e, hno, s', hs, hP⟩ := Machine.exists_turn (M := sc.site)
      (P := fun s => Registered s.codes (hashSecret (sc.redeems i).code) row.name row.expiresAt)
      (by rintro ⟨_, h, _⟩; cases h) ⟨row, hrow, rfl, rfl⟩
    obtain ⟨hrun, he⟩ := step_of_run hs
    obtain ⟨c, expiry, rfl, hcreate, hk, hcname, hexpiry, hprint⟩ := registered_of_effect he hno hP
    refine ⟨before, c, after, expiry, e, ?_, hdigest _ _ hk, hcname.trans hname, hexpiry, ?_⟩
    · rw [hrun]
      exact hcreate
    · rw [← hprint] at hexpires
      rw [← hparse expiry expiresAt hexpires]
      exact hbefore
  · obtain ⟨before, a, after, e, hno, s', hs, hP⟩ := Machine.exists_turn (M := sc.site)
      (P := fun s => ReachedAt (sc.redeems i).Linked s.redemptions i)
      (by rintro (⟨_, _, h, _⟩ | ⟨_, h⟩) <;> cases h) (.inr ⟨token, hi⟩)
    obtain ⟨hrun, he⟩ := step_of_run hs
    obtain ⟨rfl, hname, hfree, hfile⟩ := linked_of_effect he hno hP
    refine ⟨isComponent_credentialName hname, before, after, e, hfree, ?_⟩
    rw [hrun, (staged_run as).token i token hi]
    exact hfile
  · rw [Machine.run_snoc]
    cases hs : sc.site.step (sc.site.run as) a with
    | none =>
      rw [Machine.act_of_none hs]
      exact hget
    | some s' =>
      rw [Machine.act_of_step hs]
      exact kept_of_effect (step_of_run hs).2 hno hname hget
  · obtain ⟨i, token, hi, hk⟩ := hledger.burnt k row hrow hsome
    obtain ⟨row', hrow', hserves, _⟩ := hledger.consumed i token hi
    rw [hk, hrow] at hrow'
    cases hrow'
    exact ⟨i, token, hi, hk, hserves.1.symm⟩
  · cases hs : sc.site.step (sc.site.run before) a with
    | none =>
      rw [Machine.run_snoc, Machine.act_of_none hs] at hne
      exact absurd rfl hne
    | some s' =>
      obtain ⟨hrun, he⟩ := step_of_run hs
      rw [hrun] at hne
      rcases codes_of_effect he with ⟨hsame, _⟩ | ⟨c, rfl, _⟩ | ⟨i, rfl, _, _, _, hreturned⟩
      · exact absurd hsame hne
      · exact .inl ⟨c, rfl⟩
      · have hi : Returned (sc.site.run (before ++ [.next i])).redemptions i
            (sc.redeems i).token.text := by
          rw [hrun]
          exact (hreturned i _).mpr (.inr ⟨rfl, rfl⟩)
        have hlater := returned_later hi after
        rw [List.append_assoc, List.singleton_append, ← e] at hlater
        exact .inr ⟨i, _, rfl, hlater⟩

end Runs

/-! ## 4. A sample run -/

namespace Sample

theorem hashing_injective (a b : String) (h : hashing.digest (Text.trim a) =
    hashing.digest (Text.trim b)) : Text.trim a = Text.trim b := h

theorem expiryFormats_prints (t u : DateTime)
    (h : expiryFormats.parseFromRfc3339 t.toRfc3339 = some u) : u = t := by
  change (if t.toRfc3339 = "2026-01-01T00:00:00+00:00" then _ else none) = some u at h
  split at h
  · rename_i htext
    cases h
    exact (DateTime.text_inj (b := ⟨1767225600000000000⟩) (by decide)
      (htext.trans (by decide))).symm
  · cases h

/-- The sample code, the sample redemption, and one request with the token. -/
def scenario : Scenario Unit Unit where
  store := silentStore
  db := .empty
  redeems _ := enrollment
  asks _ := ⟨some ("Bearer " ++ token.text), .alerts ⟨none, 100⟩⟩

def creation : Creation := ⟨"media", "code", 900, ⟨1767224700000000000⟩⟩

/-- The server of the sample. -/
abbrev site : Machine (Site Unit Unit) (SiteAction Unit Unit) :=
  @Scenario.site Unit Unit _ _ hashing expiryFormats scenario

/-- The code is created and redeemed. -/
def redeemed : List (SiteAction Unit Unit) :=
  .create creation :: .enroll () :: List.replicate 48 (.next ())

/-- The token a redemption returned, if it has. -/
def answer (st : Sessions.State Unit Enrollments Links String String) : Option String :=
  match st.calls () with
  | .done (.ok token) => some token
  | _ => none

theorem returned_of_answer {st : Sessions.State Unit Enrollments Links String String}
    {token : String} (h : answer st = some token) : Returned st () token := by
  unfold answer at h
  split at h
  · rename_i hdone
    cases h
    exact hdone
  · cases h

theorem returned_redeemed : Returned (site.run redeemed).redemptions () token.text :=
  returned_of_answer (by decide +kernel)

end Sample

/-- The credential of the sample comes with its hard link. -/
theorem enrollment_safe_media : Directory.IsComponent Sample.enrollment.credential ∧
    ∃ before after, Sample.redeemed = before ++ .next () :: after ∧
      (Sample.site.run before).disk.get? Sample.enrollment.credential = none ∧
      (Sample.site.run (before ++ [.next ()])).disk.get? Sample.enrollment.credential =
        some (.file (some (Sample.token.text ++ "\n"))) :=
  (@enrollment_safe Unit Unit _ _ Sample.hashing Sample.expiryFormats Sample.scenario
    Sample.hashing_injective Sample.expiryFormats_prints Sample.redeemed).2.2.1 () _
    Sample.returned_redeemed

end Beacon
