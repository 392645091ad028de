/-
  File:      Beacon/Server/Access.lean
  Subject:   Who is let in, and who does what to the tables of the events.

  A token counts if some file of the directory holds it, blanks at its ends apart. Nobody writes to
  the directory but the operator and the redemptions, and a redemption gets to the directory with a
  code only that is in the table for its name, not consumed and not expired. So behind every request
  that is let in stands a text of the operator, or a redemption with such a code. Behind the latter
  there may be less than its token: what is written of the token so far is a file of the directory
  as any other, and lets in who presents this much of it.

  * `issued_of_holds` -- **where a token in the directory comes from**;
  * `found_of_verdict` -- a request that is let in has read its token in a file;
  * `access_of_run` -- **nobody gets anything without a token that was issued**.
-/
import Beacon.Server.Revocation

namespace Beacon

open Foundation

section Access

variable {ι κ : Type} [DecidableEq ι] [DecidableEq κ] [Sha256] [Formats] {sc : Scenario ι κ}
  {s s' : Site ι κ} {a : SiteAction ι κ} {q : κ} {as : List (SiteAction ι κ)} {token : String}

/-! ## 1. Where a token comes from -/

/-- The code of redemption `i` is in the table: created for its name, not consumed, and not
    expired. -/
structure Entitled (sc : Scenario ι κ) (as : List (SiteAction ι κ)) (i : ι) : Prop where
  unconsumed : ∃ row, (sc.site.run as).codes.get? (hashSecret (sc.redeems i).code) = some row ∧
    row.Serves (sc.redeems i) ∧ row.consumedAt = none
  created : ∃ c, .create c ∈ as ∧ hashSecret c.code = hashSecret (sc.redeems i).code ∧
    c.name = (sc.redeems i).name

/-- **What brings a token into the directory**: the operator, who writes it, or a redemption that
    has a good code and writes a part of its own token. -/
inductive Issued (sc : Scenario ι κ) (as : List (SiteAction ι κ)) (token : String) : Prop
  | written (c : Change) (text : String) (hc : .operator c ∈ as) (htext : c.text = some text)
    (htrim : Text.trim text = token)
  | redeemed (i : ι) (n : Nat) (before after : List (SiteAction ι κ))
    (hsplit : as = before ++ .next i :: after) (hentitled : Entitled sc before i)
    (hpart : String.ofList ((sc.redeems i).token.text.toList.take n) = token)

omit [Sha256] [Formats] in
/-- What a phase of a redemption has in its temporary file is a part of its token. -/
theorem part_of_text {r : EnrollmentRequest} {p : Progress} {text : String}
    (h : p.text r = some text) (htrim : Text.trim text = token) :
    ∃ n, String.ofList (r.token.text.toList.take n) = token := by
  have hall : Text.trim (String.ofList (r.token.text.toList ++ ['\n'])) = token →
      ∃ n, String.ofList (r.token.text.toList.take n) = token := by
    intro h
    rw [trim_line] at h
    refine ⟨r.token.text.toList.length, ?_⟩
    rw [List.take_length, String.ofList_toList, h]
  cases p with
  | permit =>
    cases h
    exact ⟨0, htrim⟩
  | fill n =>
    cases h
    exact ⟨n, (trim_written r.token n).symm.trans htrim⟩
  | sync =>
    cases h
    exact hall htrim
  | link =>
    cases h
    exact hall htrim
  | _ => cases h

omit [Sha256] [Formats] in
/-- A statement of a redemption brings parts of its own token into the directory, and nothing
    else. -/
theorem part_of_move {r : EnrollmentRequest} {p p' : Progress} {d d' : Links} (hon : p.On r d)
    (hmove : Move r p d p' d') {name : String} (h : Holds d' name token) :
    Holds d name token ∨ ∃ n, String.ofList (r.token.text.toList.take n) = token := by
  obtain ⟨text, hget, htrim⟩ := h
  have hon' := on_of_move hmove hon
  have hdraft : ∀ {content : String}, p'.text r = some content → name = r.draft →
      ∃ n, String.ofList (r.token.text.toList.take n) = token := by
    intro content hcontent hname
    rw [hname, (hon' content hcontent).1] at hget
    cases hget
    exact part_of_text hcontent htrim
  have happend : ∀ {old new : String} {c : Char}, p.text r = some old → p'.text r = some new →
      d' = d.append r.draft c → Holds d name token ∨
        ∃ n, String.ofList (r.token.text.toList.take n) = token := by
    intro old new c hold hnew hd'
    by_cases hname : name = r.draft
    · exact .inr (hdraft hnew hname)
    · rw [hd', Links.get?_append_ne _ fun k hk hk' => hname ((hon _ hold).2 name k hk hk')] at hget
      exact .inl ⟨text, hget, htrim⟩
  cases hmove with
  | create hnew =>
    by_cases hname : name = r.draft
    · exact .inr (hdraft rfl hname)
    · rw [Links.get?_createNew hnew, if_neg hname] at hget
      exact .inl ⟨text, hget, htrim⟩
  | fill _ => exact happend rfl rfl rfl
  | line _ => exact happend rfl rfl rfl
  | link hlink =>
    rw [Links.get?_hardLink hlink] at hget
    by_cases hname : name = r.credential
    · rw [if_pos hname, (hon _ rfl).1] at hget
      cases hget
      exact .inr (part_of_text (p := .link) rfl htrim)
    · rw [if_neg hname] at hget
      exact .inl ⟨text, hget, htrim⟩
  | clean hdrop =>
    rw [Links.get?_unlink hdrop] at hget
    by_cases hname : name = r.draft
    · rw [if_pos hname] at hget
      cases hget
    · rw [if_neg hname] at hget
      exact .inl ⟨text, hget, htrim⟩
  | _ => exact .inl ⟨text, hget, htrim⟩

variable (sc) in
/-- A code in the table was created by the operator. -/
theorem created_of_codes {k : String} {row : EnrollmentRow}
    (h : (sc.site.run as).codes.get? k = some row) :
    ∃ c, .create c ∈ as ∧ hashSecret c.code = k ∧ c.name = row.name := by
  obtain ⟨before, a, after, hsplit, hno, s', hs, hyes⟩ := Machine.exists_turn (M := sc.site)
    (P := fun s => Registered s.codes k row.name row.expiresAt)
    (fun ⟨_, hrow, _⟩ => by cases hrow) ⟨row, h, rfl, rfl⟩
  obtain ⟨c, _, rfl, _, hcode, hname, _⟩ :=
    registered_of_effect (effect_of_step (staged_run before) hs) hno hyes
  exact ⟨c, hsplit ▸ List.mem_append_right _ List.mem_cons_self, hcode, hname⟩

omit [DecidableEq κ] in
/-- **What an action brings into the directory**: a text of the operator, or a part of the token of
    a redemption whose code is good. -/
theorem part_of_effect {st st' : Sessions.State ι Enrollments Links String String}
    (he : Effect sc st a st') {name : String} (h : Holds st'.disk name token) :
    Holds st.disk name token ∨
      (∃ c text, a = .operator c ∧ c.text = some text ∧ Text.trim text = token) ∨
      ∃ i n, a = .next i ∧ (sc.redeems i).Opens st.latest ∧
        String.ofList ((sc.redeems i).token.text.toList.take n) = token := by
  cases he with
  | changes c d _ hd =>
    rcases Change.holds hd h with hold | ⟨text, htext, htrim⟩
    · exact .inl hold
    · exact .inr (.inl ⟨c, text, rfl, htext, htrim⟩)
  | turns i acc rest _ hi _ hturn =>
    cases hturn with
    | moves p p' d _ hopens _ hon hmove =>
      rcases part_of_move hon hmove h with hold | ⟨n, hpart⟩
      · exact .inl hold
      · exact .inr (.inr ⟨i, n, rfl, hopens, hpart⟩)
    | _ => exact .inl h
  | _ => exact .inl h

/-- **Whatever stands in the directory was issued.** -/
theorem issued_of_holds {name : String} (h : Holds (sc.site.run as).disk name token) :
    Issued sc as token := by
  obtain ⟨before, a, after, hsplit, hno, s', hs, hyes⟩ := Machine.exists_turn (M := sc.site)
    (P := fun s => Holds s.disk name token) (fun ⟨_, hget, _⟩ => by cases hget) h
  rcases part_of_effect (effect_of_step (staged_run before) hs) hyes with
    hold | ⟨c, text, rfl, htext, htrim⟩ | ⟨i, n, rfl, hopens, hpart⟩
  · exact absurd hold hno
  · exact .written c text (hsplit ▸ List.mem_append_right _ List.mem_cons_self) htext htrim
  · obtain ⟨row, hrow, hserves, hnone, _⟩ := consume_of_opens hopens
    obtain ⟨c, hc, hcode, hname⟩ := created_of_codes sc hrow
    exact .redeemed i n before after hsplit
      ⟨⟨row, hrow, hserves, hnone⟩, c, hc, hcode, hname.trans hserves.1⟩ hpart

/-! ## 2. Who is let in -/

/-- The look-up has read the token. -/
def Lookup.Found (l : Lookup) : Prop :=
  (∃ todo, l = .scanning (.reading todo true)) ∨ l.verdict = some true

omit [DecidableEq ι] [DecidableEq κ] [Sha256] in
/-- **A look-up finds its token by reading a file that holds it.** -/
theorem found_of_step {l : Lookup} (hl : LookupStep sc q s a l) (hno : ¬ (s.lookups q).Found)
    (h : l.Found) : a = .read q ∧ ∃ token name, (sc.asks q).presented = some token ∧ token ≠ "" ∧
      Holds s.disk name token := by
  cases hl with
  | stays _ _ _ => exact absurd h hno
  | crashes =>
    refine absurd ?_ hno
    cases hs : s.lookups q with
    | done authorized response =>
      rw [hs] at h
      exact h
    | _ =>
      rw [hs] at h
      rcases h with ⟨_, h⟩ | h <;> cases h
  | lists names _ _ =>
    rcases h with ⟨_, h⟩ | h <;> split at h <;> cases h
  | loses todo matched hscan => rcases h with ⟨_, h⟩ | h <;> cases h
  | serves env authorized hscan =>
    refine absurd (.inr ?_) hno
    rw [hscan]
    rcases h with ⟨_, h⟩ | h
    · cases h
    · exact h
  | reads scan token hscan htoken =>
    refine ⟨rfl, token, ?_⟩
    cases scan with
    | answered authorized =>
      refine absurd ?_ hno
      rw [hscan]
      exact h
    | reading todo matched =>
      have hunmatched : matched = false := by
        cases matched with
        | false => rfl
        | true => exact absurd (.inl ⟨todo, hscan⟩) hno
      rw [hunmatched] at h
      cases todo with
      | nil => rcases h with ⟨_, h⟩ | h <;> cases h
      | cons e todo =>
        rw [Scan.step] at h
        cases hentry : Scan.entry token s.disk e false with
        | none =>
          rw [hentry] at h
          rcases h with ⟨_, h⟩ | h <;> cases h
        | some matched' =>
          rw [hentry] at h
          have hmatched : matched' = true := by
            rcases h with ⟨_, h⟩ | h <;> cases h
            rfl
          rcases (Scan.entry_eq_some.mp hentry).2.mp hmatched with h | ⟨hne, _, text, hread, htrim⟩
          · cases h
          · exact ⟨e.1, htoken, hne, Holds.of_read hread htrim⟩

/-- **A request that is let in** has read its token in a file. -/
theorem found_of_verdict (h : ((sc.site.run as).lookups q).verdict = some true) :
    ∃ token name before after, (sc.asks q).presented = some token ∧ token ≠ "" ∧
      as = before ++ .read q :: after ∧ Holds (sc.site.run before).disk name token := by
  obtain ⟨before, a, after, hsplit, hno, s', hs, hyes⟩ := Machine.exists_turn (M := sc.site)
    (P := fun s => (s.lookups q).Found) (by rintro (⟨_, h⟩ | h) <;> cases h) (.inr h)
  obtain ⟨rfl, token, name, hpresented, hne, hholds⟩ :=
    found_of_step (lookupStep_of_step hs q) hno hyes
  exact ⟨token, name, before, after, hpresented, hne, hsplit, hholds⟩

/-! ## 3. What is done for a request -/

/-- **The tables of the events change for a request that is let in**, and for nothing else. -/
theorem served_of_step (hs : sc.step s a = some s') (h : s'.db ≠ s.db) :
    ∃ q env, a = .serve q env ∧ (s.lookups q).verdict = some true := by
  cases a with
  | serve q env =>
    rw [Scenario.step] at hs
    split at hs
    · rename_i authorized hscan
      cases hs
      refine ⟨q, env, rfl, ?_⟩
      rw [hscan]
      cases authorized with
      | true => rfl
      | false =>
        have hdenied : ({ env with authorized := false } : Handling).authorized = false := rfl
        exact absurd (congrArg Prod.snd
          ((sc.asks q).respond_unauthorized sc.store hdenied s.db)) h
    · cases hs
  | list q names =>
    rw [Scenario.step] at hs
    split at hs
    · split at hs
      · cases hs
        exact absurd rfl h
      · cases hs
    · cases hs
  | read q =>
    rw [Scenario.step] at hs
    split at hs
    · cases hs
      exact absurd rfl h
    · cases hs
  | lose q =>
    rw [Scenario.step] at hs
    split at hs
    · cases hs
      exact absurd rfl h
    · cases hs
  | crash =>
    cases hs
    exact absurd rfl h
  | operator c =>
    rw [Scenario.step] at hs
    split at hs
    · cases hs
    · obtain ⟨d, _, rfl⟩ := Option.map_eq_some_iff.mp hs
      exact absurd rfl h
  | enroll i =>
    obtain ⟨st, _, rfl⟩ := Option.map_eq_some_iff.mp hs
    exact absurd rfl h
  | next i =>
    obtain ⟨st, _, rfl⟩ := Option.map_eq_some_iff.mp hs
    exact absurd rfl h
  | fail i =>
    obtain ⟨st, _, rfl⟩ := Option.map_eq_some_iff.mp hs
    exact absurd rfl h
  | create c =>
    obtain ⟨st, _, rfl⟩ := Option.map_eq_some_iff.mp hs
    exact absurd rfl h

/-- What is answered to a request that is not let in. -/
theorem refused_response {response : Response}
    (h : (sc.site.run as).lookups q = .done false response) : response = unauthorized := by
  obtain ⟨before, a, after, _, hno, s', hs, hyes⟩ := Machine.exists_turn (M := sc.site)
    (P := fun s => s.lookups q = .done false response) (fun h => by cases h) h
  have hl := lookupStep_of_step hs q
  rw [hyes] at hl
  generalize hlookup : Lookup.done false response = l at hl
  cases hl with
  | stays _ _ _ => exact absurd hlookup.symm hno
  | crashes =>
    cases hbefore : (sc.site.run before).lookups q with
    | done authorized answer =>
      rw [hbefore] at hlookup hno
      exact absurd hlookup.symm hno
    | _ =>
      rw [hbefore] at hlookup
      cases hlookup
  | serves env authorized _ =>
    obtain ⟨rfl, rfl⟩ := Lookup.done.inj hlookup
    have hdenied : ({ env with authorized := false } : Handling).authorized = false := rfl
    exact congrArg Prod.fst ((sc.asks q).respond_unauthorized sc.store hdenied _)
  | lists _ _ _ => cases hlookup
  | reads _ _ _ _ => cases hlookup
  | loses _ _ _ => cases hlookup

/-- **Nobody gets anything without a token that was issued.** In every run of redemptions, look-ups,
    changes by the operator, failing statements and crashes, a request that is let in has presented a
    token, not empty, that it read in a file of the directory; and the operator had written this
    token there, or a redemption had written it as a part of its own, with a code in the table that
    was created for its name, not consumed and not expired. Only for a request that is let in do the
    tables of the events change, and any other that is answered is answered 401. -/
theorem access_of_run (sc : Scenario ι κ) (as : List (SiteAction ι κ)) :
    (∀ q, ((sc.site.run as).lookups q).verdict = some true →
      ∃ token name before after, (sc.asks q).presented = some token ∧ token ≠ "" ∧
        as = before ++ .read q :: after ∧ Holds (sc.site.run before).disk name token ∧
        Issued sc before token) ∧
    (∀ before a after, as = before ++ a :: after →
      (sc.site.run (before ++ [a])).db ≠ (sc.site.run before).db →
      ∃ q env, a = .serve q env ∧ ((sc.site.run before).lookups q).verdict = some true) ∧
    ∀ q response, (sc.site.run as).lookups q = .done false response → response = unauthorized := by
  refine ⟨fun q h => ?_, fun before a after _ hchange => ?_, fun q response h => refused_response h⟩
  · obtain ⟨token, name, before, after, hpresented, hne, hsplit, hholds⟩ := found_of_verdict h
    exact ⟨token, name, before, after, hpresented, hne, hsplit, hholds, issued_of_holds hholds⟩
  · rw [Machine.run_snoc] at hchange
    cases hs : sc.step (sc.site.run before) a with
    | none =>
      rw [Machine.act_of_none (M := sc.site) hs] at hchange
      exact absurd rfl hchange
    | some s' =>
      rw [Machine.act_of_step (M := sc.site) hs] at hchange
      exact served_of_step hs hchange

end Access

namespace Sample

/-- The sample, with a request that presents the first three characters of the token. -/
def partScenario : Scenario Unit Unit :=
  { scenario with
    asks := fun _ => ⟨some ("Bearer " ++ String.ofList (token.text.toList.take 3)),
      .alerts ⟨none, 100⟩⟩ }

end Sample

-- A part of a token is enough while it is written: three of its characters stand in the temporary
-- file, and who presents them is let in, before anyone has been given the token.
example :
    let s := (@Scenario.site Unit Unit _ _ Sample.hashing Sample.expiryFormats
      Sample.partScenario).run (.create Sample.creation :: .enroll () ::
        List.replicate 10 (.next ()) ++ [.list () [Sample.enrollment.draft], .read (), .read ()])
    (s.lookups ()).verdict = some true ∧ Sample.answer s.redemptions = none :=
  ⟨by decide +kernel, by decide +kernel⟩

end Beacon
