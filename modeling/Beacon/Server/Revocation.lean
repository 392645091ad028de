/-
  File:      Beacon/Server/Revocation.lean
  Subject:   Where a token stands, and what becomes of it when its file is changed.

  A token is accepted as long as some file of the directory holds it, under whatever name. What a
  redemption writes stands under its temporary name and, from the link on, under the credential's;
  once the temporary name is dropped there is the credential alone (`Custody`). A change of the
  credential therefore takes the last copy away, and no later step brings it back:

  * `holds_of_effect` -- **who can bring a token into the directory**: the redemption it is drawn
    for, until it has linked it;
  * `custody_run` -- **the files a token can stand in**, in every run;
  * `revocation_complete` -- a token that was returned stands in its credential until the operator
    changes it, and is refused from then on.
-/
import Beacon.Server.Lookups

namespace Beacon

open Foundation
open Snapshot (Access)
open Sessions (Call)

/-! ## 1. Changes of files -/

/-- The text an operator writes. -/
def Change.text : Change → Option String
  | .replace _ (.file text) => text
  | .replace _ (.other _) => none
  | .overwrite _ text => text
  | .remove _ => none

section Changes

variable {c : Change} {d d' : Links} {name token : String}

/-- What a file holds after a change it held before, or the operator wrote it. -/
theorem Change.holds (hd : c.apply d = some d') (h : Holds d' name token) :
    Holds d name token ∨ ∃ text, c.text = some text ∧ Text.trim text = token := by
  obtain ⟨text, hget, htrim⟩ := h
  cases c with
  | replace n node =>
    cases hd
    rw [Links.get?_put] at hget
    split at hget
    · cases hget
      exact .inr ⟨text, rfl, htrim⟩
    · exact .inl ⟨text, hget, htrim⟩
  | overwrite n new =>
    cases hd
    rcases Links.get?_overwrite_cases d n new name with e | e
    · exact .inl ⟨text, e.symm.trans hget, htrim⟩
    · rw [e] at hget
      cases hget
      exact .inr ⟨text, rfl, htrim⟩
  | remove n =>
    rw [Links.get?_unlink hd] at hget
    split at hget
    · cases hget
    · exact .inl ⟨text, hget, htrim⟩

/-- The changed file holds what the operator wrote, if anything. -/
theorem Change.holds_self (hd : c.apply d = some d') (h : Holds d' c.name token) :
    ∃ text, c.text = some text ∧ Text.trim text = token := by
  obtain ⟨text, hget, htrim⟩ := h
  cases c with
  | replace n node =>
    cases hd
    have hself := ((Links.get?_put node n).symm.trans hget).symm.trans (if_pos rfl)
    cases hself
    exact ⟨text, rfl, htrim⟩
  | overwrite n new =>
    cases hd
    have hself := (Links.get?_overwrite_self d n new).symm.trans hget
    split at hself
    · cases hself
      exact ⟨text, rfl, htrim⟩
    · rename_i hfile
      rw [hself] at hfile
      exact absurd rfl hfile
  | remove n =>
    have hself := ((Links.get?_unlink hd n).symm.trans hget).symm.trans (if_pos rfl)
    cases hself

end Changes

/-! ## 2. Who brings a token into the directory -/

section Custody

variable {ι κ : Type} [DecidableEq ι] [Sha256] [Formats] {sc : Scenario ι κ}
  {st st' : Sessions.State ι Enrollments Links String String} {a : SiteAction ι κ} {i : ι}

variable (sc) in
/-- No two redemptions are drawn one token. -/
def Distinct : Prop := ∀ i j, (sc.redeems i).token.text = (sc.redeems j).token.text → i = j

variable (sc) in
/-- An operator writes no token that is drawn for a redemption. -/
def Foreign (a : SiteAction ι κ) : Prop :=
  ∀ c text i, a = .operator c → c.text = some text → Text.trim text ≠ (sc.redeems i).token.text

/-- The temporary name is dropped. -/
def Cleaned (sc : Scenario ι κ) (st : Sessions.State ι Enrollments Links String String) (i : ι) :
    Prop := ReachedAt (fun rest => rest = Progress.commit.rest (sc.redeems i)) st i

/-- The token is linked, or the redemption has ended. -/
def Past (sc : Scenario ι κ) (st : Sessions.State ι Enrollments Links String String) (i : ι) :
    Prop :=
  (∃ acc rest, st.calls i = .active acc rest ∧ (sc.redeems i).Linked rest) ∨
    ∃ r, st.calls i = .done r

omit [DecidableEq ι] [Sha256] [Formats] in
/-- A part of a token that counts for a token is all of it. -/
theorem token_of_text {r : EnrollmentRequest} {p : Progress} {text : String}
    (hp : p.text r = some text) {id : Uuid} (h : Text.trim text = id.text) :
    r.token.text = id.text := by
  have hline : Text.trim (String.ofList (r.token.text.toList ++ ['\n'])) = id.text →
      r.token.text = id.text := fun h => (trim_line r.token).symm.trans h
  cases p with
  | permit =>
    cases hp
    exact absurd h.symm id.text_ne
  | fill n =>
    cases hp
    rw [trim_written] at h
    have hlen := congrArg (fun s => s.toList.length) h
    simp only [String.toList_ofList, List.length_take, r.token.length, id.length] at hlen
    rw [← h, List.take_of_length_le (by rw [r.token.length]; omega), String.ofList_toList]
  | sync =>
    cases hp
    exact hline h
  | link =>
    cases hp
    exact hline h
  | _ => cases hp

omit [DecidableEq ι] [Sha256] [Formats] in
/-- What a statement of a redemption brings into the directory is its own token. -/
theorem holds_of_move {r : EnrollmentRequest} {p p' : Progress} {d d' : Links}
    (hon : p.On r d) (hmove : Move r p d p' d') {name : String} {id : Uuid}
    (h : Holds d' name id.text) : Holds d name id.text ∨
      (r.token.text = id.text ∧ ¬ (p = .clean ∨ p = .commit) ∧
        (name = r.credential ∨ name = r.draft ∧ p' ≠ .commit)) := by
  obtain ⟨text, hget, htrim⟩ := h
  have hon' := on_of_move hmove hon
  -- the temporary file holds what its phase says; every other name reads what it read
  have hdraft : ∀ {content : String}, p'.text r = some content → name = r.draft →
      r.token.text = id.text := by
    intro content hcontent hname
    rw [hname, (hon' content hcontent).1] at hget
    cases hget
    exact token_of_text hcontent htrim
  cases hmove with
  | create hnew =>
    by_cases hname : name = r.draft
    · exact .inr ⟨hdraft rfl hname, by simp, .inr ⟨hname, by simp⟩⟩
    · rw [Links.get?_createNew hnew, if_neg hname] at hget
      exact .inl ⟨text, hget, htrim⟩
  | fill _ =>
    by_cases hname : name = r.draft
    · exact .inr ⟨hdraft rfl hname, by simp, .inr ⟨hname, by simp⟩⟩
    · rw [Links.get?_append_ne _ fun k hk hk' => hname ((hon _ rfl).2 name k hk hk')] at hget
      exact .inl ⟨text, hget, htrim⟩
  | line _ =>
    by_cases hname : name = r.draft
    · exact .inr ⟨hdraft rfl hname, by simp, .inr ⟨hname, by simp⟩⟩
    · rw [Links.get?_append_ne _ fun k hk hk' => hname ((hon _ rfl).2 name k hk hk')] at hget
      exact .inl ⟨text, hget, htrim⟩
  | link hlink =>
    rw [Links.get?_hardLink hlink] at hget
    by_cases hname : name = r.credential
    · rw [if_pos hname, (hon _ rfl).1] at hget
      cases hget
      exact .inr ⟨token_of_text (p := .link) rfl htrim, by simp, .inl hname⟩
    · rw [if_neg hname] at hget
      exact .inl ⟨text, hget, htrim⟩
  | clean hdrop =>
    rw [Links.get?_unlink hdrop] at hget
    by_cases hname : name = r.draft
    · rw [if_pos hname] at hget
      cases hget
    · rw [if_neg hname] at hget
      exact .inl ⟨text, hget, htrim⟩
  | _ => exact .inl ⟨text, hget, htrim⟩

/-- **Only the redemption a token is drawn for brings it into the directory**, until it has linked
    it: under its temporary name, and under the name of its credential. -/
theorem holds_of_effect (hdistinct : Distinct sc) (hforeign : Foreign sc a)
    (he : Effect sc st a st') {name : String}
    (h : Holds st'.disk name (sc.redeems i).token.text) :
    Holds st.disk name (sc.redeems i).token.text ∨
      (¬ Past sc st i ∧ (name = (sc.redeems i).credential ∨
        name = (sc.redeems i).draft ∧ ¬ Cleaned sc st' i)) := by
  cases he with
  | changes c d _ hd =>
    rcases Change.holds hd h with h | ⟨text, htext, htrim⟩
    · exact .inl h
    · exact absurd htrim (hforeign c text i rfl htext)
  | turns j acc rest _ hj _ hturn =>
    cases hturn with
    | moves p p' d _ _ hi hon hmove =>
      rcases holds_of_move hon hmove h with h | ⟨htoken, hp, hname⟩
      · exact .inl h
      · obtain rfl := hdistinct j i htoken
        refine .inr ⟨?_, hname.imp_right fun ⟨hdraft, hp'⟩ => ⟨hdraft, ?_⟩⟩
        · rintro (⟨acc', rest', hcall, hlinked⟩ | ⟨r, hcall⟩)
          · cases hi.symm.trans hcall
            exact hp (linked_rest.mp hlinked)
          · cases hi.symm.trans hcall
        · have hself := Sessions.set_calls_self st j
            (.active (.writer ((sc.redeems j).consume st.latest)) (p'.rest (sc.redeems j)))
          rintro (⟨acc', rest', hcall, hcommit⟩ | ⟨token, hcall⟩)
          · cases hself.symm.trans hcall
            exact hp' (rest_eq_pure.mp hcommit)
          · cases hself.symm.trans hcall
    | _ => exact .inl h
  | _ => exact .inl h

/-- A redemption that has got past the link stays there. -/
theorem past_of_effect (he : Effect sc st a st') (h : Past sc st i) : Past sc st' i := by
  have hset : ∀ {c : Call Enrollments Links String String} {j : ι}
      {st₁ : Sessions.State ι Enrollments Links String String}, st₁.calls = (st.set j c).calls →
      (i = j → (∃ acc rest, c = .active acc rest ∧ (sc.redeems i).Linked rest) ∨ ∃ r, c = .done r) →
      Past sc st₁ i := by
    intro c j st₁ e hc
    unfold Past
    rw [e]
    by_cases hj : i = j
    · rw [← hj, Sessions.set_calls_self]
      exact hc hj
    · rw [Sessions.set_calls_ne st c hj]
      exact h
  cases he with
  | enrolls j hj =>
    refine hset rfl fun e => ?_
    rcases h with ⟨acc, rest, hcall, _⟩ | ⟨r, hcall⟩ <;> rw [e] at hcall <;>
      cases hj.symm.trans hcall
  | turns j acc rest _ hj _ hturn =>
    cases hturn with
    | opens old acc text rest lock hi hbefore _ _ =>
      refine hset rfl fun e => ?_
      rcases h with ⟨acc, rest, hcall, hlinked⟩ | ⟨r, hcall⟩ <;> rw [e] at hcall <;>
        cases hi.symm.trans hcall
      rw [e] at hlinked
      exact absurd hlinked hbefore
    | moves p p' d _ _ hi _ hmove =>
      refine hset rfl fun e => .inl ⟨_, _, rfl, ?_⟩
      rcases h with ⟨acc, rest, hcall, hlinked⟩ | ⟨r, hcall⟩ <;> rw [e] at hcall <;>
        cases hi.symm.trans hcall
      rw [e] at hlinked ⊢
      rcases linked_rest.mp hlinked with rfl | rfl
      · cases hmove with
        | clean _ => exact .inr rfl
      · cases hmove
    | commits _ _ => exact hset rfl fun _ => .inr ⟨_, rfl⟩
    | refuses e => exact hset rfl fun _ => .inr ⟨_, rfl⟩
  | fails j acc rest hj => exact hset rfl fun _ => .inr ⟨_, rfl⟩
  | crashes =>
    right
    simp only [Sessions.State.crash]
    split
    · exact ⟨_, rfl⟩
    · rename_i hno
      rcases h with ⟨acc, rest, hcall, _⟩ | ⟨r, hcall⟩
      · exact absurd hcall (hno acc rest)
      · exact ⟨r, hcall⟩
  | _ => exact h

theorem changed_of_effect {c : Change} (he : Effect sc st (.operator c) st') :
    Directory.extension c.name ≠ some "tmp" ∧ c.apply st.disk = some st'.disk := by
  cases he with
  | changes _ d hname hd => exact ⟨hname, hd⟩

/-- **The files a token can stand in**: its credential, and the temporary file until that is
    dropped. No two files of the operator share a node. -/
structure Custody (sc : Scenario ι κ) (st : Sessions.State ι Enrollments Links String String) :
    Prop where
  holder : ∀ i name, Holds st.disk name (sc.redeems i).token.text →
    name = (sc.redeems i).credential ∨ name = (sc.redeems i).draft ∧ ¬ Cleaned sc st i
  apart : Links.Apart (fun name => Directory.extension name ≠ some "tmp") st.disk

omit [DecidableEq ι] [Sha256] [Formats] in
theorem apart_of_move {r : EnrollmentRequest} {p p' : Progress} {d d' : Links}
    (hon : p.On r d) (hmove : Move r p d p' d')
    (h : Links.Apart (fun name => Directory.extension name ≠ some "tmp") d) :
    Links.Apart (fun name => Directory.extension name ≠ some "tmp") d' := by
  have happend : ∀ c, Links.Apart (fun name => Directory.extension name ≠ some "tmp")
      (d.append r.draft c) := by
    intro c m n k hm hn hmk hnk
    rw [Links.node?_append] at hmk hnk
    exact h m n k hm hn hmk hnk
  cases hmove with
  | create hnew => exact Links.apart_of_renews h (Links.renews_createNew hnew)
  | fill _ => exact happend _
  | line _ => exact happend _
  | clean hdrop => exact Links.apart_of_renews h (Links.renews_unlink hdrop)
  | link hlink =>
    obtain ⟨_, _, k, hk, hnode⟩ := Links.hardLink_eq_some hlink
    -- the node of the temporary file has no other name of the operator
    have hnone : ∀ n, Directory.extension n ≠ some "tmp" → d.node? n ≠ some k := by
      intro n hn hnk
      rw [(hon _ rfl).2 n k hk hnk] at hn
      exact hn (extension_temporaryName _)
    intro m n l hm hn hml hnl
    rw [hnode] at hml hnl
    split at hml <;> split at hnl
    · rename_i em en
      rw [em, en]
    · cases hml
      exact absurd hnl (hnone n hn)
    · cases hnl
      exact absurd hml (hnone m hm)
    · exact h m n l hm hn hml hnl
  | _ => exact h

/-- **Every action keeps the tokens where they may stand.** -/
theorem custody_effect (hdistinct : Distinct sc) (hforeign : Foreign sc a)
    (h : Custody sc st) (he : Effect sc st a st') : Custody sc st' := by
  refine ⟨fun i name hholds => ?_, ?_⟩
  · rcases holds_of_effect hdistinct hforeign he hholds with hold | ⟨_, hnew⟩
    · refine (h.holder i name hold).imp_right fun ⟨hname, hnot⟩ => ⟨hname, fun hclean => ?_⟩
      -- the step that makes the redemption clean drops the temporary name
      obtain ⟨_, _, p, p', _, _, hrest, hmove⟩ :=
        reached_of_effect he (fun rest e => .inr e) rfl hnot hclean
      obtain rfl := rest_eq_pure.mp hrest
      cases hmove with
      | clean hdrop =>
        obtain ⟨text, hget, _⟩ := hholds
        rw [hname, Links.get?_unlink hdrop, if_pos rfl] at hget
        cases hget
    · exact hnew
  · cases he with
    | changes c d _ hd => exact Links.apart_of_renews h.apart (Change.renews hd)
    | turns j acc rest _ _ _ hturn =>
      cases hturn with
      | moves p p' d _ _ _ hon hmove => exact apart_of_move hon hmove h.apart
      | _ => exact h.apart
    | _ => exact h.apart

end Custody

/-! ## 3. Tokens over runs -/

theorem mem_of_split {α : Type} {l before after : List α} {a b : α} (e : l = before ++ a :: after)
    (h : b ∈ after) : b ∈ l := by
  rw [e]
  exact List.mem_append_right _ (List.mem_cons_of_mem _ h)

section Runs

variable {ι κ : Type} [DecidableEq ι] [DecidableEq κ] [Sha256] [Formats] {sc : Scenario ι κ}
  {s : Site ι κ} {i : ι}

/-- The redemptions are at their stages, and the tokens where they may stand. -/
structure Guarded (sc : Scenario ι κ) (s : Site ι κ) : Prop where
  staged : Staged sc s.redemptions
  custody : Custody sc s.redemptions

theorem guarded_step {s' : Site ι κ} {a : SiteAction ι κ} (hdistinct : Distinct sc)
    (h : Guarded sc s) (hforeign : Foreign sc a) (hs : sc.step s a = some s') : Guarded sc s' := by
  have he := effect_of_step h.staged hs
  exact ⟨staged_effect h.staged he, custody_effect hdistinct hforeign h.custody he⟩

theorem guarded_later (hdistinct : Distinct sc) (h : Guarded sc s) {bs : List (SiteAction ι κ)}
    (hforeign : ∀ a ∈ bs, Foreign sc a) : Guarded sc (sc.site.runFrom s bs) :=
  Machine.runFrom_invariant_along (M := sc.site) (I := Guarded sc) (P := fun _ a => Foreign sc a)
    (fun _ _ _ h hP hs => guarded_step hdistinct h hP hs) h (Machine.along_of_mem hforeign)

/-- **In every run the tokens stand where they may.** -/
theorem guarded_run (hdistinct : Distinct sc) {as : List (SiteAction ι κ)}
    (hforeign : ∀ a ∈ as, Foreign sc a) : Guarded sc (sc.site.run as) := by
  refine guarded_later hdistinct ⟨staged_init, fun i name h => ?_, Links.apart_empty _⟩ hforeign
  obtain ⟨_, h, _⟩ := h
  cases h

theorem past_later (h : Staged sc s.redemptions) (hpast : Past sc s.redemptions i)
    (bs : List (SiteAction ι κ)) : Past sc (sc.site.runFrom s bs).redemptions i := by
  have key := Machine.runFrom_invariant (M := sc.site)
    (I := fun s => Staged sc s.redemptions ∧ Past sc s.redemptions i)
    (fun s a s' h hs => ?_) ⟨h, hpast⟩ bs
  · exact key.2
  · have he := effect_of_step h.1 hs
    exact ⟨staged_effect h.1 he, past_of_effect he h.2⟩

/-- **A token whose redemption has got past the link comes back nowhere.** -/
theorem absent_step {s' : Site ι κ} {a : SiteAction ι κ} (hdistinct : Distinct sc)
    (h : Staged sc s.redemptions) (hforeign : Foreign sc a) (hpast : Past sc s.redemptions i)
    {name : String} (hno : ¬ Holds s.disk name (sc.redeems i).token.text)
    (hs : sc.site.step s a = some s') : ¬ Holds s'.disk name (sc.redeems i).token.text := by
  intro hholds
  rcases holds_of_effect hdistinct hforeign (effect_of_step h hs) hholds with hold | ⟨hnot, _⟩
  · exact hno hold
  · exact hnot hpast

theorem absent_later (hdistinct : Distinct sc) (h : Staged sc s.redemptions)
    {bs : List (SiteAction ι κ)} (hforeign : ∀ a ∈ bs, Foreign sc a)
    (hpast : Past sc s.redemptions i) {name : String}
    (hno : ¬ Holds s.disk name (sc.redeems i).token.text) :
    ¬ Holds (sc.site.runFrom s bs).disk name (sc.redeems i).token.text := by
  have key := Machine.runFrom_invariant_along (M := sc.site)
    (I := fun s => Staged sc s.redemptions ∧ Past sc s.redemptions i ∧
      ¬ Holds s.disk name (sc.redeems i).token.text) (P := fun _ a => Foreign sc a)
    (fun s a s' h hP hs => ?_) ⟨h, hpast, hno⟩ (Machine.along_of_mem hforeign)
  · exact key.2.2
  · have he := effect_of_step h.1 hs
    exact ⟨staged_effect h.1 he, past_of_effect he h.2.1,
      absent_step hdistinct h.1 hP h.2.1 h.2.2 hs⟩

/-- A credential stays until the operator changes it. -/
theorem stands_later (hdistinct : Distinct sc) (h : Guarded sc s) {bs : List (SiteAction ι κ)}
    (hforeign : ∀ a ∈ bs, Foreign sc a) {name : String} {node : Node}
    (hname : Directory.extension name ≠ some "tmp") (hget : s.disk.get? name = some node)
    (hleft : ∀ c, .operator c ∈ bs → c.name ≠ name) :
    (sc.site.runFrom s bs).disk.get? name = some node := by
  have hbs : ∀ a ∈ bs, Foreign sc a ∧ ∀ c, a = .operator c → c.name ≠ name := fun a ha =>
    ⟨hforeign a ha, fun c e => hleft c (e ▸ ha)⟩
  have key := Machine.runFrom_invariant_along (M := sc.site)
    (I := fun s => Guarded sc s ∧ s.disk.get? name = some node)
    (P := fun _ a => Foreign sc a ∧ ∀ c, a = .operator c → c.name ≠ name)
    (fun s a s' h hP hs => ?_) ⟨h, hget⟩ (Machine.along_of_mem hbs)
  · exact key.2
  · have he := effect_of_step h.1.staged hs
    refine ⟨guarded_step hdistinct h.1 hP.1 hs, ?_⟩
    by_cases hoperator : ∃ c, a = .operator c
    · obtain ⟨c, rfl⟩ := hoperator
      obtain ⟨hcname, hd⟩ := changed_of_effect he
      have hne : c.name ≠ name := hP.2 c rfl
      -- the changed file shares no node with the credential
      rw [Change.get?_ne hd hne.symm fun k hk hk' =>
        hne (h.1.custody.apart _ _ k hcname hname hk hk')]
      exact h.2
    · exact kept_of_effect he (fun c e => hoperator ⟨c, e⟩) hname h.2

/-- **A change takes the token out of the changed file.** -/
theorem absent_of_operator (h : Staged sc s.redemptions) {c : Change} (hforeign : Foreign sc (.operator c))
    (hname : Directory.extension c.name ≠ some "tmp") :
    ¬ Holds (sc.site.act s (.operator c)).disk c.name (sc.redeems i).token.text := by
  intro hholds
  cases hs : sc.site.step s (.operator c) with
  | some s' =>
    rw [Machine.act_of_step hs] at hholds
    obtain ⟨_, hd⟩ := changed_of_effect (effect_of_step h hs)
    obtain ⟨text, htext, htrim⟩ := Change.holds_self hd hholds
    exact hforeign c text i rfl htext htrim
  | none =>
    -- what cannot be changed is not there
    rw [Machine.act_of_none hs] at hholds
    obtain ⟨text, hget, _⟩ := hholds
    change sc.step s (.operator c) = none at hs
    rw [Scenario.step, if_neg hname, Option.map_eq_none_iff] at hs
    cases c with
    | replace n node => cases hs
    | overwrite n text => cases hs
    | remove n =>
      have hnone : s.disk.node? n = none := Option.map_eq_none_iff.mp hs
      cases (Links.get?_eq_none.mpr hnone).symm.trans hget

/-- **A request with a token no file holds is turned away**, as long as none holds it. -/
theorem turnedAway_later {q : κ} {token : String} (hpresented : (sc.asks q).presented = some token)
    (hdenied : (s.lookups q).Denied) {bs : List (SiteAction ι κ)}
    (hno : sc.site.Along (fun s _ => token ≠ "" → ∀ name, ¬ Holds s.disk name token) s bs) :
    TurnedAway sc q (sc.site.runFrom s bs) :=
  turnedAway_of_denied (Machine.runFrom_invariant_along (M := sc.site)
    (I := fun s => (s.lookups q).Denied)
    (fun _ _ _ h hP hs => denied_step h hpresented hP (lookupStep_of_step hs q)) hdenied hno)

omit [DecidableEq ι] [DecidableEq κ] in
/-- A token that is returned and whose credential does not hold it stands nowhere. -/
theorem nowhere {token : String} (h : Guarded sc s) (hreturned : Returned s.redemptions i token)
    (hno : ¬ Holds s.disk (sc.redeems i).credential (sc.redeems i).token.text) (name : String) :
    ¬ Holds s.disk name (sc.redeems i).token.text := by
  intro hholds
  rcases h.custody.holder i name hholds with rfl | ⟨_, hnot⟩
  · exact hno hholds
  · exact hnot (.inr ⟨token, hreturned⟩)

/-- **Who presents a token that stands nowhere is turned away from then on.** -/
theorem turnedAway_of_nowhere (hdistinct : Distinct sc) (h : Staged sc s.redemptions)
    (hpast : Past sc s.redemptions i)
    (hno : ∀ name, ¬ Holds s.disk name (sc.redeems i).token.text) {bs : List (SiteAction ι κ)}
    (hforeign : ∀ a ∈ bs, Foreign sc a) {q : κ} (hwaiting : s.lookups q = .waiting)
    (hpresented : (sc.asks q).presented = some (sc.redeems i).token.text) :
    TurnedAway sc q (sc.site.runFrom s bs) := by
  have hbs : sc.site.Along (fun _ a => Foreign sc a) s bs := Machine.along_of_mem hforeign
  refine turnedAway_later hpresented (.inl hwaiting) (hbs.of_invariant
    (I := fun s : Site ι κ => Staged sc s.redemptions ∧ Past sc s.redemptions i ∧
      ∀ name, ¬ Holds s.disk name (sc.redeems i).token.text)
    (fun s a s' h hP hs => ?_) (fun s a h _ _ => h.2.2) ⟨h, hpast, hno⟩)
  have he := effect_of_step h.1 hs
  exact ⟨staged_effect h.1 he, past_of_effect he h.2.1, fun name =>
    absent_step hdistinct h.1 hP h.2.1 (h.2.2 name) hs⟩

/-- **Revocation is complete, in every run**: a token that a redemption has returned stands in the
    credential of its agent and in no other file until the operator changes that credential; from
    then on no file holds it, and every request that comes later and presents it is turned away.
    The empty token is never accepted. -/
theorem revocation_complete (hdistinct : Distinct sc) (as : List (SiteAction ι κ))
    (hforeign : ∀ a ∈ as, Foreign sc a) :
    (∀ i token, Returned (sc.site.run as).redemptions i token →
      -- the step that installs the credential
      ∃ before after, as = before ++ .next i :: after ∧
        (sc.site.run before).disk.get? (sc.redeems i).credential = none ∧
        (sc.site.run (before ++ [.next i])).disk.get? (sc.redeems i).credential =
          some (.file (some (token ++ "\n"))) ∧
        ((∀ c, .operator c ∈ after → c.name ≠ (sc.redeems i).credential) →
          ∀ name, Holds (sc.site.run as).disk name token ↔ name = (sc.redeems i).credential) ∧
        ∀ c, .operator c ∈ after → c.name = (sc.redeems i).credential →
          (∀ name, ¬ Holds (sc.site.run as).disk name token) ∧
          ∀ bs, (∀ a ∈ bs, Foreign sc a) → ∀ q, (sc.site.run as).lookups q = .waiting →
            (sc.asks q).presented = some token → TurnedAway sc q (sc.site.run (as ++ bs))) ∧
    ∀ q, (sc.asks q).presented = some "" → TurnedAway sc q (sc.site.run as) := by
  refine ⟨fun i token hreturned => ?_, fun q hpresented => ?_⟩
  · have hguarded := guarded_run hdistinct hforeign
    obtain rfl := hguarded.staged.token i token hreturned
    obtain ⟨before, a, after, e, hunlinked, s', hs, hlinked⟩ := Machine.exists_turn (M := sc.site)
      (P := fun s => ReachedAt (sc.redeems i).Linked s.redemptions i)
      (by rintro (⟨_, _, h, _⟩ | ⟨_, h⟩) <;> cases h) (.inr ⟨_, hreturned⟩)
    obtain ⟨hrun, he⟩ := step_of_run hs
    obtain ⟨rfl, hvalid, hfree, hfile⟩ := linked_of_effect he hunlinked hlinked
    have hext : Directory.extension (sc.redeems i).credential ≠ some "tmp" := by
      rw [EnrollmentRequest.credential, extension_credentialName (name_ne_of_valid hvalid)]
      decide
    have hafter : ∀ a ∈ after, Foreign sc a := fun a ha => hforeign a (mem_of_split e ha)
    have hbefore : ∀ a ∈ before ++ [.next i], Foreign sc a := fun a ha =>
      hforeign a (by
        rw [e, ← List.singleton_append, ← List.append_assoc]
        exact List.mem_append_left _ ha)
    have hinstalled : Guarded sc s' := hrun ▸ guarded_run hdistinct hbefore
    have hend : sc.site.run as = sc.site.runFrom s' after := by
      rw [e, ← List.singleton_append, ← List.append_assoc, Machine.run_append, hrun]
    refine ⟨before, after, e, hfree, by rw [hrun]; exact hfile, fun hleft name => ?_,
      fun c hc hname => ?_⟩
    · have hstands : (sc.site.run as).disk.get? (sc.redeems i).credential =
          some (.file (some ((sc.redeems i).token.text ++ "\n"))) := by
        rw [hend]
        exact stands_later hdistinct hinstalled hafter hext hfile hleft
      constructor
      · intro hholds
        rcases hguarded.custody.holder i name hholds with hname | ⟨_, hnot⟩
        · exact hname
        · exact absurd (.inr ⟨_, hreturned⟩) hnot
      · rintro rfl
        refine ⟨_, hstands, ?_⟩
        have htrim := trim_line (sc.redeems i).token
        rwa [String.ofList_append, String.ofList_toList] at htrim
    · -- the change takes the token out of the credential, and nothing puts it back
      obtain ⟨first, last, rfl⟩ := List.append_of_mem hc
      have hlast : ∀ a ∈ last, Foreign sc a := fun a ha =>
        hafter a (List.mem_append_right _ (List.mem_cons_of_mem _ ha))
      have hpast : Past sc s'.redemptions i := hlinked.imp_right fun h => h.elim fun _ h => ⟨_, h⟩
      have hmid := guarded_later hdistinct hinstalled fun a ha =>
        hafter a (List.mem_append_left _ ha)
      have hchanged : Guarded sc (sc.site.runFrom (sc.site.runFrom s' first) [.operator c]) :=
        guarded_later hdistinct hmid fun a ha => hafter a (by rw [List.mem_singleton.mp ha]; exact hc)
      have hpast' := past_later hmid.staged (past_later hinstalled.staged hpast first)
        [.operator c]
      have hgone := absent_of_operator (i := i) hmid.staged (hafter _ hc) (hname ▸ hext)
      rw [hname] at hgone
      have hno : ¬ Holds (sc.site.run as).disk (sc.redeems i).credential
          (sc.redeems i).token.text := by
        rw [hend, Machine.runFrom_append]
        exact absent_later hdistinct hchanged.staged hlast hpast' hgone
      have hnowhere := nowhere hguarded hreturned hno
      refine ⟨hnowhere, fun bs hbs q hwaiting hpresented => ?_⟩
      rw [Machine.run_append]
      exact turnedAway_of_nowhere hdistinct hguarded.staged (.inr ⟨_, hreturned⟩) hnowhere hbs
        hwaiting hpresented
  · exact turnedAway_later hpresented (.inl rfl)
      (Machine.along_of_prefixes fun _ _ _ _ hne => absurd rfl hne)

end Runs

/-! ## 4. The sample -/

namespace Sample

theorem not_operator {c : Change} : .operator c ∉ redeemed := by
  simp [redeemed]

theorem foreign_redeemed : ∀ a ∈ redeemed, Foreign scenario a := by
  rintro a ha c text i rfl
  exact absurd ha not_operator

/-- The credential is removed, and the agent asks again. -/
example : ((site.run (redeemed ++ [.operator (.remove "media.token"), .list () [], .read ()])).lookups
    ()).verdict = some false := by decide +kernel

end Sample

/-- The token of the sample stands in `media.token`, and in no other file. -/
theorem revocation_complete_media :
    Holds (Sample.site.run Sample.redeemed).disk Sample.enrollment.credential Sample.token.text ∧
      ¬ Holds (Sample.site.run Sample.redeemed).disk Sample.enrollment.draft
        Sample.token.text := by
  obtain ⟨before, after, e, _, _, hstands, _⟩ := (@revocation_complete Unit Unit _ _ Sample.hashing
    Sample.expiryFormats Sample.scenario (fun _ _ _ => rfl) Sample.redeemed
    Sample.foreign_redeemed).1 () _ Sample.returned_redeemed
  have hholds := hstands fun c hc => absurd (mem_of_split e hc) Sample.not_operator
  unfold Sample.site
  exact ⟨(hholds _).mpr rfl, fun h => draft_ne_credential Sample.enrollment
    (by decide) ((hholds _).mp h)⟩

end Beacon
