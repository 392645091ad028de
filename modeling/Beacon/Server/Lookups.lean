/-
  File:      Beacon/Server/Lookups.lean
  Subject:   Look-ups of credentials while others work on the directory (`server.rs`,
             `CredentialStore::authorized`).

  A look-up lists the directory and reads the files of the list one after the other, each as it
  is when its turn comes. Its first failed read ends it, and the token then counts for nothing.

  * `LookupStep`, `lookupStep_of_step` -- what an action does to a look-up;
  * `authorized_iff_readable` -- **an agent whose credential does not change is let in exactly if
    every file of the list can be read at its turn**;
  * `authorized_undisturbed` -- redemptions disturb a look-up in one way only: a temporary file is
    dropped after it is listed and before it is read, and that locks an agent out (`locked_out`);
  * `denied_step` -- who presents what no file holds is turned away.
-/
import Beacon.Server.Codes

namespace Beacon

open Foundation

/-! ## 1. Steps of a look-up -/

/-- The request whose step an action is. -/
def SiteAction.asker {ι κ : Type} : SiteAction ι κ → Option κ
  | .list q _ => some q
  | .read q => some q
  | .lose q => some q
  | .serve q _ => some q
  | _ => none

section Lookups

variable {ι κ : Type} [DecidableEq ι] [DecidableEq κ] [Sha256] [Formats] {sc : Scenario ι κ}
  {s s' : Site ι κ} {a : SiteAction ι κ} {q : κ}

/-- **What an action does to the look-up of a request.** -/
inductive LookupStep (sc : Scenario ι κ) (q : κ) (s : Site ι κ) : SiteAction ι κ → Lookup → Prop
  | stays (a : SiteAction ι κ) (hcrash : a ≠ .crash) (hother : a.asker ≠ some q) :
    LookupStep sc q s a (s.lookups q)
  | crashes : LookupStep sc q s .crash (s.lookups q).crash
  | lists (names : List String) (hwaiting : s.lookups q = .waiting)
    (hnames : names.Perm s.disk.names) : LookupStep sc q s (.list q names)
      (.scanning (match (sc.asks q).presented with
        | none => .answered false
        | some _ => .reading (listing s.disk names) false))
  | reads (scan : Scan) (token : String) (hscan : s.lookups q = .scanning scan)
    (htoken : (sc.asks q).presented = some token) :
    LookupStep sc q s (.read q) (.scanning (scan.step token s.disk))
  | loses (todo : List (String × Bool)) (matched : Bool)
    (hscan : s.lookups q = .scanning (.reading todo matched)) :
    LookupStep sc q s (.lose q) (.scanning (.answered false))
  | serves (env : Handling) (authorized : Bool)
    (hscan : s.lookups q = .scanning (.answered authorized)) :
    LookupStep sc q s (.serve q env)
      (.done authorized ((sc.asks q).respond sc.store { env with authorized } s.db).1)

omit [DecidableEq ι] [Sha256] in
/-- A step of another request. -/
theorem LookupStep.other (hcrash : a ≠ .crash) {p : κ} (ha : a.asker = some p) (l : Lookup)
    (h : p ≠ q) : LookupStep sc q s a ((s.setLookup p l).lookups q) := by
  have hsame : (s.setLookup p l).lookups q = s.lookups q := Function.update_of_ne h.symm _ _
  rw [hsame]
  exact .stays a hcrash (by rw [ha]; exact fun e => h (Option.some.inj e))

theorem lookupStep_of_step (hs : sc.step s a = some s') (q : κ) :
    LookupStep sc q s a (s'.lookups q) := by
  have hself : ∀ l : Lookup, (s.setLookup q l).lookups q = l := fun l => Function.update_self _ _ _
  cases a with
  | list p names =>
    rw [Scenario.step] at hs
    split at hs
    · rename_i hwaiting
      split at hs
      · rename_i hnames
        cases hs
        by_cases hp : p = q
        · rw [hp] at hwaiting ⊢
          rw [hself]
          exact .lists names hwaiting hnames
        · exact .other (by simp) rfl _ hp
      · cases hs
    · cases hs
  | read p =>
    rw [Scenario.step] at hs
    split at hs
    · rename_i scan token hscan htoken
      cases hs
      by_cases hp : p = q
      · rw [hp] at hscan htoken ⊢
        rw [hself]
        exact .reads scan token hscan htoken
      · exact .other (by simp) rfl _ hp
    · cases hs
  | lose p =>
    rw [Scenario.step] at hs
    split at hs
    · rename_i todo matched hscan
      cases hs
      by_cases hp : p = q
      · rw [hp] at hscan ⊢
        rw [hself]
        exact .loses todo matched hscan
      · exact .other (by simp) rfl _ hp
    · cases hs
  | serve p env =>
    rw [Scenario.step] at hs
    split at hs
    · rename_i authorized hscan
      cases hs
      by_cases hp : p = q
      · rw [hp] at hscan ⊢
        show LookupStep sc q s _ ((s.setLookup q _).lookups q)
        rw [hself]
        exact .serves env authorized hscan
      · exact .other (by simp) rfl _ hp
    · cases hs
  | crash =>
    cases hs
    exact .crashes
  | operator c =>
    rw [Scenario.step] at hs
    split at hs
    · cases hs
    · obtain ⟨d, _, rfl⟩ := Option.map_eq_some_iff.mp hs
      exact .stays _ (by simp) (by simp [SiteAction.asker])
  | enroll i =>
    obtain ⟨st, _, rfl⟩ := Option.map_eq_some_iff.mp hs
    exact .stays _ (by simp) (by simp [SiteAction.asker])
  | next i =>
    obtain ⟨st, _, rfl⟩ := Option.map_eq_some_iff.mp hs
    exact .stays _ (by simp) (by simp [SiteAction.asker])
  | fail i =>
    obtain ⟨st, _, rfl⟩ := Option.map_eq_some_iff.mp hs
    exact .stays _ (by simp) (by simp [SiteAction.asker])
  | create c =>
    obtain ⟨st, _, rfl⟩ := Option.map_eq_some_iff.mp hs
    exact .stays _ (by simp) (by simp [SiteAction.asker])

/-! ## 2. Refused and let in -/

/-- The look-up has failed, or ended without a file that holds the token. -/
def Lookup.Refused (l : Lookup) : Prop :=
  l = .scanning (.answered false) ∨ (∃ response, l = .done false response) ∨ l = .lost

/-- The look-up has met the token, or `name` is still to be read. -/
def Lookup.Serving (name : String) (l : Lookup) : Prop :=
  (∃ todo matched, l = .scanning (.reading todo matched) ∧ (matched = true ∨ (name, true) ∈ todo)) ∨
    l = .scanning (.answered true) ∨ (∃ response, l = .done true response) ∨ l = .lost

/-- The file whose turn it is can be read, and the look-up is not broken off. -/
def Readable (q : κ) (s : Site ι κ) (a : SiteAction ι κ) : Prop :=
  (a = .read q → ∀ e todo matched, s.lookups q = .scanning (.reading (e :: todo) matched) →
    ¬ Scan.Unreadable s.disk e) ∧
  (a = .lose q → ∀ todo matched, s.lookups q ≠ .scanning (.reading todo matched))

omit [DecidableEq ι] [DecidableEq κ] [Sha256] in
theorem Lookup.Refused.step {l : Lookup} (h : (s.lookups q).Refused)
    (hl : LookupStep sc q s a l) : l.Refused := by
  cases hl with
  | stays _ _ _ => exact h
  | crashes =>
    rcases h with h | ⟨response, h⟩ | h <;> rw [h]
    · exact .inr (.inr rfl)
    · exact .inr (.inl ⟨response, rfl⟩)
    · exact .inr (.inr rfl)
  | lists names hwaiting _ =>
    rw [hwaiting] at h
    rcases h with h | ⟨_, h⟩ | h <;> cases h
  | reads scan token hscan _ =>
    rw [hscan] at h
    rcases h with h | ⟨_, h⟩ | h <;> cases h
    exact .inl rfl
  | loses todo matched _ => exact .inl rfl
  | serves env authorized hscan =>
    rw [hscan] at h
    rcases h with h | ⟨_, h⟩ | h <;> cases h
    exact .inr (.inl ⟨_, rfl⟩)

/-- **A look-up that has failed stays refused.** -/
theorem refused_later (h : (s.lookups q).Refused) (bs : List (SiteAction ι κ)) :
    ((sc.site.runFrom s bs).lookups q).Refused :=
  Machine.runFrom_invariant (M := sc.site) (I := fun s => (s.lookups q).Refused)
    (fun _ _ _ h hs => h.step (lookupStep_of_step hs q)) h bs

omit [Sha256] [Formats] in
theorem Lookup.Refused.verdict {l : Lookup} (h : l.Refused) : l.verdict ≠ some true := by
  rcases h with rfl | ⟨_, rfl⟩ | rfl <;> exact fun h => by cases h

omit [DecidableEq ι] [DecidableEq κ] [Sha256] in
/-- **One step of a look-up** where `name` holds the token and no read fails. -/
theorem Lookup.Serving.step {name token : String} {l : Lookup} (h : (s.lookups q).Serving name)
    (hpresented : (sc.asks q).presented = some token) (hne : token ≠ "")
    (hread : Readable q s a) (hholds : Holds s.disk name token) (hl : LookupStep sc q s a l) :
    l.Serving name := by
  cases hl with
  | stays _ _ _ => exact h
  | crashes =>
    rcases h with ⟨_, _, h, _⟩ | h | ⟨response, h⟩ | h <;> rw [h]
    · exact .inr (.inr (.inr rfl))
    · exact .inr (.inr (.inr rfl))
    · exact .inr (.inr (.inl ⟨response, rfl⟩))
    · exact .inr (.inr (.inr rfl))
  | lists names hwaiting _ =>
    rw [hwaiting] at h
    rcases h with ⟨_, _, h, _⟩ | h | ⟨_, h⟩ | h <;> cases h
  | loses todo matched hscan => exact absurd hscan (hread.2 rfl todo matched)
  | serves env authorized hscan =>
    rw [hscan] at h
    rcases h with ⟨_, _, h, _⟩ | h | ⟨_, h⟩ | h <;> cases h
    exact .inr (.inr (.inl ⟨_, rfl⟩))
  | reads scan presented hscan htoken =>
    cases hpresented.symm.trans htoken
    rw [hscan] at h
    rcases h with ⟨todo, matched, h, hturn⟩ | h | ⟨_, h⟩ | h <;> cases h
    · cases todo with
      | nil =>
        rcases hturn with rfl | hmem
        · exact .inr (.inl rfl)
        · cases hmem
      | cons e todo =>
        -- the entry can be read; it is the file of the token, or that one is still to come
        rw [Scan.step]
        cases hentry : Scan.entry token s.disk e matched with
        | none => exact absurd (Scan.entry_eq_none.mp hentry) (hread.1 rfl e todo matched hscan)
        | some matched' =>
          obtain ⟨_, hm⟩ := Scan.entry_eq_some.mp hentry
          refine .inl ⟨todo, matched', rfl, ?_⟩
          rcases hturn with rfl | hmem
          · exact .inl (hm.mpr (.inl rfl))
          · rcases List.mem_cons.mp hmem with rfl | hmem
            · obtain ⟨text, hget, htrim⟩ := hholds
              refine .inl (hm.mpr (.inr ⟨hne, rfl, text, ?_, htrim⟩))
              rw [Links.read, hget]
            · exact .inr hmem
    · exact .inr (.inl rfl)

/-- **A look-up that lets the agent in has read every file at its turn.** -/
theorem readable_of_verdict {token : String} (hpresented : (sc.asks q).presented = some token)
    {bs : List (SiteAction ι κ)} (h : ((sc.site.runFrom s bs).lookups q).verdict = some true) :
    sc.site.Along (Readable q) s bs := by
  induction bs generalizing s with
  | nil => exact trivial
  | cons a bs ih =>
    have hfailed : ∀ s', sc.step s a = some s' → ¬ (s'.lookups q).Refused := by
      intro s' hs hrefused
      have hact : sc.site.act s a = s' := Machine.act_of_step hs
      rw [← hact] at hrefused
      exact (refused_later hrefused bs).verdict h
    have hself : ∀ l : Lookup, (s.setLookup q l).lookups q = l := fun l =>
      Function.update_self _ _ _
    refine ⟨⟨?_, ?_⟩, ih h⟩
    · rintro rfl e todo matched hscan hun
      refine hfailed (s.setLookup q (.scanning (.answered false))) ?_ (.inl (hself _))
      rw [Scenario.step, hscan, hpresented]
      simp only [Scan.step, Scan.entry_eq_none.mpr hun]
    · rintro rfl todo matched hscan
      refine hfailed (s.setLookup q (.scanning (.answered false))) ?_ (.inl (hself _))
      rw [Scenario.step, hscan]

/-- A request that has made no step waits. -/
theorem waiting_of_unasked {as : List (SiteAction ι κ)} (h : ∀ a ∈ as, a.asker ≠ some q) :
    (sc.site.run as).lookups q = .waiting := by
  refine Machine.invariant_along (M := sc.site) (I := fun s => s.lookups q = .waiting)
    (P := fun _ a => a.asker ≠ some q) rfl (fun s a s' hI ha hs => ?_) (Machine.along_of_mem h)
  have hstep := lookupStep_of_step hs q
  generalize s'.lookups q = l at hstep ⊢
  cases hstep with
  | stays _ _ => exact hI
  | crashes => exact congrArg Lookup.crash hI
  | lists | reads | loses | serves => exact absurd rfl ha

/-- The directory is listed. -/
theorem run_list {as : List (SiteAction ι κ)} {token : String} {names : List String}
    (hpresented : (sc.asks q).presented = some token)
    (hwaiting : (sc.site.run as).lookups q = .waiting)
    (hnames : names.Perm (sc.site.run as).disk.names) :
    sc.site.run (as ++ [.list q names]) = (sc.site.run as).setLookup q
      (.scanning (.reading (listing (sc.site.run as).disk names) false)) := by
  rw [Machine.run_snoc]
  refine Machine.act_of_step ?_
  change sc.step (sc.site.run as) (.list q names) = _
  rw [Scenario.step, hwaiting]
  simp only [hnames, if_true, hpresented]

/-- **An agent whose credential stands unchanged is let in exactly if every file of the list can
    be read at its turn**: whatever the redemptions and others do meanwhile, a look-up that lists
    the directory and comes to an end accepts the token if and only if no read failed. -/
theorem authorized_iff_readable {as bs : List (SiteAction ι κ)} {token name : String}
    {names : List String} {verdict : Bool}
    (hpresented : (sc.asks q).presented = some token) (hne : token ≠ "")
    (hwaiting : (sc.site.run as).lookups q = .waiting)
    (hnames : names.Perm (sc.site.run as).disk.names)
    (hholds : sc.site.Along (fun s _ => Holds s.disk name token) (sc.site.run as)
      (.list q names :: bs))
    (hverdict : ((sc.site.run (as ++ .list q names :: bs)).lookups q).verdict = some verdict) :
    verdict = true ↔ sc.site.Along (Readable q) (sc.site.run (as ++ [.list q names])) bs := by
  have hsplit : sc.site.run (as ++ .list q names :: bs) =
      sc.site.runFrom (sc.site.run (as ++ [.list q names])) bs := by
    rw [← Machine.run_append, List.append_assoc, List.singleton_append]
  rw [hsplit] at hverdict
  constructor
  · rintro rfl
    exact readable_of_verdict hpresented hverdict
  · intro hreadable
    have hserving : ((sc.site.run (as ++ [.list q names])).lookups q).Serving name := by
      rw [run_list hpresented hwaiting hnames]
      refine .inl ⟨_, false, Function.update_self _ _ _, .inr ?_⟩
      obtain ⟨text, hget, _⟩ := hholds.1
      refine mem_listing.mpr ⟨hnames.mem_iff.mpr (Links.mem_names.mpr ?_), ?_⟩
      · obtain ⟨k, hk, _⟩ := Links.get?_eq_some.mp hget
        exact ⟨k, hk⟩
      · rw [hget]
        rfl
    have hstill := hholds.2
    rw [← Machine.run_snoc] at hstill
    have hend := Machine.runFrom_invariant_along (M := sc.site)
      (I := fun s => (s.lookups q).Serving name)
      (fun s a s' h hP hs => h.step hpresented hne hP.1 hP.2 (lookupStep_of_step hs q)) hserving
      (hreadable.and hstill)
    rcases hend with ⟨_, _, h, _⟩ | h | ⟨_, h⟩ | h <;> rw [h] at hverdict <;> cases hverdict <;> rfl

/-! ## 3. What an enrollment can do to a look-up -/

/-- Nobody but redemptions works on the directory, and none of them drops a listed file. -/
def Undisturbed (sc : Scenario ι κ) (q : κ) (names : List String) (s : Site ι κ)
    (a : SiteAction ι κ) : Prop :=
  (∀ c, a ≠ .operator c) ∧ a ≠ .lose q ∧ ∀ i acc, a = .next i →
    s.redemptions.calls i = .active acc (Progress.clean.rest (sc.redeems i)) →
    (sc.redeems i).draft ∉ names

omit [DecidableEq κ] in
/-- A file that can be read stays readable, unless it is dropped. -/
theorem readable_of_effect {st st' : Sessions.State ι Enrollments Links String String}
    (he : Effect sc st a st') (hoperator : ∀ c, a ≠ .operator c) {name text : String}
    (hclean : ∀ i acc, a = .next i →
      st.calls i = .active acc (Progress.clean.rest (sc.redeems i)) → name ≠ (sc.redeems i).draft)
    (h : st.disk.get? name = some (.file (some text))) :
    ∃ text, st'.disk.get? name = some (.file (some text)) := by
  cases he with
  | changes c d _ _ => exact absurd rfl (hoperator c)
  | turns i acc rest _ _ _ hturn =>
    cases hturn with
    | moves p p' d _ _ hi hon hmove =>
      have happend : ∀ {old : String} (c : Char), st.disk.get? (sc.redeems i).draft =
          some (.file (some old)) ∧ st.disk.Sole (sc.redeems i).draft →
          ∃ text, (st.disk.append (sc.redeems i).draft c).get? name = some (.file (some text)) := by
        intro old c hdraft
        by_cases hname : name = (sc.redeems i).draft
        · rw [hname]
          exact ⟨_, (on_append hdraft c).1⟩
        · rw [Links.get?_append_ne c fun k hk hk' => hname (hdraft.2 name k hk hk')]
          exact ⟨text, h⟩
      cases hmove with
      | create hnew =>
        rw [Links.get?_createNew hnew]
        split
        · exact ⟨"", rfl⟩
        · exact ⟨text, h⟩
      | fill _ => exact happend _ (hon _ rfl)
      | line _ => exact happend _ (hon _ rfl)
      | link hlink =>
        rw [Links.get?_hardLink hlink]
        split
        · exact ⟨_, (hon _ rfl).1⟩
        · exact ⟨text, h⟩
      | clean hdrop =>
        rw [Links.get?_unlink hdrop, if_neg (hclean i _ rfl hi)]
        exact ⟨text, h⟩
      | _ => exact ⟨text, h⟩
    | _ => exact ⟨text, h⟩
  | _ => exact ⟨text, h⟩

/-- What is still to be read was listed, and can be read. -/
def Listed (names : List String) (d : Links) (l : Lookup) : Prop :=
  l ≠ .waiting ∧ ∀ todo matched, l = .scanning (.reading todo matched) → ∀ e ∈ todo, e.1 ∈ names ∧
    (e.2 = true → ∃ text, d.get? e.1 = some (.file (some text)))

omit [DecidableEq ι] [DecidableEq κ] [Sha256] in
theorem Listed.step {names : List String} {d : Links} {l : Lookup}
    (h : Listed names s.disk (s.lookups q)) (hl : LookupStep sc q s a l)
    (hkept : ∀ name ∈ names, ∀ text, s.disk.get? name = some (.file (some text)) →
      ∃ text, d.get? name = some (.file (some text))) : Listed names d l := by
  have hsub : ∀ {todo todo' : List (String × Bool)} {m : Bool},
      s.lookups q = .scanning (.reading todo m) → todo' ⊆ todo → ∀ e ∈ todo', e.1 ∈ names ∧
        (e.2 = true → ∃ text, d.get? e.1 = some (.file (some text))) := by
    intro todo todo' m hscan hle e he
    obtain ⟨hmem, hfile⟩ := h.2 todo m hscan e (hle he)
    exact ⟨hmem, fun hregular => (hfile hregular).elim fun text => hkept _ hmem text⟩
  cases hl with
  | stays _ _ _ => exact ⟨h.1, fun todo m hscan => hsub hscan (List.Subset.refl todo)⟩
  | crashes =>
    cases hl : s.lookups q with
    | waiting => exact absurd hl h.1
    | _ => exact ⟨by simp [Lookup.crash], fun _ _ e => by simp [Lookup.crash] at e⟩
  | lists _ hwaiting _ => exact absurd hwaiting h.1
  | loses _ _ _ => exact ⟨by simp, fun _ _ e => by cases e⟩
  | serves _ _ _ => exact ⟨by simp, fun _ _ e => by cases e⟩
  | reads scan token hscan _ =>
    refine ⟨by simp, fun todo m hnext => ?_⟩
    cases scan with
    | answered b => cases hnext
    | reading old m' =>
      cases old with
      | nil => cases hnext
      | cons e old =>
        rw [Scan.step] at hnext
        split at hnext
        · cases hnext
        · cases hnext
          exact hsub hscan (List.subset_cons_self e _)

/-- **A look-up lets the agent in, unless a redemption drops a file it has listed** (or the
    operator interferes): whatever else the redemptions do. -/
theorem authorized_undisturbed {as bs : List (SiteAction ι κ)} {token name : String}
    {names : List String} {verdict : Bool}
    (hpresented : (sc.asks q).presented = some token) (hne : token ≠ "")
    (hwaiting : (sc.site.run as).lookups q = .waiting)
    (hnames : names.Perm (sc.site.run as).disk.names)
    (hreadable : ¬ Blocked (sc.site.run as).disk)
    (hholds : sc.site.Along (fun s _ => Holds s.disk name token) (sc.site.run as)
      (.list q names :: bs))
    (hquiet : sc.site.Along (Undisturbed sc q names) (sc.site.run (as ++ [.list q names])) bs)
    (hverdict : ((sc.site.run (as ++ .list q names :: bs)).lookups q).verdict = some verdict) :
    verdict = true := by
  refine (authorized_iff_readable hpresented hne hwaiting hnames hholds hverdict).mpr ?_
  have hlisted : Listed names (sc.site.run (as ++ [.list q names])).disk
      ((sc.site.run (as ++ [.list q names])).lookups q) := by
    have hscan : ((sc.site.run as).setLookup q
        (.scanning (.reading (listing (sc.site.run as).disk names) false))).lookups q =
        .scanning (.reading (listing (sc.site.run as).disk names) false) := Function.update_self _ _ _
    rw [run_list hpresented hwaiting hnames, hscan]
    refine ⟨by simp, fun todo m e' e he => ?_⟩
    cases e'
    obtain ⟨hmem, hregular⟩ := mem_listing.mp he
    refine ⟨hmem, fun htrue => ?_⟩
    rw [htrue] at hregular
    show ∃ text, (sc.site.run as).disk.get? e.1 = _
    cases hget : (sc.site.run as).disk.get? e.1 with
    | none => rw [hget] at hregular; cases hregular
    | some node =>
      cases node with
      | other => rw [hget] at hregular; cases hregular
      | file text =>
        cases text with
        | none => exact absurd ⟨e.1, hget⟩ hreadable
        | some text => exact ⟨text, rfl⟩
  refine hquiet.of_invariant
    (I := fun s => Staged sc s.redemptions ∧ Listed names s.disk (s.lookups q))
    (fun s a s' h hP hs => ?_) (fun s a h hP => ⟨?_, ?_⟩) ⟨staged_run _, hlisted⟩
  · have he := effect_of_step h.1 hs
    refine ⟨staged_effect h.1 he, h.2.step (lookupStep_of_step hs q) fun name hmem text hget => ?_⟩
    refine readable_of_effect he hP.1 (fun i acc ha hi e => ?_) hget
    exact hP.2.2 i acc ha hi (e ▸ hmem)
  · rintro rfl e todo matched hscan ⟨hregular, hnone⟩
    obtain ⟨text, hget⟩ := (h.2.2 _ _ hscan e List.mem_cons_self).2 hregular
    rw [Links.read, hget] at hnone
    cases hnone
  · rintro rfl
    exact absurd rfl hP.2.1

/-! ## 4. Turned away -/

/-- The answer to who is not authorized. -/
def unauthorized : Response := ⟨401, errorBody "unauthorized"⟩

/-- Nothing has spoken for the request yet, and nothing was done for it. -/
def Lookup.Denied (l : Lookup) : Prop :=
  l = .waiting ∨ (∃ todo, l = .scanning (.reading todo false)) ∨ l = .scanning (.answered false) ∨
    l = .done false unauthorized ∨ l = .lost

/-- The request gets nothing: it is not let in, its answer says so, and its steps leave the tables
    as they are. -/
structure TurnedAway (sc : Scenario ι κ) (q : κ) (s : Site ι κ) : Prop where
  verdict : (s.lookups q).verdict ≠ some true
  response : ∀ authorized response, s.lookups q = .done authorized response →
    response = unauthorized
  tables : ∀ a s', a.asker = some q → sc.step s a = some s' → s'.db = s.db ∧ s'.codes = s.codes

omit [DecidableEq ι] [DecidableEq κ] [Sha256] in
/-- **A request whose token no file holds stays denied.** -/
theorem denied_step {token : String} {l : Lookup} (h : (s.lookups q).Denied)
    (hpresented : (sc.asks q).presented = some token)
    (hno : token ≠ "" → ∀ name, ¬ Holds s.disk name token) (hl : LookupStep sc q s a l) :
    l.Denied := by
  cases hl with
  | stays _ _ _ => exact h
  | crashes =>
    rcases h with h | ⟨_, h⟩ | h | h | h <;> rw [h]
    · exact .inl rfl
    · exact .inr (.inr (.inr (.inr rfl)))
    · exact .inr (.inr (.inr (.inr rfl)))
    · exact .inr (.inr (.inr (.inl rfl)))
    · exact .inr (.inr (.inr (.inr rfl)))
  | lists names _ _ =>
    rw [hpresented]
    exact .inr (.inl ⟨_, rfl⟩)
  | loses _ _ _ => exact .inr (.inr (.inl rfl))
  | serves env authorized hscan =>
    rw [hscan] at h
    rcases h with h | ⟨_, h⟩ | h | h | h <;> cases h
    rw [Inquiry.respond_unauthorized _ _ rfl]
    exact .inr (.inr (.inr (.inl rfl)))
  | reads scan presented hscan htoken =>
    cases hpresented.symm.trans htoken
    rw [hscan] at h
    rcases h with h | ⟨todo, h⟩ | h | h | h <;> cases h
    · cases todo with
      | nil => exact .inr (.inr (.inl rfl))
      | cons e todo =>
        rw [Scan.step]
        cases hentry : Scan.entry token s.disk e false with
        | none => exact .inr (.inr (.inl rfl))
        | some matched =>
          -- no file holds the token, so the entry adds nothing
          have hfalse : matched = false := by
            rw [Bool.eq_false_iff]
            intro htrue
            rcases (Scan.entry_eq_some.mp hentry).2.mp htrue with h | ⟨hne, _, text, hread, htrim⟩
            · cases h
            · exact hno hne e.1 (.of_read hread htrim)
          rw [hfalse]
          exact .inr (.inl ⟨todo, rfl⟩)
    · exact .inr (.inr (.inl rfl))

theorem turnedAway_of_denied (h : (s.lookups q).Denied) : TurnedAway sc q s := by
  refine ⟨?_, fun authorized response hdone => ?_, fun a s' ha hs => ?_⟩
  · rcases h with h | ⟨_, h⟩ | h | h | h <;> rw [h] <;> exact fun h => by cases h
  · rcases h with h | ⟨_, h⟩ | h | h | h <;> cases hdone.symm.trans h
    rfl
  · cases a with
    | list p names =>
      rw [Scenario.step] at hs
      split at hs
      · split at hs
        · cases hs
          exact ⟨rfl, rfl⟩
        · cases hs
      · cases hs
    | read p =>
      rw [Scenario.step] at hs
      split at hs
      · cases hs
        exact ⟨rfl, rfl⟩
      · cases hs
    | lose p =>
      rw [Scenario.step] at hs
      split at hs
      · cases hs
        exact ⟨rfl, rfl⟩
      · cases hs
    | serve p env =>
      cases Option.some.inj ha
      rw [Scenario.step] at hs
      split at hs
      · rename_i authorized hscan
        rcases h with h | ⟨_, h⟩ | h | h | h <;> cases hscan.symm.trans h
        rw [Inquiry.respond_unauthorized _ _ rfl] at hs
        cases hs
        exact ⟨rfl, rfl⟩
      · cases hs
    | _ => cases ha

end Lookups

/-! ## 5. A redemption that locks an agent out -/

namespace Sample

/-- The sample, with a request of another agent. -/
def nasScenario : Scenario Unit Unit :=
  { scenario with asks := fun _ => ⟨some "Bearer nas-token", .alerts ⟨none, 100⟩⟩ }

abbrev nasSite : Machine (Site Unit Unit) (SiteAction Unit Unit) :=
  @Scenario.site Unit Unit _ _ hashing expiryFormats nasScenario

/-- The credential of the other agent. -/
def installed : SiteAction Unit Unit :=
  .operator (.replace "nas.token" (.file (some "nas-token\n")))

/-- The sample redemption has written its token to the temporary file. -/
def written : List (SiteAction Unit Unit) :=
  installed :: .create creation :: .enroll () :: List.replicate 45 (.next ())

/-- It links the token to its name and drops the temporary name; the request reads on. -/
def dropped : List (SiteAction Unit Unit) := [.next (), .next (), .read ()]

end Sample

/-- The theorem at a redemption in progress: the look-up reads the temporary file before it is
    linked and dropped, then the credential, and lets the agent in. -/
theorem authorized_iff_readable_redeeming : Sample.nasSite.Along (Readable ())
    (Sample.nasSite.run (Sample.written ++ [.list () [Sample.enrollment.draft, "nas.token"]]))
    (.read () :: Sample.dropped ++ [.read ()]) :=
  (@authorized_iff_readable Unit Unit _ _ Sample.hashing Sample.expiryFormats _ () Sample.written
    (.read () :: Sample.dropped ++ [.read ()]) "nas-token" "nas.token"
    [Sample.enrollment.draft, "nas.token"] true (by decide +kernel) (by decide)
    (@waiting_of_unasked Unit Unit _ _ Sample.hashing Sample.expiryFormats _ () _ (by decide))
    (by decide +kernel) (by decide +kernel) (by decide +kernel)).mp rfl

/-- **Enrolling one agent can lock out another**: the temporary file of a redemption is listed and
    dropped before it is read, and the other agent, whose credential stands all the while, is
    refused. -/
theorem locked_out :
    (Sample.nasScenario.asks ()).presented = some "nas-token" ∧
    Sample.nasSite.Along (fun s _ => Holds s.disk "nas.token" "nas-token")
      (Sample.nasSite.run Sample.written)
      (.list () [Sample.enrollment.draft, "nas.token"] :: Sample.dropped) ∧
    ((Sample.nasSite.run (Sample.written ++
      .list () [Sample.enrollment.draft, "nas.token"] :: Sample.dropped)).lookups ()).verdict =
        some false :=
  ⟨by decide +kernel, by decide +kernel, by decide +kernel⟩

end Beacon
