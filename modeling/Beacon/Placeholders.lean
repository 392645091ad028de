/-
  File:      Beacon/Placeholders.lean
  Subject:   The placeholders of a template: which templates the check admits, and what rendering
             makes of them.

  `validateTemplate` and `renderTemplate` are two loops over the same text. Both look for the next
  opening brace, then for the next closing one, so both walk along the cut of the text
  (`Foundation/Marks.lean`). The check looks for stray closing braces in the rest only: one that
  stands before a placeholder passes.

  * `validatePlaceholders_ok` -- what the check admits, as a condition on the cut;
  * `validateTemplate_iff_grammatical` -- **where the check is the grammar**: no stray closing brace
    before a placeholder;
  * `renderTemplate_join` -- rendering fills the cut;
  * `renderTemplate_admitted` -- **an admitted template is filled once**, without any fallback, and
    two of them in a row are filled one by one.
-/
import Beacon.Foundation.Marks
import Beacon.Templates

namespace Beacon

open Foundation

/-! ## 1. Grammar -/

/-- A piece of a template: literal text without braces, or a placeholder. -/
inductive Piece where
  | literal (text : List Char) (opening : '\x7b' ∉ text) (closing : '\x7d' ∉ text)
  | placeholder (name : String) (known : name ∈ placeholders)

def Piece.chars : Piece → List Char
  | .literal text _ _ => text
  | .placeholder name _ => '\x7b' :: (name.toList ++ ['\x7d'])

/-- The templates of the grammar. -/
def Grammatical (template : String) : Prop :=
  1 ≤ template.utf8ByteSize ∧ template.utf8ByteSize ≤ 4096 ∧
    ∃ pieces : List Piece, template.toList = pieces.flatMap Piece.chars

/-- A template cut at its braces. -/
abbrev Cut := Marked '\x7b' '\x7d'

/-- The names between braces are placeholders. -/
def Known (t : Cut) : Prop := ∀ m ∈ t.marks, String.ofList m.name ∈ placeholders

theorem known_plain (rest : List Char) (h : '\x7b' ∉ rest) : Known (.plain rest h) := fun _ hm =>
  (List.not_mem_nil hm).elim

/-- A template of free text and placeholders in which a closing brace that closes nothing stands
    before a placeholder, and none behind the last one. -/
def StrayClosing (template : String) : Prop :=
  1 ≤ template.utf8ByteSize ∧ template.utf8ByteSize ≤ 4096 ∧
    ∃ t : Cut, t.join = template.toList ∧ Known t ∧ '\x7d' ∉ t.rest ∧ ∃ m ∈ t.marks, '\x7d' ∈ m.before

/-! ## 2. The check -/

section Check

variable {name : String} {rest before after placeholder rest' : List Char}

theorem validatePlaceholders_of_none (h : Text.splitOnce '\x7b' rest = none) :
    validatePlaceholders name rest = if '\x7d' ∈ rest then
      .error s!"Telegram template '{name}' contains an unmatched closing brace" else .ok () := by
  rw [validatePlaceholders]
  split
  · rfl
  · rename_i hsome
    rw [h] at hsome
    cases hsome

theorem validatePlaceholders_of_some (h : Text.splitOnce '\x7b' rest = some (before, after))
    (h' : Text.splitOnce '\x7d' after = some (placeholder, rest')) :
    validatePlaceholders name rest = if String.ofList placeholder ∈ placeholders then
      validatePlaceholders name rest'
      else .error ("Telegram template '" ++ name ++ "' uses unsupported placeholder '" ++
        String.ofList placeholder ++ "'") := by
  rw [validatePlaceholders]
  split
  · rename_i hnone
    rw [h] at hnone
    cases hnone
  · rename_i hsome
    cases h.symm.trans hsome
    split
    · rename_i hnone
      rw [h'] at hnone
      cases hnone
    · rename_i hsome'
      cases h'.symm.trans hsome'
      rfl

theorem validatePlaceholders_of_unclosed (h : Text.splitOnce '\x7b' rest = some (before, after))
    (h' : Text.splitOnce '\x7d' after = none) : validatePlaceholders name rest =
      .error "Telegram template contains an unclosed placeholder" := by
  rw [validatePlaceholders]
  split
  · rename_i hnone
    rw [h] at hnone
    cases hnone
  · rename_i hsome
    cases h.symm.trans hsome
    split
    · rfl
    · rename_i hsome'
      rw [h'] at hsome'
      cases hsome'

/-- **What the loop of the check admits.** -/
theorem validatePlaceholders_ok : validatePlaceholders name rest = .ok () ↔
    ∃ t : Cut, t.join = rest ∧ Known t ∧ '\x7d' ∉ t.rest := by
  constructor
  · intro h
    induction hn : rest.length using Nat.strong_induction_on generalizing rest with
    | _ n ih =>
      cases hscan : Text.splitOnce '\x7b' rest with
      | none =>
        rw [validatePlaceholders_of_none hscan] at h
        by_cases hmem : '\x7d' ∈ rest
        · rw [if_pos hmem] at h
          cases h
        · exact ⟨.plain rest (Text.splitOnce_eq_none.mp hscan), rfl, known_plain _ _, hmem⟩
      | some p =>
        obtain ⟨before, after⟩ := p
        cases hname : Text.splitOnce '\x7d' after with
        | none =>
          rw [validatePlaceholders_of_unclosed hscan hname] at h
          cases h
        | some q =>
          obtain ⟨placeholder, rest'⟩ := q
          rw [validatePlaceholders_of_some hscan hname] at h
          by_cases hknown : String.ofList placeholder ∈ placeholders
          · rw [if_pos hknown] at h
            obtain ⟨hrest, hbefore⟩ := Text.splitOnce_eq_some hscan
            obtain ⟨hafter, hfree⟩ := Text.splitOnce_eq_some hname
            have hshort := Text.splitOnce_length hscan
            have hshort' := Text.splitOnce_length hname
            obtain ⟨t, rfl, ht, hend⟩ := ih rest'.length (by omega) h rfl
            refine ⟨.cons ⟨before, placeholder, hbefore, hfree⟩ t, ?_, ?_, hend⟩
            · rw [Marked.join_cons, ← hafter, ← hrest]
            · exact List.forall_mem_cons.mpr ⟨hknown, ht⟩
          · rw [if_neg hknown] at h
            cases h
  · rintro ⟨t, rfl, hknown, hrest⟩
    induction t using Marked.induct with
    | plain rest hfree =>
      rw [validatePlaceholders_of_none (Marked.splitOnce_plain hfree)]
      exact if_neg hrest
    | cons m t ih =>
      obtain ⟨hm, ht⟩ := List.forall_mem_cons.mp hknown
      rw [validatePlaceholders_of_some (Marked.splitOnce_cons m t) (Marked.splitOnce_name m t),
        if_pos hm]
      exact ih ht hrest

/-- **What the check admits.** -/
theorem validateTemplate_ok {template : String} : validateTemplate name template = .ok () ↔
    1 ≤ template.utf8ByteSize ∧ template.utf8ByteSize ≤ 4096 ∧
      ∃ t : Cut, t.join = template.toList ∧ Known t ∧ '\x7d' ∉ t.rest := by
  rw [← @validatePlaceholders_ok name, ← and_assoc]
  have hsize : (template.isEmpty || template.utf8ByteSize > 4096) = true ↔
      ¬ (1 ≤ template.utf8ByteSize ∧ template.utf8ByteSize ≤ 4096) := by
    rw [Bool.or_eq_true, String.isEmpty_iff, decide_eq_true_eq, ← String.utf8ByteSize_eq_zero_iff]
    omega
  unfold validateTemplate
  by_cases h : 1 ≤ template.utf8ByteSize ∧ template.utf8ByteSize ≤ 4096
  · rw [if_neg (fun h' => hsize.mp h' h)]
    exact ⟨fun hok => ⟨h, hok⟩, fun hok => hok.2⟩
  · rw [if_pos (hsize.mpr h)]
    exact ⟨(by intro hok; cases hok), fun hok => absurd hok.1 h⟩

end Check

/-! ## 3. The check and the grammar -/

/-- A cut all of whose braces are those of placeholders. -/
def Clean (t : Cut) : Prop :=
  Known t ∧ '\x7d' ∉ t.rest ∧ ∀ m ∈ t.marks, '\x7d' ∉ m.before

theorem placeholder_free {name : String} (h : name ∈ placeholders) : '\x7d' ∉ name.toList := by
  have key : placeholders.all fun name => decide ('\x7d' ∉ name.toList) := by decide
  exact of_decide_eq_true (List.all_eq_true.mp key name h)

theorem clean_prepend {t : Cut} (h : Clean t) {text : List Char} (hopen : '\x7b' ∉ text)
    (hclose : '\x7d' ∉ text) : Clean (t.prepend text hopen) := by
  obtain ⟨hknown, hrest, hbefore⟩ := h
  obtain ⟨_ | ⟨m, marks⟩, rest, hr⟩ := t
  · exact ⟨hknown, fun hm => (List.mem_append.mp hm).elim hclose hrest, hbefore⟩
  · obtain ⟨hm, hms⟩ := List.forall_mem_cons.mp hbefore
    refine ⟨?_, hrest, List.forall_mem_cons.mpr ⟨?_, hms⟩⟩
    · exact List.forall_mem_cons.mpr (List.forall_mem_cons.mp hknown)
    · exact fun hm' => (List.mem_append.mp hm').elim hclose hm

/-- Pieces make a clean cut. -/
theorem exists_cut_of_pieces (pieces : List Piece) :
    ∃ t : Cut, t.join = pieces.flatMap Piece.chars ∧ Clean t := by
  induction pieces with
  | nil => exact ⟨.plain [] List.not_mem_nil, rfl, known_plain _ _, List.not_mem_nil,
      fun _ hm => (List.not_mem_nil hm).elim⟩
  | cons piece pieces ih =>
    obtain ⟨t, ht, hclean⟩ := ih
    rw [List.flatMap_cons, ← ht]
    cases piece with
    | literal text hopen hclose =>
      exact ⟨t.prepend text hopen, Marked.join_prepend text hopen t,
        clean_prepend hclean hopen hclose⟩
    | placeholder name known =>
      refine ⟨.cons ⟨[], name.toList, List.not_mem_nil, placeholder_free known⟩ t, ?_, ?_, ?_, ?_⟩
      · simp [Piece.chars]
      · refine List.forall_mem_cons.mpr ⟨?_, hclean.1⟩
        rw [String.ofList_toList]
        exact known
      · exact hclean.2.1
      · exact List.forall_mem_cons.mpr ⟨List.not_mem_nil, hclean.2.2⟩

/-- A clean cut is made of pieces. -/
theorem exists_pieces_of_clean {t : Cut} (h : Clean t) :
    ∃ pieces : List Piece, t.join = pieces.flatMap Piece.chars := by
  obtain ⟨hknown, hrest, hbefore⟩ := h
  induction t using Marked.induct with
  | plain rest hfree => exact ⟨[.literal rest hfree hrest], by simp [Piece.chars]⟩
  | cons m t ih =>
    obtain ⟨hm, hms⟩ := List.forall_mem_cons.mp hbefore
    obtain ⟨hk, hks⟩ := List.forall_mem_cons.mp hknown
    obtain ⟨pieces, hpieces⟩ := ih hks hrest hms
    refine ⟨.literal m.before m.before_free hm :: .placeholder (String.ofList m.name) hk :: pieces,
      ?_⟩
    rw [Marked.join_cons, hpieces]
    simp [Piece.chars]

/-- **The grammar, as a condition on the cut.** -/
theorem grammatical_iff {template : String} : Grammatical template ↔
    1 ≤ template.utf8ByteSize ∧ template.utf8ByteSize ≤ 4096 ∧
      ∃ t : Cut, t.join = template.toList ∧ Clean t := by
  refine and_congr_right fun _ => and_congr_right fun _ => ⟨?_, ?_⟩
  · rintro ⟨pieces, hpieces⟩
    rw [hpieces]
    exact exists_cut_of_pieces pieces
  · rintro ⟨t, ht, hclean⟩
    rw [← ht]
    exact exists_pieces_of_clean hclean

/-- A template of the grammar passes the check. -/
theorem validateTemplate_of_grammatical {template : String} (h : Grammatical template)
    (name : String) : validateTemplate name template = .ok () := by
  obtain ⟨hlow, hhigh, t, ht, hknown, hrest, _⟩ := grammatical_iff.mp h
  exact validateTemplate_ok.mpr ⟨hlow, hhigh, t, ht, hknown, hrest⟩

theorem validateTemplate_of_stray {template : String} (h : StrayClosing template) (name : String) :
    validateTemplate name template = .ok () := by
  obtain ⟨hlow, hhigh, t, ht, hknown, hrest, _⟩ := h
  exact validateTemplate_ok.mpr ⟨hlow, hhigh, t, ht, hknown, hrest⟩

theorem not_grammatical_of_stray {template : String} (h : StrayClosing template) :
    ¬ Grammatical template := by
  intro hg
  obtain ⟨_, _, t, ht, _, _, m, hm, hstray⟩ := h
  obtain ⟨_, _, t', ht', hclean⟩ := grammatical_iff.mp hg
  obtain rfl := Marked.join_injective t t' (ht.trans ht'.symm)
  exact hclean.2.2 m hm hstray

/-- **The check decides the grammar** on every template but those with a stray closing brace before
    a placeholder. -/
theorem validateTemplate_iff_grammatical (name template : String) :
    (validateTemplate name template = .ok () ↔ Grammatical template) ↔ ¬ StrayClosing template := by
  constructor
  · exact fun h hstray => not_grammatical_of_stray hstray
      (h.mp (validateTemplate_of_stray hstray name))
  · intro h
    refine ⟨fun hok => ?_, fun hg => validateTemplate_of_grammatical hg name⟩
    obtain ⟨hlow, hhigh, t, ht, hknown, hrest⟩ := validateTemplate_ok.mp hok
    refine grammatical_iff.mpr ⟨hlow, hhigh, t, ht, hknown, hrest, fun m hm hstray => h ?_⟩
    exact ⟨hlow, hhigh, t, ht, hknown, hrest, m, hm, hstray⟩

/-- A closing brace that closes nothing, before a placeholder, is admitted. -/
theorem stray_admitted : ¬ (validateTemplate "firing" "\x7d\x7bicon\x7d" = .ok () ↔
    Grammatical "\x7d\x7bicon\x7d") := by
  have hstray : StrayClosing "\x7d\x7bicon\x7d" := by
    refine ⟨by decide, by decide, .cons ⟨['\x7d'], "icon".toList, by decide, by decide⟩
      (.plain [] List.not_mem_nil), by decide, ?_, List.not_mem_nil, _, List.mem_cons_self,
      List.mem_singleton_self _⟩
    exact List.forall_mem_cons.mpr ⟨by decide, known_plain _ _⟩
  exact fun h => not_grammatical_of_stray hstray (h.mp (validateTemplate_of_stray hstray _))

/-! ## 4. Rendering -/

/-- The text a name is replaced by. -/
def valueOf (values : List (String × String)) (name : List Char) : List Char :=
  ((values.lookup (String.ofList name)).getD "").toList

/-- `render_template` without its fallbacks: `none` where a brace is not closed or a name has no
    value. -/
def renderChecked (values : List (String × String)) (rest : List Char) : Option (List Char) :=
  match _h : Text.splitOnce '\x7b' rest with
  | none => some rest
  | some (before, afterStart) =>
    match _h' : Text.splitOnce '\x7d' afterStart with
    | none => none
    | some (placeholder, rest') => do
      let value ← values.lookup (String.ofList placeholder)
      let tail ← renderChecked values rest'
      pure (before ++ value.toList ++ tail)
termination_by rest.length
decreasing_by
  have h1 := Text.splitOnce_length _h
  have h2 := Text.splitOnce_length _h'
  omega

section Render

variable (values : List (String × String))

/-- **Rendering fills the cut.** -/
theorem renderTemplate_join (t : Cut) : renderTemplate values t.join = t.fill (valueOf values) := by
  induction t using Marked.induct with
  | plain rest h =>
    rw [renderTemplate]
    split
    · rfl
    · rename_i hscan
      rw [Marked.splitOnce_plain h] at hscan
      cases hscan
  | cons m t ih =>
    have hmark := Marked.splitOnce_cons m t
    have hname := Marked.splitOnce_name m t
    rw [renderTemplate]
    split
    · rename_i hscan
      rw [hmark] at hscan
      cases hscan
    · rename_i hscan
      cases hmark.symm.trans hscan
      split
      · rename_i hscan'
        rw [hname] at hscan'
        cases hscan'
      · rename_i hscan'
        cases hname.symm.trans hscan'
        rw [ih, Marked.fill_cons, List.append_assoc]
        rfl

/-- If every name has a value, no fallback is taken. -/
theorem renderChecked_join (t : Cut)
    (h : ∀ m ∈ t.marks, (values.lookup (String.ofList m.name)).isSome) :
    renderChecked values t.join = some (t.fill (valueOf values)) := by
  induction t using Marked.induct with
  | plain rest hfree =>
    rw [renderChecked]
    split
    · rfl
    · rename_i hscan
      rw [Marked.splitOnce_plain hfree] at hscan
      cases hscan
  | cons m t ih =>
    obtain ⟨hm, ht⟩ := List.forall_mem_cons.mp h
    obtain ⟨value, hvalue⟩ := Option.isSome_iff_exists.mp hm
    have hmark := Marked.splitOnce_cons m t
    have hname := Marked.splitOnce_name m t
    rw [renderChecked]
    split
    · rename_i hscan
      rw [hmark] at hscan
      cases hscan
    · rename_i hscan
      cases hmark.symm.trans hscan
      split
      · rename_i hscan'
        rw [hname] at hscan'
        cases hscan'
      · rename_i hscan'
        cases hname.symm.trans hscan'
        rw [ih ht, hvalue, Marked.fill_cons, valueOf, hvalue]
        simp

/-- **An admitted template is filled once.** It has one cut, into placeholders with a value each and
    text without opening braces; the fallbacks are not taken, and what comes out is the cut with
    its names replaced. Two admitted templates in a row are filled one by one. -/
theorem renderTemplate_admitted {name template : String}
    (h : validateTemplate name template = .ok ())
    (hvalues : ∀ p ∈ placeholders, (values.lookup p).isSome) :
    (∃ t : Cut, t.join = template.toList ∧ (∀ t' : Cut, t'.join = template.toList → t' = t) ∧
      Known t ∧ (∀ m ∈ t.marks, ∃ value, values.lookup (String.ofList m.name) = some value ∧
        valueOf values m.name = value.toList) ∧
      renderTemplate values template.toList = t.fill (valueOf values)) ∧
    renderChecked values template.toList = some (renderTemplate values template.toList) ∧
    ∀ name' template', validateTemplate name' template' = .ok () →
      renderTemplate values (template ++ template').toList =
        renderTemplate values template.toList ++ renderTemplate values template'.toList := by
  obtain ⟨_, _, t, ht, hknown, _⟩ := validateTemplate_ok.mp h
  have hfill : renderTemplate values template.toList = t.fill (valueOf values) := by
    rw [← ht, renderTemplate_join]
  have hsome : ∀ m ∈ t.marks, (values.lookup (String.ofList m.name)).isSome :=
    fun m hm => hvalues _ (hknown m hm)
  refine ⟨⟨t, ht, fun t' ht' => ?_, hknown, fun m hm => ?_, hfill⟩, ?_, ?_⟩
  · exact Marked.join_injective t' t (ht'.trans ht.symm)
  · obtain ⟨value, hvalue⟩ := Option.isSome_iff_exists.mp (hsome m hm)
    exact ⟨value, hvalue, by rw [valueOf, hvalue, Option.getD_some]⟩
  · rw [hfill, ← ht, renderChecked_join values t hsome]
  · intro name' template' h'
    obtain ⟨_, _, t', ht', _⟩ := validateTemplate_ok.mp h'
    rw [String.toList_append, ← ht, ← ht', ← Marked.join_append, renderTemplate_join,
      renderTemplate_join, renderTemplate_join, Marked.fill_append]

end Render

namespace Sample

/-- A value for every placeholder; one of them looks like a placeholder. -/
def values : List (String × String) :=
  placeholders.map fun name => (name, if name = "title" then "\x7bseverity\x7d" else name)

end Sample

/-- The theorem at a format whose title is text with braces. -/
theorem renderTemplate_admitted_title :
    renderTemplate Sample.values ("\x7bicon\x7d \x7btitle\x7d" ++ "!").toList =
      renderTemplate Sample.values "\x7bicon\x7d \x7btitle\x7d".toList ++
        renderTemplate Sample.values "!".toList :=
  have hok : validateTemplate "firing" "\x7bicon\x7d \x7btitle\x7d" = .ok () := by decide +kernel
  (renderTemplate_admitted Sample.values hok (by decide)).2.2 "firing" "!" (by decide +kernel)

-- the braces of a value are text
example : String.ofList (renderTemplate Sample.values "\x7bicon\x7d \x7btitle\x7d".toList) =
    "icon \x7bseverity\x7d" := by
  decide +kernel

/-! ## 5. Messages -/

/-- Every placeholder has a value in a message. -/
theorem messageValues_defined (event : Event) (status : AlertStatus) (severity : Severity)
    (templates : MessageTemplates) :
    ∀ p ∈ placeholders, ((messageValues event status severity templates).lookup p).isSome := by
  intro p hp
  simp only [placeholders, List.mem_cons, List.not_mem_nil, or_false] at hp
  rcases hp with rfl | rfl | rfl | rfl | rfl | rfl | rfl | rfl <;> rfl

/-- The formats of checked templates are admitted. -/
theorem MessageTemplates.format_admitted {templates : MessageTemplates}
    (h : templates.validate = .ok ()) (status : AlertStatus) :
    ∃ name, validateTemplate name (templates.formats.format status) = .ok () := by
  obtain ⟨hfiring, h⟩ := seq_ok.mp h
  obtain ⟨hresolved, h⟩ := seq_ok.mp h
  obtain ⟨hinfo, _⟩ := seq_ok.mp h
  cases status with
  | firing => exact ⟨_, hfiring⟩
  | resolved => exact ⟨_, hresolved⟩
  | info => exact ⟨_, hinfo⟩

/-- **A message under checked templates is its format, filled once.** -/
theorem renderMessage_eq_fill {templates : MessageTemplates} (h : templates.validate = .ok ())
    (event : Event) (status : AlertStatus) (severity : Severity) :
    ∃ t : Cut, t.join = (templates.formats.format status).toList ∧ Known t ∧
      renderMessage event status severity templates =
        String.ofList (t.fill (valueOf (messageValues event status severity templates))) := by
  obtain ⟨name, hname⟩ := MessageTemplates.format_admitted h status
  obtain ⟨_, _, t, ht, hknown, _⟩ := validateTemplate_ok.mp hname
  refine ⟨t, ht, hknown, ?_⟩
  rw [renderMessage, ← ht, renderTemplate_join]

end Beacon
