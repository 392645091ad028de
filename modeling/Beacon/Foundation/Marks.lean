/-
  File:      Beacon/Foundation/Marks.lean
  Subject:   Text in which names are marked by an opening and a closing character.

  A scanner that looks for the next opening character, then for the next closing one, cuts a text
  into what stands before each mark, the marked names and a rest. `Marked` is such a cut; that
  no text before a mark holds the opening character and no name the closing one is part of the
  data, so a text has one cut at most.

  * `Marked.splitOnce_cons`, `Marked.splitOnce_name` -- a scanner finds the marks of the cut;
  * `Marked.join_injective` -- **a text is cut in one way**;
  * `Marked.join_append`, `Marked.fill_append` -- the cut of two texts in a row is made of their
    cuts, and so is what comes out when every name is replaced.
-/
import Beacon.Foundation.Text

namespace Foundation

variable {o c : Char}

/-- A marked name and the text before it. -/
@[ext] structure Mark (o c : Char) where
  before : List Char
  name : List Char
  before_free : o ∉ before
  name_free : c ∉ name

/-- Marked names and the text after the last of them. -/
@[ext] structure Marked (o c : Char) where
  marks : List (Mark o c)
  rest : List Char
  rest_free : o ∉ rest

namespace Marked

/-- A text without a mark. -/
def plain (rest : List Char) (h : o ∉ rest) : Marked o c := ⟨[], rest, h⟩

/-- A mark in front. -/
def cons (m : Mark o c) (t : Marked o c) : Marked o c := ⟨m :: t.marks, t.rest, t.rest_free⟩

/-- Induction over the marks. -/
@[elab_as_elim] theorem induct {motive : Marked o c → Prop}
    (plain : ∀ rest h, motive (plain rest h))
    (cons : ∀ m t, motive t → motive (cons m t)) : ∀ t, motive t
  | ⟨[], rest, h⟩ => plain rest h
  | ⟨m :: marks, rest, h⟩ => cons m ⟨marks, rest, h⟩ (induct plain cons ⟨marks, rest, h⟩)

/-! ## 1. The text of a cut -/

/-- The text that was cut. -/
def join (t : Marked o c) : List Char :=
  t.marks.flatMap (fun m => m.before ++ o :: (m.name ++ [c])) ++ t.rest

@[simp] theorem join_plain (rest : List Char) (h : o ∉ rest) :
    (plain rest h : Marked o c).join = rest := rfl

@[simp] theorem join_cons (m : Mark o c) (t : Marked o c) :
    (cons m t).join = m.before ++ o :: (m.name ++ c :: t.join) := by
  simp [join, cons]

/-- The scanner stops at the first mark. -/
theorem splitOnce_cons (m : Mark o c) (t : Marked o c) :
    Text.splitOnce o (cons m t).join = some (m.before, m.name ++ c :: t.join) := by
  rw [join_cons, Text.splitOnce_append m.before_free]

/-- The scanner stops at the end of the name. -/
theorem splitOnce_name (m : Mark o c) (t : Marked o c) :
    Text.splitOnce c (m.name ++ c :: t.join) = some (m.name, t.join) :=
  Text.splitOnce_append m.name_free _

/-- The scanner finds no mark in the rest. -/
theorem splitOnce_plain {rest : List Char} (h : o ∉ rest) :
    Text.splitOnce o (plain rest h : Marked o c).join = none :=
  Text.splitOnce_eq_none.mpr h

/-- **A text is cut in one way.** -/
theorem join_injective (s : Marked o c) : ∀ t : Marked o c, s.join = t.join → s = t := by
  induction s using induct with
  | plain rest h =>
    intro t e
    induction t using induct with
    | plain rest' h' => exact Marked.ext rfl e
    | cons m t _ =>
      have hscan := splitOnce_plain (c := c) h
      rw [e, splitOnce_cons] at hscan
      cases hscan
  | cons m s ih =>
    intro t e
    induction t using induct with
    | plain rest h =>
      have hscan := splitOnce_plain (c := c) h
      rw [← e, splitOnce_cons] at hscan
      cases hscan
    | cons m' t _ =>
      have hscan := splitOnce_cons m s
      rw [e, splitOnce_cons] at hscan
      obtain ⟨hbefore, hafter⟩ := Prod.mk.inj (Option.some.inj hscan)
      have hname := splitOnce_name m s
      rw [← hafter, splitOnce_name] at hname
      obtain ⟨hn, hrest⟩ := Prod.mk.inj (Option.some.inj hname)
      rw [Mark.ext hbefore.symm hn.symm, ih t hrest.symm]

/-- The cut of a text; `none` where a mark is not closed. -/
def cut (rest : List Char) : Option (Marked o c) :=
  match h : Text.splitOnce o rest with
  | none => some (plain rest (Text.splitOnce_eq_none.mp h))
  | some (before, after) =>
    match h' : Text.splitOnce c after with
    | none => none
    | some (name, rest') =>
      (cut rest').map (cons ⟨before, name, (Text.splitOnce_eq_some h).2, (Text.splitOnce_eq_some h').2⟩)
termination_by rest.length
decreasing_by
  have h1 := Text.splitOnce_length h
  have h2 := Text.splitOnce_length h'
  omega

theorem join_of_cut {rest : List Char} {t : Marked o c} (h : cut rest = some t) : t.join = rest := by
  fun_induction cut rest generalizing t with
  | case1 rest hscan =>
    cases h
    rfl
  | case2 => cases h
  | case3 rest before after hscan name rest' hname ih =>
    obtain ⟨t', ht', rfl⟩ := Option.map_eq_some_iff.mp h
    rw [join_cons, ih ht', ← (Text.splitOnce_eq_some hname).1, ← (Text.splitOnce_eq_some hscan).1]

/-! ## 2. Names replaced -/

/-- The text with every name replaced by its value, once. -/
def fill (value : List Char → List Char) (t : Marked o c) : List Char :=
  t.marks.flatMap (fun m => m.before ++ value m.name) ++ t.rest

@[simp] theorem fill_plain (value : List Char → List Char) (rest : List Char) (h : o ∉ rest) :
    (plain rest h : Marked o c).fill value = rest := rfl

@[simp] theorem fill_cons (value : List Char → List Char) (m : Mark o c) (t : Marked o c) :
    (cons m t).fill value = m.before ++ (value m.name ++ t.fill value) := by
  simp [fill, cons]

/-! ## 3. Texts in a row -/

/-- A cut with more text in front. -/
def prepend (text : List Char) (h : o ∉ text) : Marked o c → Marked o c
  | ⟨[], rest, hr⟩ => ⟨[], text ++ rest, fun hm => (List.mem_append.mp hm).elim h hr⟩
  | ⟨m :: marks, rest, hr⟩ =>
    ⟨⟨text ++ m.before, m.name, fun hm => (List.mem_append.mp hm).elim h m.before_free,
      m.name_free⟩ :: marks, rest, hr⟩

theorem join_prepend (text : List Char) (h : o ∉ text) (t : Marked o c) :
    (t.prepend text h).join = text ++ t.join := by
  obtain ⟨_ | ⟨m, marks⟩, rest, hr⟩ := t
  · rfl
  · simp [prepend, join]

theorem fill_prepend (value : List Char → List Char) (text : List Char) (h : o ∉ text)
    (t : Marked o c) : (t.prepend text h).fill value = text ++ t.fill value := by
  obtain ⟨_ | ⟨m, marks⟩, rest, hr⟩ := t
  · rfl
  · simp [prepend, fill]

/-- One cut after another. -/
def append (s t : Marked o c) : Marked o c :=
  let t' := t.prepend s.rest s.rest_free
  ⟨s.marks ++ t'.marks, t'.rest, t'.rest_free⟩

theorem join_append (s t : Marked o c) : (s.append t).join = s.join ++ t.join := by
  have h := join_prepend s.rest s.rest_free t
  simp only [append, join, List.flatMap_append, List.append_assoc] at h ⊢
  rw [h]

theorem fill_append (value : List Char → List Char) (s t : Marked o c) :
    (s.append t).fill value = s.fill value ++ t.fill value := by
  have h := fill_prepend value s.rest s.rest_free t
  simp only [append, fill, List.flatMap_append, List.append_assoc] at h ⊢
  rw [h]

end Marked

end Foundation
