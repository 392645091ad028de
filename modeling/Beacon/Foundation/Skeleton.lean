/-
  File:      Beacon/Foundation/Skeleton.lean
  Subject:   Texts with holes.

  A skeleton is a sequence of texts and named holes; filling it puts a value into every hole, so
  two ways to fill one skeleton differ inside the values only. Skeletons can be put into the holes
  of another one.

  * `length_fill`, `count_fill_of_free` -- **what is filled in**: how long it is, and how often it
    has a letter that no value has;
  * `fill_replace`, `holes_replace` -- skeletons in the holes of a skeleton;
  * `Led.suffix_fill` -- every hole comes right behind its lead, whatever is filled in;
  * `fill_ofMarked` -- a cut text (`Foundation/Marks.lean`) is a skeleton, its names the holes.
-/
import Beacon.Foundation.Marks
import Mathlib.Algebra.GroupWithZero.Nat

namespace Foundation

inductive Segment (α κ : Type) where
  | text (l : List α)
  | hole (k : κ)

abbrev Skeleton (α κ : Type) := List (Segment α κ)

variable {α κ κ' : Type}

def Segment.fill (value : κ → List α) : Segment α κ → List α
  | .text l => l
  | .hole k => value k

def Segment.hole? : Segment α κ → Option κ
  | .text _ => none
  | .hole k => some k

def Segment.replace (f : κ → Skeleton α κ') : Segment α κ → Skeleton α κ'
  | .text l => [.text l]
  | .hole k => f k

namespace Skeleton

/-- The text with a value in every hole. -/
def fill (value : κ → List α) (s : Skeleton α κ) : List α := s.flatMap (Segment.fill value)

/-- The names of the holes, in order. -/
def holes (s : Skeleton α κ) : List κ := s.filterMap Segment.hole?

/-- A skeleton in every hole. -/
def replace (f : κ → Skeleton α κ') (s : Skeleton α κ) : Skeleton α κ' := s.flatMap (Segment.replace f)

/-- The text around the holes. -/
def texts (s : Skeleton α κ) : List α := s.fill fun _ => []

/-! ## 1. Segment by segment -/

section Segments

variable (value : κ → List α) (l : List α) (k : κ) (s t : Skeleton α κ)

@[simp] theorem fill_nil : fill value ([] : Skeleton α κ) = [] := rfl

@[simp] theorem fill_text : fill value (.text l :: s) = l ++ fill value s := rfl

@[simp] theorem fill_hole : fill value (.hole k :: s) = value k ++ fill value s := rfl

@[simp] theorem fill_append : fill value (s ++ t) = fill value s ++ fill value t :=
  List.flatMap_append

@[simp] theorem holes_nil : holes ([] : Skeleton α κ) = [] := rfl

@[simp] theorem holes_text : holes (.text l :: s) = holes s := rfl

@[simp] theorem holes_hole : holes (.hole k :: s) = k :: holes s := rfl

@[simp] theorem holes_append : holes (s ++ t) = holes s ++ holes t := List.filterMap_append

@[simp] theorem texts_text : texts (.text l :: s) = l ++ texts s := rfl

@[simp] theorem texts_hole : texts (.hole k :: s) = texts s := rfl

variable (f : κ → Skeleton α κ')

@[simp] theorem replace_text : replace f (.text l :: s) = .text l :: replace f s := rfl

@[simp] theorem replace_hole : replace f (.hole k :: s) = f k ++ replace f s := rfl

end Segments

/-- Induction over the segments. -/
@[elab_as_elim] theorem induct {motive : Skeleton α κ → Prop} (nil : motive [])
    (text : ∀ l s, motive s → motive (.text l :: s))
    (hole : ∀ k s, motive s → motive (.hole k :: s)) : ∀ s, motive s
  | [] => nil
  | .text l :: s => text l s (induct nil text hole s)
  | .hole k :: s => hole k s (induct nil text hole s)

/-! ## 2. What is filled in -/

/-- Only the values of the holes matter. -/
theorem fill_congr {v w : κ → List α} {s : Skeleton α κ} (h : ∀ k ∈ s.holes, v k = w k) :
    s.fill v = s.fill w := by
  induction s using induct with
  | nil => rfl
  | text l s ih => rw [fill_text, fill_text, ih h]
  | hole k s ih =>
    obtain ⟨hk, hs⟩ := List.forall_mem_cons.mp h
    rw [fill_hole, fill_hole, hk, ih hs]

/-- **The length of a filled skeleton** is that of its texts and of the values of its holes. -/
theorem length_fill (v : κ → List α) (s : Skeleton α κ) :
    (s.fill v).length = s.texts.length + (s.holes.map fun k => (v k).length).sum := by
  induction s using induct with
  | nil => rfl
  | text l s ih =>
    rw [fill_text, texts_text, holes_text, List.length_append, List.length_append, ih]
    omega
  | hole k s ih =>
    rw [fill_hole, texts_hole, holes_hole, List.length_append, ih, List.map_cons, List.sum_cons]
    omega

/-- What no value holds is counted in the texts. -/
theorem count_fill_of_free [BEq α] [LawfulBEq α] {a : α} {v : κ → List α} {s : Skeleton α κ}
    (h : ∀ k ∈ s.holes, a ∉ v k) : (s.fill v).count a = s.texts.count a := by
  induction s using induct with
  | nil => rfl
  | text l s ih => rw [fill_text, texts_text, List.count_append, List.count_append, ih h]
  | hole k s ih =>
    obtain ⟨hk, hs⟩ := List.forall_mem_cons.mp h
    rw [fill_hole, texts_hole, List.count_append, List.count_eq_zero.mpr hk, ih hs, Nat.zero_add]

/-! ## 3. Skeletons in holes -/

theorem fill_replace (v : κ' → List α) (f : κ → Skeleton α κ') (s : Skeleton α κ) :
    (s.replace f).fill v = s.fill fun k => (f k).fill v := by
  induction s using induct with
  | nil => rfl
  | text l s ih => rw [replace_text, fill_text, fill_text, ih]
  | hole k s ih => rw [replace_hole, fill_append, fill_hole, ih]

theorem holes_replace (f : κ → Skeleton α κ') (s : Skeleton α κ) :
    (s.replace f).holes = s.holes.flatMap fun k => (f k).holes := by
  induction s using induct with
  | nil => rfl
  | text l s ih => rw [replace_text, holes_text, holes_text, ih]
  | hole k s ih => rw [replace_hole, holes_append, holes_hole, List.flatMap_cons, ih]

theorem fill_intercalate (v : κ → List α) (sep : List α) (lines : List (Skeleton α κ)) :
    fill v (List.intercalate [.text sep] lines) = List.intercalate sep (lines.map (fill v)) := by
  induction lines with
  | nil => rfl
  | cons s lines ih =>
    cases lines with
    | nil => simp
    | cons t lines =>
      rw [List.intercalate_cons_cons, List.map_cons, List.map_cons, List.intercalate_cons_cons,
        ← List.map_cons, ← ih, fill_append, fill_append, fill_text, fill_nil, List.append_nil]

theorem holes_intercalate (sep : List α) (lines : List (Skeleton α κ)) :
    holes (List.intercalate [.text sep] lines) = lines.flatMap holes := by
  induction lines with
  | nil => rfl
  | cons s lines ih =>
    cases lines with
    | nil => simp
    | cons t lines =>
      rw [List.intercalate_cons_cons, List.flatMap_cons, ← ih, holes_append, holes_append,
        holes_text, holes_nil, List.append_nil]

/-! ## 4. Leads -/

/-- Every hole comes right behind a text that ends with its lead. -/
inductive Led (lead : κ → List α) : Skeleton α κ → Prop where
  | nil : Led lead []
  | text (l : List α) {s : Skeleton α κ} (h : Led lead s) : Led lead (.text l :: s)
  | hole (l : List α) (k : κ) {s : Skeleton α κ} (hl : lead k <:+ l) (h : Led lead s) :
      Led lead (.text l :: .hole k :: s)

variable {lead : κ → List α} {s t : Skeleton α κ}

theorem Led.append (hs : Led lead s) (ht : Led lead t) : Led lead (s ++ t) := by
  induction hs with
  | nil => exact ht
  | text l _ ih => exact .text l ih
  | hole l k hl _ ih => exact .hole l k hl ih

theorem Led.intercalate {sep : List α} {lines : List (Skeleton α κ)}
    (h : ∀ s ∈ lines, Led lead s) : Led lead (List.intercalate [.text sep] lines) := by
  induction lines with
  | nil => exact .nil
  | cons s lines ih =>
    obtain ⟨hs, hlines⟩ := List.forall_mem_cons.mp h
    cases lines with
    | nil =>
      rw [List.intercalate_singleton]
      exact hs
    | cons t lines =>
      rw [List.intercalate_cons_cons]
      exact (hs.append (.text sep .nil)).append (ih hlines)

theorem Led.replace {s : Skeleton α κ'} {f : κ' → Skeleton α κ}
    (h : ∀ k ∈ s.holes, Led lead (f k)) : Led lead (s.replace f) := by
  induction s using induct with
  | nil => exact .nil
  | text l s ih => exact .text l (ih h)
  | hole k s ih =>
    obtain ⟨hk, hs⟩ := List.forall_mem_cons.mp h
    exact hk.append (ih hs)

/-- **A hole comes right behind its lead**, whatever is filled in before it. -/
theorem Led.suffix_fill (h : Led lead s) (v : κ → List α) {before behind : Skeleton α κ} {k : κ}
    (e : s = before ++ .hole k :: behind) : lead k <:+ before.fill v := by
  induction h generalizing before with
  | nil => exact absurd e.symm (by simp)
  | text l h ih =>
    cases before with
    | nil => cases e
    | cons x before =>
      rw [List.cons_append, List.cons.injEq] at e
      rw [← e.1]
      exact List.suffix_append_of_suffix (ih e.2)
  | hole l k' hl h ih =>
    rcases before with _ | ⟨x, _ | ⟨y, before⟩⟩
    · cases e
    · cases e
      rwa [fill_text, fill_nil, List.append_nil]
    · simp only [List.cons_append, List.cons.injEq] at e
      rw [← e.1, ← e.2.1]
      exact List.suffix_append_of_suffix (List.suffix_append_of_suffix (ih e.2.2))

/-! ## 5. Cut texts -/

variable {o c : Char}

/-- A cut text, its names the holes. -/
def ofMarked (t : Marked o c) : Skeleton Char (List Char) :=
  t.marks.flatMap (fun m => [.text m.before, .hole m.name]) ++ [.text t.rest]

theorem ofMarked_plain (rest : List Char) (h : o ∉ rest) :
    ofMarked (.plain rest h : Marked o c) = [.text rest] := rfl

theorem ofMarked_cons (m : Mark o c) (t : Marked o c) :
    ofMarked (.cons m t) = .text m.before :: .hole m.name :: ofMarked t := rfl

theorem fill_ofMarked (v : List Char → List Char) (t : Marked o c) :
    (ofMarked t).fill v = t.fill v := by
  induction t using Marked.induct with
  | plain rest h => rw [ofMarked_plain, fill_text, fill_nil, List.append_nil, Marked.fill_plain]
  | cons m t ih => rw [ofMarked_cons, fill_text, fill_hole, ih, Marked.fill_cons]

theorem holes_ofMarked (t : Marked o c) : (ofMarked t).holes = t.marks.map Mark.name := by
  induction t using Marked.induct with
  | plain rest h => rfl
  | cons m t ih =>
    rw [ofMarked_cons, holes_text, holes_hole, ih]
    rfl

end Skeleton

end Foundation
