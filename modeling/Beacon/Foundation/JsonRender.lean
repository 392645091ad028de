/-
  File:      Beacon/Foundation/JsonRender.lean
  Subject:   Printed JSON texts, compact or indented, and what a reader makes of them.

  `render` prints a value at an indentation. Reading a printed value gives it back where its
  depth fits, and refuses it where it does not; there is no third case, so the bound on nesting
  is exactly what separates the documents that can be read again from those that can not.

  * `render_compact` -- the compact text is the one of `Json.print`;
  * `readValue_render`, `readObject_render` -- **a printed value reads back if its depth fits, and
    is refused if not**;
  * `readMembers_leading` -- members read back whatever stands behind them.
-/
import Beacon.Foundation.JsonReader

namespace Foundation

namespace Json

/-! ## 1. Printed texts -/

/-- A line break and its indentation; nothing in a compact text. -/
def newline (pretty : Bool) (level : Nat) : List Char :=
  if pretty then '\n' :: List.replicate (2 * level) ' ' else []

def colon (pretty : Bool) : List Char := if pretty then [':', ' '] else [':']

mutual

/-- The text of a value that stands at an indentation. -/
def render (pretty : Bool) (level : Nat) : Json → List Char
  | .arr items => '[' :: renderItems pretty level true items
  | .obj members => '\x7b' :: renderMembers pretty level true members
  | .null => print .null
  | .bool b => print (.bool b)
  | .num n => printNumber n
  | .str s => printString s

/-- The items of an array and its closing bracket. -/
def renderItems (pretty : Bool) (level : Nat) : Bool → List Json → List Char
  | first, [] => (if first then [] else newline pretty level) ++ [']']
  | first, x :: xs => (if first then [] else [',']) ++ (newline pretty (level + 1) ++
      (render pretty (level + 1) x ++ renderItems pretty level false xs))

/-- The members of an object and its closing brace. -/
def renderMembers (pretty : Bool) (level : Nat) : Bool → List (String × Json) → List Char
  | first, [] => (if first then [] else newline pretty level) ++ ['\x7d']
  | first, (k, v) :: ms => (if first then [] else [',']) ++ (newline pretty (level + 1) ++
      (printString k ++ (colon pretty ++
        (render pretty (level + 1) v ++ renderMembers pretty level false ms))))

end

mutual

/-- The compact text is the one of `print`. -/
theorem render_compact (level : Nat) : ∀ v : Json, render false level v = print v
  | .arr items => by rw [render, print, renderItems_compact]
  | .obj members => by rw [render, print, renderMembers_compact]
  | .null => rfl
  | .bool _ => rfl
  | .num _ => by rw [render, print]
  | .str _ => by rw [render, print]

theorem renderItems_compact (level : Nat) : ∀ (first : Bool) (items : List Json),
    renderItems false level first items = printItems first items
  | true, [] => rfl
  | false, [] => rfl
  | first, x :: xs => by
    rw [renderItems, printItems, render_compact (level + 1) x, renderItems_compact level false xs]
    rfl

theorem renderMembers_compact (level : Nat) : ∀ (first : Bool) (members : List (String × Json)),
    renderMembers false level first members = printMembers first members
  | true, [] => rfl
  | false, [] => rfl
  | first, (k, v) :: ms => by
    rw [renderMembers, printMembers, render_compact (level + 1) v,
      renderMembers_compact level false ms]
    rfl

end

/-! ## 2. Printed texts read back -/

mutual

/-- The fuel that reads the value. -/
def fuelFor : Json → Nat
  | .arr items => fuelForItems items + 1
  | .obj members => fuelForMembers members + 1
  | _ => 1

def fuelForItems : List Json → Nat
  | [] => 1
  | x :: xs => max x.fuelFor (fuelForItems xs) + 1

def fuelForMembers : List (String × Json) → Nat
  | [] => 1
  | (_, v) :: ms => max v.fuelFor (fuelForMembers ms) + 1

end

section Render

variable [FloatFormat]

omit [FloatFormat] in
theorem insertMember_last {k : String} {v : Json} {ms : List (String × Json)}
    (h : ∀ m ∈ ms, m.1 < k) : insertMember k v ms = ms ++ [(k, v)] := by
  induction ms with
  | nil => rfl
  | cons m ms ih =>
    have hlt : m.1 < k := h m List.mem_cons_self
    rw [insertMember, if_neg (lt_asymm hlt), if_neg (ne_of_gt hlt),
      ih fun x hx => h x (List.mem_cons_of_mem m hx), List.cons_append]

omit [FloatFormat] in
/-- Members that are sorted stay as they stand. -/
theorem sortMembers_sorted {ms : List (String × Json)}
    (h : ms.Pairwise fun a b => a.1 < b.1) : sortMembers ms = ms := by
  have key : ∀ (ms sorted : List (String × Json)),
      (sorted ++ ms).Pairwise (fun a b => a.1 < b.1) →
        ms.foldl (fun sorted m => insertMember m.1 m.2 sorted) sorted = sorted ++ ms := by
    intro ms
    induction ms with
    | nil => exact fun sorted _ => (List.append_nil sorted).symm
    | cons m ms ih =>
      intro sorted h
      have hlast : ∀ x ∈ sorted, x.1 < m.1 := fun x hx =>
        (List.pairwise_append.mp h).2.2 x hx m List.mem_cons_self
      rw [List.foldl_cons, insertMember_last hlast, ih]
      · rw [List.append_assoc]
        rfl
      · rwa [List.append_assoc]
  exact key ms [] h

/-- The text does not go on with a number. -/
def Follows (r : List Char) : Prop := ∀ c ∈ r.head?, isNumberChar c = false

omit [FloatFormat] in
theorem follows_cons {c : Char} (h : isNumberChar c = false) (r : List Char) :
    Follows (c :: r) := by
  intro d hd
  cases hd
  exact h

omit [FloatFormat] in
theorem follows_newline (pretty : Bool) (level : Nat) {r : List Char} (h : Follows r) :
    Follows (newline pretty level ++ r) := by
  cases pretty with
  | false => exact h
  | true => exact follows_cons rfl _

omit [FloatFormat] in
theorem follows_items (pretty : Bool) (level : Nat) (r : List Char) :
    ∀ xs : List Json, Follows (renderItems pretty level false xs ++ r)
  | [] => by
    rw [renderItems, if_neg Bool.false_ne_true, List.append_assoc]
    exact follows_newline _ _ (follows_cons rfl _)
  | _ :: _ => follows_cons rfl _

omit [FloatFormat] in
theorem follows_members (pretty : Bool) (level : Nat) (r : List Char) :
    ∀ ms : List (String × Json), Follows (renderMembers pretty level false ms ++ r)
  | [] => by
    rw [renderMembers, if_neg Bool.false_ne_true, List.append_assoc]
    exact follows_newline _ _ (follows_cons rfl _)
  | _ :: _ => follows_cons rfl _

omit [FloatFormat] in
theorem skipBlank_cons {c : Char} (h : isBlank c = false) (r : List Char) :
    skipBlank (c :: r) = c :: r := List.dropWhile_cons_of_neg (by rw [h]; exact Bool.false_ne_true)

omit [FloatFormat] in
theorem skipBlank_newline (pretty : Bool) (level : Nat) (r : List Char) :
    skipBlank (newline pretty level ++ r) = skipBlank r := by
  cases pretty with
  | false => rfl
  | true =>
    refine List.dropWhile_append_of_pos fun c hc => ?_
    rcases List.mem_cons.mp hc with rfl | hc
    · rfl
    · rw [(List.mem_replicate.mp hc).2]
      rfl

theorem readValue_newline (fuel remaining : Nat) (pretty : Bool) (level : Nat) (r : List Char) :
    readValue fuel remaining (newline pretty level ++ r) = readValue fuel remaining r := by
  cases fuel with
  | zero => rw [readValue, readValue]
  | succ fuel => rw [readValue, readValue, skipBlank_newline]

/-- The text of a number that reads back. -/
theorem Sound.cons {n : Number} (h : Sound n) : ∃ c t, printNumber n = c :: t ∧
    isNumberChar c = true := by
  cases hn : printNumber n with
  | nil =>
    have hreads := h.reads
    rw [hn] at hreads
    cases hreads
  | cons c t => exact ⟨c, t, rfl, h.chars c (by rw [hn]; exact List.mem_cons_self)⟩

omit [FloatFormat] in
theorem isNumberChar_ne {c d : Char} (h : isNumberChar c = true) (hd : isNumberChar d = false) :
    c ≠ d := by
  rintro rfl
  rw [h] at hd
  cases hd

omit [FloatFormat] in
theorem isBlank_of_number {c : Char} (h : isNumberChar c = true) : isBlank c = false := by
  unfold isBlank
  rw [decide_eq_false (isNumberChar_ne h rfl), decide_eq_false (isNumberChar_ne h rfl),
    decide_eq_false (isNumberChar_ne h rfl), decide_eq_false (isNumberChar_ne h rfl)]
  rfl

/-- A value starts with no blank and no closing bracket. -/
theorem render_head (pretty : Bool) (level : Nat) : ∀ v : Json, v.Readable →
    ∃ c t, render pretty level v = c :: t ∧ isBlank c = false ∧ c ≠ ']'
  | .null, _ => ⟨'n', _, rfl, rfl, by decide⟩
  | .bool true, _ => ⟨'t', _, rfl, rfl, by decide⟩
  | .bool false, _ => ⟨'f', _, rfl, rfl, by decide⟩
  | .str s, _ => ⟨'\"', printChars s.toList, by rw [render]; rfl, rfl, by decide⟩
  | .arr items, _ => ⟨'[', _, by rw [render], rfl, by decide⟩
  | .obj members, _ => ⟨'\x7b', _, by rw [render], rfl, by decide⟩
  | .num n, h => by
    rw [Readable] at h
    obtain ⟨c, t, hc, hnum⟩ := h.cons
    exact ⟨c, t, by rw [render, hc], isBlank_of_number hnum, isNumberChar_ne hnum rfl⟩

theorem readItems_cons (fuel remaining : Nat) (first pretty : Bool) (level : Nat) {c : Char}
    (hblank : isBlank c = false) (hclose : c ≠ ']') (t : List Char) :
    readItems (fuel + 1) remaining first
      ((if first then [] else [',']) ++ (newline pretty level ++ c :: t)) =
      (readValue fuel remaining (c :: t)).bind fun v =>
        (readItems fuel remaining false v.2).map fun items => (v.1 :: items.1, items.2) := by
  cases first with
  | true =>
    rw [if_pos rfl, List.nil_append, readItems, skipBlank_newline, skipBlank_cons hblank]
    split
    · rename_i r he
      exact absurd (List.cons.inj he).1 hclose
    · rfl
  | false =>
    rw [if_neg Bool.false_ne_true, List.singleton_append, readItems, skipBlank_cons rfl]
    show (readValue fuel remaining (newline pretty level ++ c :: t)).bind _ = _
    rw [readValue_newline]

omit [FloatFormat] in
theorem readKey_print (pretty : Bool) (level : Nat) (k : String) (t : List Char) :
    readKey (newline pretty level ++ (printString k ++ ':' :: t)) = some (k, t) := by
  rw [readKey, skipBlank_newline, printString, List.cons_append, skipBlank_cons rfl]
  simp only [readString_print, Option.bind_some]
  rw [skipBlank_cons rfl]
  rfl

theorem readMembers_cons (fuel remaining : Nat) (first pretty : Bool) (level : Nat) (k : String)
    (t : List Char) :
    readMembers (fuel + 1) remaining first
      ((if first then [] else [',']) ++ (newline pretty level ++
        (printString k ++ (colon pretty ++ t)))) =
      (readValue fuel remaining t).bind fun v =>
        (readMembers fuel remaining false v.2).map fun ms => ((k, v.1) :: ms.1, ms.2) := by
  obtain ⟨t', hcolon, hvalue⟩ : ∃ t', colon pretty ++ t = ':' :: t' ∧
      readValue fuel remaining t' = readValue fuel remaining t := by
    cases pretty with
    | false => exact ⟨t, rfl, rfl⟩
    | true =>
      refine ⟨' ' :: t, rfl, ?_⟩
      cases fuel with
      | zero => rw [readValue, readValue]
      | succ fuel => rw [readValue, readValue]; rfl
  rw [hcolon]
  cases first with
  | true =>
    have hkey := readKey_print false level k t'
    rw [if_pos rfl, List.nil_append, readMembers, skipBlank_newline]
    rw [printString, List.cons_append, skipBlank_cons rfl]
    show (readKey (printString k ++ ':' :: t')).bind _ = _
    rw [show readKey (printString k ++ ':' :: t') = some (k, t') from hkey, Option.bind_some, hvalue]
  | false =>
    rw [if_neg Bool.false_ne_true, List.singleton_append, readMembers, skipBlank_cons rfl]
    show (readKey (newline pretty level ++ (printString k ++ ':' :: t'))).bind _ = _
    rw [readKey_print, Option.bind_some, hvalue]

omit [FloatFormat] in
theorem fuelFor_pos : ∀ v : Json, 0 < v.fuelFor
  | .null | .bool _ | .num _ | .str _ => Nat.one_pos
  | .arr _ | .obj _ => Nat.succ_pos _

omit [FloatFormat] in
theorem fuelForItems_pos : ∀ items : List Json, 0 < fuelForItems items
  | [] => Nat.one_pos
  | _ :: _ => Nat.succ_pos _

omit [FloatFormat] in
theorem fuelForMembers_pos : ∀ members : List (String × Json), 0 < fuelForMembers members
  | [] => Nat.one_pos
  | (_, _) :: _ => Nat.succ_pos _

/-- Entering an array or an object takes one of the depth. -/
theorem readValue_array (fuel remaining : Nat) (r : List Char) :
    readValue (fuel + 1) remaining ('[' :: r) = if remaining ≤ 1 then none
      else (readItems fuel (remaining - 1) true r).map fun items => (.arr items.1, items.2) := by
  rw [readValue, skipBlank_cons rfl]
  rfl

theorem readValue_object (fuel remaining : Nat) (r : List Char) :
    readValue (fuel + 1) remaining ('\x7b' :: r) = if remaining ≤ 1 then none
      else (readMembers fuel (remaining - 1) true r).map fun ms =>
        (.obj (sortMembers ms.1), ms.2) := by
  rw [readValue, skipBlank_cons rfl]
  rfl

theorem readValue_string (fuel remaining : Nat) (s : String) (r : List Char) :
    readValue (fuel + 1) remaining (printString s ++ r) = some (.str s, r) := by
  rw [printString, List.cons_append, readValue, skipBlank_cons rfl]
  show (readString (printChars s.toList ++ r)).map _ = _
  rw [readString_print]
  rfl

/-- A literal is read whole. -/
theorem readValue_literal (fuel remaining : Nat) {c : Char} {t r : List Char}
    (hliteral : ∀ d ∈ c :: t, isNumberChar d = true) (hr : Follows r) :
    readValue (fuel + 1) remaining (c :: t ++ r) =
      (readNumber (c :: t)).map fun n => (.num n, r) := by
  have hc : isNumberChar c = true := hliteral c List.mem_cons_self
  have hstop : r.takeWhile isNumberChar = [] ∧ r.dropWhile isNumberChar = r := by
    cases r with
    | nil => exact ⟨rfl, rfl⟩
    | cons d r =>
      have hd : ¬ isNumberChar d = true := by
        rw [hr d rfl]
        exact Bool.false_ne_true
      exact ⟨List.takeWhile_cons_of_neg hd, List.dropWhile_cons_of_neg hd⟩
  have htake : (c :: t ++ r).takeWhile isNumberChar = c :: t := by
    rw [List.takeWhile_append_of_pos hliteral, hstop.1, List.append_nil]
  have hdrop : (c :: t ++ r).dropWhile isNumberChar = r := by
    rw [List.dropWhile_append_of_pos hliteral, hstop.2]
  rw [List.cons_append] at htake hdrop ⊢
  rw [readValue, skipBlank_cons (isBlank_of_number hc)]
  show (if c = '\"' then _ else if c = '[' then _ else if c = '\x7b' then _ else
    if isNumberChar c then _ else _) = _
  rw [if_neg (isNumberChar_ne hc rfl), if_neg (isNumberChar_ne hc rfl),
    if_neg (isNumberChar_ne hc rfl), if_pos hc, htake, hdrop]

theorem readValue_number (fuel remaining : Nat) {n : Number} (h : Sound n) {r : List Char}
    (hr : Follows r) : readValue (fuel + 1) remaining (printNumber n ++ r) = some (.num n, r) := by
  obtain ⟨c, t, hn, _⟩ := h.cons
  have hchars := h.chars
  have hreads := h.reads
  rw [hn] at hchars hreads ⊢
  rw [readValue_literal fuel remaining hchars hr, hreads]
  rfl

omit [FloatFormat] in
/-- What an array or an object makes of the answer for what is inside. -/
theorem enter_depth {α β : Type} (f : α → β) (x : α) (inner remaining : Nat) :
    (if remaining ≤ 1 then none
      else (if inner < remaining - 1 then some x else none : Option α).map f) =
      if inner + 1 < remaining then some (f x) else none := by
  by_cases h : inner + 1 < remaining
  · rw [if_neg (by omega), if_pos (by omega : inner < remaining - 1), if_pos h]
    rfl
  · rw [if_neg h]
    split
    · rfl
    · rw [if_neg (by omega)]
      rfl

omit [FloatFormat] in
/-- What a list makes of the answers for its head and for its tail. -/
theorem both_depth {α β γ : Type} (f : α → β → γ) (x : α) (y : β) (m n remaining : Nat)
    (r s : List Char) :
    ((if m < remaining then some (x, r) else none : Option (α × List Char)).bind fun v =>
      (if n < remaining then some (y, s) else none : Option (β × List Char)).map fun w =>
        (f v.1 w.1, w.2)) = if max m n < remaining then some (f x y, s) else none := by
  by_cases hm : m < remaining
  · by_cases hn : n < remaining
    · rw [if_pos hm, if_pos hn, if_pos (max_lt hm hn)]
      rfl
    · rw [if_pos hm, if_neg hn, if_neg fun h => hn (lt_of_le_of_lt (le_max_right m n) h)]
      rfl
  · rw [if_neg hm, if_neg fun h => hm (lt_of_le_of_lt (le_max_left m n) h)]
    rfl

mutual

/-- **A printed value reads back if its depth fits**, and is refused if not. By induction on the
    value; what follows it must not go on with a number. -/
theorem readValue_render (pretty : Bool) : ∀ (v : Json) (fuel remaining level : Nat)
    (r : List Char), v.Readable → v.fuelFor ≤ fuel → 0 < remaining → Follows r →
    readValue fuel remaining (render pretty level v ++ r) =
      if v.depth < remaining then some (v, r) else none
  | v, 0, _, _, _, _, hfuel, _, _ => absurd (fuelFor_pos v) (Nat.not_lt.mpr hfuel)
  | .null, fuel + 1, remaining, level, r, _, _, hrem, _ => (if_pos hrem).symm
  | .bool true, fuel + 1, remaining, level, r, _, _, hrem, _ => (if_pos hrem).symm
  | .bool false, fuel + 1, remaining, level, r, _, _, hrem, _ => (if_pos hrem).symm
  | .str s, fuel + 1, remaining, level, r, _, _, hrem, _ => by
    rw [render, readValue_string]
    exact (if_pos hrem).symm
  | .num n, fuel + 1, remaining, level, r, hread, _, hrem, hr => by
    rw [Readable] at hread
    rw [render, readValue_number _ _ hread hr]
    exact (if_pos hrem).symm
  | .arr items, fuel + 1, remaining, level, r, hread, hfuel, hrem, _ => by
    rw [Readable] at hread
    rw [render, List.cons_append, readValue_array, depth]
    by_cases hdeep : remaining ≤ 1
    · rw [if_pos hdeep, if_neg (by omega)]
    · rw [← enter_depth (fun items : List Json × List Char => (Json.arr items.1, items.2))
        (items, r), readItems_render pretty items true fuel (remaining - 1) level r hread
        (Nat.le_of_succ_le_succ hfuel) (by omega)]
  | .obj members, fuel + 1, remaining, level, r, hread, hfuel, hrem, _ => by
    rw [Readable] at hread
    rw [render, List.cons_append, readValue_object, depth]
    by_cases hdeep : remaining ≤ 1
    · rw [if_pos hdeep, if_neg (by omega)]
    · have hobj : (Json.obj members, r) = (Json.obj (sortMembers members), r) := by
        rw [sortMembers_sorted hread.1]
      rw [hobj, ← enter_depth (fun ms : List (String × Json) × List Char =>
        (Json.obj (sortMembers ms.1), ms.2)) (members, r), readMembers_render pretty members true
        fuel (remaining - 1) level r hread.2 (Nat.le_of_succ_le_succ hfuel) (by omega)]

theorem readItems_render (pretty : Bool) : ∀ (items : List Json) (first : Bool)
    (fuel remaining level : Nat) (r : List Char), ReadableItems items →
    fuelForItems items ≤ fuel → 0 < remaining →
    readItems fuel remaining first (renderItems pretty level first items ++ r) =
      if depthItems items < remaining then some (items, r) else none
  | items, _, 0, _, _, _, _, hfuel, _ =>
    absurd (fuelForItems_pos items) (Nat.not_lt.mpr hfuel)
  | [], first, fuel + 1, remaining, level, r, _, _, hrem => by
    rw [depthItems, if_pos hrem, renderItems, List.append_assoc, readItems]
    cases first with
    | true => rfl
    | false =>
      rw [if_neg Bool.false_ne_true, skipBlank_newline]
      rfl
  | x :: xs, first, fuel + 1, remaining, level, r, hread, hfuel, hrem => by
    obtain ⟨hx, hxs⟩ := hread
    obtain ⟨c, t, hc, hblank, hclose⟩ := render_head pretty (level + 1) x hx
    have hboth : max x.fuelFor (fuelForItems xs) ≤ fuel := Nat.le_of_succ_le_succ hfuel
    have hcons := readItems_cons fuel remaining first pretty (level + 1) hblank hclose
      (t ++ (renderItems pretty level false xs ++ r))
    rw [← List.cons_append, ← hc] at hcons
    rw [renderItems, List.append_assoc, List.append_assoc, List.append_assoc, hcons,
      readValue_render pretty x fuel remaining (level + 1) _ hx (le_of_max_le_left hboth) hrem
        (follows_items pretty level r xs), depthItems, ← both_depth List.cons x xs _ _ _
        (renderItems pretty level false xs ++ r) r]
    refine Option.bind_congr fun v hv => ?_
    have hrest : v.2 = renderItems pretty level false xs ++ r := by
      split at hv
      · exact (congrArg Prod.snd (Option.some.inj hv)).symm
      · cases hv
    rw [hrest, readItems_render pretty xs false fuel remaining level r hxs
      (le_of_max_le_right hboth) hrem]

theorem readMembers_render (pretty : Bool) : ∀ (members : List (String × Json)) (first : Bool)
    (fuel remaining level : Nat) (r : List Char), ReadableMembers members →
    fuelForMembers members ≤ fuel → 0 < remaining →
    readMembers fuel remaining first (renderMembers pretty level first members ++ r) =
      if depthMembers members < remaining then some (members, r) else none
  | members, _, 0, _, _, _, _, hfuel, _ =>
    absurd (fuelForMembers_pos members) (Nat.not_lt.mpr hfuel)
  | [], first, fuel + 1, remaining, level, r, _, _, hrem => by
    rw [depthMembers, if_pos hrem, renderMembers, List.append_assoc, readMembers]
    cases first with
    | true => rfl
    | false =>
      rw [if_neg Bool.false_ne_true, skipBlank_newline]
      rfl
  | (k, v) :: ms, first, fuel + 1, remaining, level, r, hread, hfuel, hrem => by
    obtain ⟨hv, hms⟩ := hread
    have hboth : max v.fuelFor (fuelForMembers ms) ≤ fuel := Nat.le_of_succ_le_succ hfuel
    rw [renderMembers, List.append_assoc, List.append_assoc, List.append_assoc, List.append_assoc,
      List.append_assoc, readMembers_cons,
      readValue_render pretty v fuel remaining (level + 1) _ hv (le_of_max_le_left hboth) hrem
        (follows_members pretty level r ms), depthMembers,
      ← both_depth (fun (v : Json) ms => (k, v) :: ms) v ms _ _ _
        (renderMembers pretty level false ms ++ r) r]
    refine Option.bind_congr fun w hw => ?_
    have hrest : w.2 = renderMembers pretty level false ms ++ r := by
      split at hw
      · exact (congrArg Prod.snd (Option.some.inj hw)).symm
      · cases hw
    rw [hrest, readMembers_render pretty ms false fuel remaining level r hms
      (le_of_max_le_right hboth) hrem]

end

/-! ## 3. Printed documents -/

theorem render_pos (pretty : Bool) (level : Nat) {v : Json} (h : v.Readable) :
    0 < (render pretty level v).length := by
  obtain ⟨c, t, hc, _⟩ := render_head pretty level v h
  rw [hc]
  exact Nat.succ_pos _

mutual

/-- The text of a value is long enough to be the fuel that reads it. -/
theorem fuelFor_le (pretty : Bool) (level : Nat) : ∀ v : Json, v.Readable →
    v.fuelFor ≤ (render pretty level v).length
  | .arr items, h => by
    rw [Readable] at h
    rw [fuelFor, render, List.length_cons]
    exact Nat.succ_le_succ (fuelForItems_le pretty level true items h)
  | .obj members, h => by
    rw [Readable] at h
    rw [fuelFor, render, List.length_cons]
    exact Nat.succ_le_succ (fuelForMembers_le pretty level true members h.2)
  | .null, h | .bool _, h | .num _, h | .str _, h => render_pos pretty level h

theorem fuelForItems_le (pretty : Bool) (level : Nat) : ∀ (first : Bool) (items : List Json),
    ReadableItems items → fuelForItems items ≤ (renderItems pretty level first items).length
  | first, [], _ => by
    rw [renderItems, List.length_append]
    exact Nat.le_add_left 1 _
  | first, x :: xs, h => by
    have hx := fuelFor_le pretty (level + 1) x h.1
    have hxs := fuelForItems_le pretty level false xs h.2
    have hpos := render_pos pretty (level + 1) h.1
    have hrest := fuelForItems_pos xs
    rw [fuelForItems, renderItems]
    simp only [List.length_append]
    omega

theorem fuelForMembers_le (pretty : Bool) (level : Nat) : ∀ (first : Bool)
    (members : List (String × Json)), ReadableMembers members →
    fuelForMembers members ≤ (renderMembers pretty level first members).length
  | first, [], _ => by
    rw [renderMembers, List.length_append]
    exact Nat.le_add_left 1 _
  | first, (k, v) :: ms, h => by
    have hv := fuelFor_le pretty (level + 1) v h.1
    have hms := fuelForMembers_le pretty level false ms h.2
    have hk : 0 < (printString k).length := Nat.succ_pos _
    rw [fuelForMembers, renderMembers]
    simp only [List.length_append]
    omega

end

/-- **A printed document reads back if its depth fits**, and is refused if not. -/
theorem readObject_render (pretty : Bool) {members : List (String × Json)} {r : List Char}
    (h : ReadableMembers members) (hr : skipBlank r = []) :
    readObject (String.ofList (render pretty 0 (.obj members) ++ r)) =
      if depthMembers members + 1 < documentDepth then some members else none := by
  have hfuel : fuelForMembers members ≤ (render pretty 0 (.obj members) ++ r).length := by
    have := fuelForMembers_le pretty 0 true members h
    rw [render, List.cons_append, List.length_cons, List.length_append]
    omega
  generalize hlen : (render pretty 0 (.obj members) ++ r).length = fuel at hfuel
  rw [readObject, String.toList_ofList, hlen, render, List.cons_append, skipBlank_cons rfl]
  show (readMembers fuel (documentDepth - 1) true
    (renderMembers pretty 0 true members ++ r)).bind _ = _
  rw [readMembers_render pretty members true fuel (documentDepth - 1) 0 r h hfuel (by decide)]
  by_cases hdepth : depthMembers members + 1 < documentDepth
  · rw [if_pos hdepth, if_pos (Nat.lt_sub_of_add_lt hdepth), Option.bind_some, if_pos hr]
  · rw [if_neg hdepth, if_neg fun hlt => hdepth (Nat.add_lt_of_lt_sub hlt)]
    rfl

/-- What is read of a document that starts with members of no depth starts with them, whatever
    the rest of it is. -/
theorem readMembers_leading (pretty : Bool) (level : Nat) {remaining : Nat} (hrem : 0 < remaining)
    (rest : List (String × Json)) (r : List Char) : ∀ (leading : List (String × Json)) (first : Bool)
    (fuel : Nat) (ms : List (String × Json)) (r' : List Char), ReadableMembers leading →
    depthMembers leading = 0 →
    readMembers fuel remaining first (renderMembers pretty level first (leading ++ rest) ++ r) =
      some (ms, r') → ∃ rest', ms = leading ++ rest'
  | [], _, _, ms, _, _, _, _ => ⟨ms, rfl⟩
  | (k, v) :: leading, first, 0, ms, r', _, _, hread => by
    rw [readMembers] at hread
    cases hread
  | (k, v) :: leading, first, 1, ms, r', _, _, hread => by
    rw [List.cons_append, renderMembers, List.append_assoc, List.append_assoc, List.append_assoc,
      List.append_assoc, List.append_assoc, readMembers_cons, readValue] at hread
    cases hread
  | (k, v) :: leading, first, fuel + 2, ms, r', hreadable, hdepth, hread => by
    obtain ⟨hv, hleading⟩ := hreadable
    rw [depthMembers] at hdepth
    have hdv : v.depth = 0 := Nat.le_zero.mp (hdepth ▸ le_max_left _ _)
    have hdleading : depthMembers leading = 0 := Nat.le_zero.mp (hdepth ▸ le_max_right _ _)
    have hone : v.fuelFor ≤ fuel + 1 := by
      cases v with
      | arr | obj => cases hdv
      | _ => exact Nat.succ_le_succ (Nat.zero_le fuel)
    rw [List.cons_append, renderMembers, List.append_assoc, List.append_assoc, List.append_assoc,
      List.append_assoc, List.append_assoc, readMembers_cons,
      readValue_render pretty v _ _ _ _ hv hone hrem (follows_members pretty level r _), hdv,
      if_pos hrem, Option.bind_some] at hread
    obtain ⟨⟨ms', r''⟩, hms', hms⟩ := Option.map_eq_some_iff.mp hread
    cases hms
    obtain ⟨rest', rfl⟩ := readMembers_leading pretty level hrem rest r leading false (fuel + 1)
      ms' r'' hleading hdleading hms'
    exact ⟨rest', rfl⟩

/-- A member that is a decimal is read as a number, which may be another one. -/
theorem readMembers_decimal (pretty : Bool) (level : Nat) {fuel remaining : Nat} {first : Bool}
    {k : String} {n : Nat} {rest ms : List (String × Json)} {r r' : List Char}
    (h : readMembers fuel remaining first
      (renderMembers pretty level first ((k, .num (.int n)) :: rest) ++ r) = some (ms, r')) :
    ∃ number ms', readNumber (printInt n) = some number ∧ ms = (k, .num number) :: ms' := by
  obtain ⟨c, t, hc, _⟩ := printInt_head n
  have hchars := printInt_chars n
  rw [hc] at hchars
  match fuel with
  | 0 =>
    rw [readMembers] at h
    cases h
  | 1 =>
    rw [renderMembers, List.append_assoc, List.append_assoc, List.append_assoc, List.append_assoc,
      List.append_assoc, readMembers_cons, readValue] at h
    cases h
  | fuel + 2 =>
    rw [renderMembers, List.append_assoc, List.append_assoc, List.append_assoc, List.append_assoc,
      List.append_assoc, readMembers_cons, render, printNumber, hc,
      readValue_literal fuel remaining hchars (follows_members pretty level r rest), ← hc] at h
    obtain ⟨v, hv, h⟩ := Option.bind_eq_some_iff.mp h
    obtain ⟨number, hnumber, rfl⟩ := Option.map_eq_some_iff.mp hv
    obtain ⟨ms', _, hms⟩ := Option.map_eq_some_iff.mp h
    cases hms
    exact ⟨number, ms'.1, hnumber, rfl⟩

/-- The members that are read of a printed document. -/
theorem readMembers_of_readObject {pretty : Bool} {members ms : List (String × Json)}
    {r : List Char} (h : readObject (String.ofList (render pretty 0 (.obj members) ++ r)) = some ms) :
    ∃ fuel r', readMembers fuel (documentDepth - 1) true
      (renderMembers pretty 0 true members ++ r) = some (ms, r') := by
  rw [readObject, String.toList_ofList, render, List.cons_append, skipBlank_cons rfl] at h
  obtain ⟨⟨ms', r'⟩, hms, h⟩ := Option.bind_eq_some_iff.mp h
  split at h
  · cases h
    exact ⟨_, r', hms⟩
  · cases h

end Render

end Json

end Foundation
