/-
  File:      Beacon/Foundation/Json.lean
  Subject:   JSON values, the compact text a serialiser prints for them, and why two values
             with one text are one value.

  `Json.print` is the compact form: no blanks, members in the order the value lists them, every
  string escaped, integers in decimal. A floating-point number stands for the text that is
  printed for it (`Number.float`); whether two such numbers are equal is not a matter of their
  texts, so the reading-back results are about values without them (`Json.floatFree`).

  The printed form is self-delimiting up to numbers: a value's text, followed by anything that
  does not go on with a digit, splits in only one way (`print_cancel`). From it:

  * `print_injective` -- float-free values with the same text are equal.
-/
import Mathlib.Data.Char
import Mathlib.Data.List.Basic
import Mathlib.Tactic.IntervalCases

namespace Foundation

/-- A number of a JSON document: an integer, or a floating-point number named by its text. -/
inductive Number where
  | int (n : Int)
  | float (text : String)
  deriving DecidableEq, Repr

/-- A JSON value. -/
inductive Json where
  | null
  | bool (b : Bool)
  | num (n : Number)
  | str (s : String)
  | arr (items : List Json)
  | obj (members : List (String × Json))

namespace Json

/-! ## 1. Printing -/

/-- A hexadecimal digit, in lower case. -/
def hexDigit (n : Nat) : Char := Nat.digitChar n

/-- One character inside a string literal. -/
def escapeChar (c : Char) : List Char :=
  match c.toNat with
  | 0x22 => ['\\', '\"']
  | 0x5c => ['\\', '\\']
  | 0x08 => ['\\', 'b']
  | 0x0c => ['\\', 'f']
  | 0x0a => ['\\', 'n']
  | 0x0d => ['\\', 'r']
  | 0x09 => ['\\', 't']
  | n => if n < 0x20 then ['\\', 'u', '0', '0', hexDigit (n / 16), hexDigit (n % 16)] else [c]

/-- The rest of a string literal, its closing quote included. -/
def printChars : List Char → List Char
  | [] => ['\"']
  | c :: cs => escapeChar c ++ printChars cs

/-- A string literal. -/
def printString (s : String) : List Char := '\"' :: printChars s.toList

/-- An integer in decimal. -/
def printInt (n : Int) : List Char :=
  if n < 0 then '-' :: n.natAbs.repr.toList else n.natAbs.repr.toList

/-- A number. -/
def printNumber : Number → List Char
  | .int n => printInt n
  | .float text => text.toList

mutual

/-- The compact text of a value. -/
def print : Json → List Char
  | .null => ['n', 'u', 'l', 'l']
  | .bool true => ['t', 'r', 'u', 'e']
  | .bool false => ['f', 'a', 'l', 's', 'e']
  | .num n => printNumber n
  | .str s => printString s
  | .arr items => '[' :: printItems true items
  | .obj members => '\x7b' :: printMembers true members

/-- The items of an array and its closing bracket; every item but the first follows a comma. -/
def printItems : Bool → List Json → List Char
  | _, [] => [']']
  | first, x :: xs => (if first then [] else [',']) ++ (print x ++ printItems false xs)

/-- The members of an object and its closing brace. -/
def printMembers : Bool → List (String × Json) → List Char
  | _, [] => ['\x7d']
  | first, (k, v) :: ms =>
    (if first then [] else [',']) ++ (printString k ++ ':' :: (print v ++ printMembers false ms))

end

/-- The compact text as a string. -/
def text (v : Json) : String := String.ofList v.print

mutual

/-- No floating-point number anywhere in the value. -/
def floatFree : Json → Bool
  | .num (.float _) => false
  | .arr items => floatFreeItems items
  | .obj members => floatFreeMembers members
  | _ => true

/-- No floating-point number in a list of values. -/
def floatFreeItems : List Json → Bool
  | [] => true
  | x :: xs => x.floatFree && floatFreeItems xs

/-- No floating-point number in a list of members. -/
def floatFreeMembers : List (String × Json) → Bool
  | [] => true
  | (_, v) :: ms => v.floatFree && floatFreeMembers ms

end

/-! ## 2. String literals split in one way -/

/-- Read one character of a string literal back. -/
def unescape : List Char → Option (Char × List Char)
  | '\\' :: 'b' :: r => some ('\x08', r)
  | '\\' :: 'f' :: r => some ('\x0c', r)
  | '\\' :: 'n' :: r => some ('\n', r)
  | '\\' :: 'r' :: r => some ('\r', r)
  | '\\' :: 't' :: r => some ('\t', r)
  | '\\' :: 'u' :: '0' :: '0' :: a :: b :: r =>
    ((List.range 32).find? fun n => hexDigit (n / 16) = a ∧ hexDigit (n % 16) = b).map fun n =>
      (Char.ofNat n, r)
  | '\\' :: c :: r => some (c, r)
  | c :: r => some (c, r)
  | [] => none

/-- **A character is escaped, or it stands for itself.** -/
theorem escapeChar_cases {P : Char → Prop}
    (escaped : ∀ n, n < 0x20 ∨ n = 0x22 ∨ n = 0x5c → P (Char.ofNat n))
    (plain : ∀ c, escapeChar c = [c] → 0x20 ≤ c.toNat → c ≠ '\"' → c ≠ '\\' → P c) (c : Char) :
    P c := by
  by_cases h : c.toNat < 0x20 ∨ c.toNat = 0x22 ∨ c.toNat = 0x5c
  · rw [← Char.ofNat_toNat c]
    exact escaped c.toNat h
  · rw [not_or, not_or, Nat.not_lt] at h
    obtain ⟨hge, hquote, hslash⟩ := h
    refine plain c ?_ hge (fun e => hquote (by rw [e]; rfl)) (fun e => hslash (by rw [e]; rfl))
    unfold escapeChar
    split <;> first | omega | exact if_neg (Nat.not_lt.mpr hge)

/-- **What is escaped is read back.** -/
theorem unescape_escapeChar (c : Char) (r : List Char) :
    unescape (escapeChar c ++ r) = some (c, r) := by
  induction c using escapeChar_cases with
  | escaped n h =>
    rcases h with h | rfl | rfl
    · interval_cases n <;> rfl
    · rfl
    · rfl
  | plain c h _ _ hslash =>
    rw [h]
    show unescape (c :: r) = some (c, r)
    unfold unescape
    split <;> simp_all

theorem escapeChar_cancel {c d : Char} {r s : List Char}
    (h : escapeChar c ++ r = escapeChar d ++ s) : c = d ∧ r = s := by
  have e : some (c, r) = some (d, s) := by
    rw [← unescape_escapeChar c r, h, unescape_escapeChar]
  simpa using e

/-- An escaped character never starts with the closing quote. -/
theorem escapeChar_ne_quote (c : Char) (r s : List Char) : escapeChar c ++ r ≠ '\"' :: s := by
  induction c using escapeChar_cases with
  | escaped n h =>
    rcases h with h | rfl | rfl
    · interval_cases n <;> simp [escapeChar]
    · simp [escapeChar]
    · simp [escapeChar]
  | plain c h _ hquote _ =>
    rw [h]
    exact fun e => hquote (List.cons.inj e).1

theorem printChars_cancel : ∀ {cs ds r s : List Char},
    printChars cs ++ r = printChars ds ++ s → cs = ds ∧ r = s
  | [], [], _, _, h => ⟨rfl, by simpa [printChars] using h⟩
  | [], d :: ds, r, s, h => by
    rw [printChars, printChars, List.append_assoc] at h
    exact absurd h.symm (escapeChar_ne_quote d _ _)
  | c :: cs, [], r, s, h => by
    rw [printChars, printChars, List.append_assoc] at h
    exact absurd h (escapeChar_ne_quote c _ _)
  | c :: cs, d :: ds, r, s, h => by
    rw [printChars, printChars, List.append_assoc, List.append_assoc] at h
    obtain ⟨rfl, h'⟩ := escapeChar_cancel h
    obtain ⟨rfl, rfl⟩ := printChars_cancel h'
    exact ⟨rfl, rfl⟩

theorem printString_cancel {a b : String} {r s : List Char}
    (h : printString a ++ r = printString b ++ s) : a = b ∧ r = s := by
  obtain ⟨hab, hrs⟩ := printChars_cancel (List.cons.inj h).2
  exact ⟨String.toList_inj.mp hab, hrs⟩

/-! ## 3. Numbers split in one way -/

/-- The text does not go on with a digit. -/
def Ends (r : List Char) : Prop := ∀ c ∈ r.head?, c.isDigit = false

theorem ends_nil : Ends [] := fun _ h => by cases h

theorem ends_cons {c : Char} (h : c.isDigit = false) (r : List Char) : Ends (c :: r) := by
  intro d hd
  rw [List.head?_cons, Option.mem_def, Option.some.injEq] at hd
  rw [← hd]
  exact h

theorem digits_cancel : ∀ {a b r s : List Char}, (∀ c ∈ a, c.isDigit = true) →
    (∀ c ∈ b, c.isDigit = true) → Ends r → Ends s → a ++ r = b ++ s → a = b ∧ r = s
  | [], [], _, _, _, _, _, _, h => ⟨rfl, h⟩
  | [], d :: b, r, s, _, hb, hr, _, h => by
    rw [List.nil_append, List.cons_append] at h
    have := hr d (by rw [h]; rfl)
    rw [hb d List.mem_cons_self] at this
    cases this
  | c :: a, [], r, s, ha, _, _, hs, h => by
    rw [List.nil_append, List.cons_append] at h
    have := hs c (by rw [← h]; rfl)
    rw [ha c List.mem_cons_self] at this
    cases this
  | c :: a, d :: b, r, s, ha, hb, hr, hs, h => by
    obtain ⟨rfl, h'⟩ := List.cons.inj h
    obtain ⟨rfl, rfl⟩ := digits_cancel (fun x hx => ha x (List.mem_cons_of_mem _ hx))
      (fun x hx => hb x (List.mem_cons_of_mem _ hx)) hr hs h'
    exact ⟨rfl, rfl⟩

theorem isDigit_of_mem_repr {n : Nat} {c : Char} (h : c ∈ n.repr.toList) : c.isDigit = true := by
  rw [Nat.toList_repr] at h
  exact Nat.isDigit_of_mem_toDigits (by decide) (by decide) h

theorem repr_cancel {m n : Nat} {r s : List Char} (hr : Ends r) (hs : Ends s)
    (h : m.repr.toList ++ r = n.repr.toList ++ s) : m = n ∧ r = s := by
  obtain ⟨hmn, hrs⟩ := digits_cancel (fun _ => isDigit_of_mem_repr)
    (fun _ => isDigit_of_mem_repr) hr hs h
  rw [Nat.toList_repr, Nat.toList_repr] at hmn
  refine ⟨?_, hrs⟩
  rw [← Nat.ofDigitChars_ten_toDigits (n := m), hmn, Nat.ofDigitChars_ten_toDigits]

theorem repr_ne_minus (n : Nat) (r s : List Char) : n.repr.toList ++ r ≠ '-' :: s := by
  intro h
  have hne : n.repr.toList ≠ [] := by
    rw [Nat.toList_repr]
    exact Nat.toDigits_ne_nil
  obtain ⟨c, t, hc⟩ := List.exists_cons_of_ne_nil hne
  have hd : c.isDigit = true := isDigit_of_mem_repr (hc ▸ List.mem_cons_self)
  rw [hc] at h
  rw [(List.cons.inj h).1] at hd
  cases hd

theorem printInt_cancel {m n : Int} {r s : List Char} (hr : Ends r) (hs : Ends s)
    (h : printInt m ++ r = printInt n ++ s) : m = n ∧ r = s := by
  unfold printInt at h
  split at h <;> split at h
  · obtain ⟨he, hrs⟩ := repr_cancel hr hs (List.cons.inj h).2
    exact ⟨by omega, hrs⟩
  · exact absurd h.symm (repr_ne_minus _ _ _)
  · exact absurd h (repr_ne_minus _ _ _)
  · obtain ⟨he, hrs⟩ := repr_cancel hr hs h
    exact ⟨by omega, hrs⟩

/-! ## 4. Values split in one way -/

/-- Which kind of value a text that starts with this character is of. -/
def kindOf (c : Char) : Nat :=
  if c = 'n' then 0 else if c = 't' then 1 else if c = 'f' then 2 else if c = '\"' then 3
  else if c = '[' then 4 else if c = '\x7b' then 5 else if c = ']' then 6 else 7

/-- The kind of a value. -/
def kind : Json → Nat
  | .null => 0
  | .bool true => 1
  | .bool false => 2
  | .str _ => 3
  | .arr _ => 4
  | .obj _ => 5
  | .num _ => 7

theorem kindOf_number {c : Char} (h : c.isDigit = true ∨ c = '-') : kindOf c = 7 := by
  rcases h with h | rfl
  · have hne : ∀ d : Char, d.isDigit = false → c ≠ d := by
      rintro d hd rfl
      rw [h] at hd
      cases hd
    unfold kindOf
    rw [if_neg (hne _ rfl), if_neg (hne _ rfl), if_neg (hne _ rfl), if_neg (hne _ rfl),
      if_neg (hne _ rfl), if_neg (hne _ rfl), if_neg (hne _ rfl)]
  · rfl

theorem printInt_head (n : Int) : ∃ c t, printInt n = c :: t ∧ (c.isDigit = true ∨ c = '-') := by
  unfold printInt
  split
  · exact ⟨'-', _, rfl, Or.inr rfl⟩
  · have hne : n.natAbs.repr.toList ≠ [] := by
      rw [Nat.toList_repr]
      exact Nat.toDigits_ne_nil
    obtain ⟨c, t, hc⟩ := List.exists_cons_of_ne_nil hne
    exact ⟨c, t, hc, Or.inl (isDigit_of_mem_repr (hc ▸ List.mem_cons_self))⟩

/-- **The first character tells the kind.** -/
theorem print_head : ∀ (v : Json), v.floatFree = true → ∃ c t, v.print = c :: t ∧ kindOf c = v.kind
  | .null, _ => ⟨_, _, rfl, rfl⟩
  | .bool true, _ => ⟨_, _, rfl, rfl⟩
  | .bool false, _ => ⟨_, _, rfl, rfl⟩
  | .str _, _ => ⟨_, _, rfl, rfl⟩
  | .arr _, _ => ⟨_, _, rfl, rfl⟩
  | .obj _, _ => ⟨_, _, rfl, rfl⟩
  | .num (.int n), _ => by
    obtain ⟨c, t, hc, hd⟩ := printInt_head n
    exact ⟨c, t, hc, kindOf_number hd⟩
  | .num (.float _), h => by cases h

/-- Two texts that agree belong to values of one kind. -/
theorem kind_eq {v w : Json} (hv : v.floatFree = true) (hw : w.floatFree = true)
    {r s : List Char} (h : v.print ++ r = w.print ++ s) : v.kind = w.kind := by
  obtain ⟨c, t, hc, hk⟩ := print_head v hv
  obtain ⟨d, u, hd, hl⟩ := print_head w hw
  rw [hc, hd] at h
  rw [← hk, ← hl, (List.cons.inj h).1]

/-- No value starts with a closing bracket. -/
theorem print_ne_bracket {v : Json} (hv : v.floatFree = true) (r s : List Char) :
    v.print ++ r ≠ ']' :: s := by
  obtain ⟨c, t, hc, hk⟩ := print_head v hv
  rw [hc]
  intro h
  rw [(List.cons.inj h).1] at hk
  cases v with
  | bool b => cases b <;> cases hk
  | _ => cases hk

theorem printItems_ends (r : List Char) : ∀ xs : List Json, Ends (printItems false xs ++ r)
  | [] => ends_cons rfl _
  | _ :: _ => ends_cons rfl _

theorem printMembers_ends (r : List Char) :
    ∀ ms : List (String × Json), Ends (printMembers false ms ++ r)
  | [] => ends_cons rfl _
  | _ :: _ => ends_cons rfl _

mutual

/-- **A printed value splits from what follows it in one way.** By induction on the first
    value; equal kinds leave the six diagonal cases. -/
theorem print_cancel : ∀ (v w : Json) (r s : List Char), v.floatFree = true →
    w.floatFree = true → Ends r → Ends s → v.print ++ r = w.print ++ s → v = w ∧ r = s
  | v, w, r, s, hv, hw, hr, hs, h => by
    have hk := kind_eq hv hw h
    match v, w with
    | .null, .null => exact ⟨rfl, List.append_cancel_left h⟩
    | .bool true, .bool true => exact ⟨rfl, List.append_cancel_left h⟩
    | .bool false, .bool false => exact ⟨rfl, List.append_cancel_left h⟩
    | .num (.int m), .num (.int n) =>
      obtain ⟨rfl, hrs⟩ := printInt_cancel hr hs h
      exact ⟨rfl, hrs⟩
    | .str a, .str b =>
      obtain ⟨rfl, hrs⟩ := printString_cancel h
      exact ⟨rfl, hrs⟩
    | .arr xs, .arr ys =>
      obtain ⟨rfl, hrs⟩ := printItems_cancel true xs ys r s hv hw (List.cons.inj h).2
      exact ⟨rfl, hrs⟩
    | .obj ms, .obj ns =>
      obtain ⟨rfl, hrs⟩ := printMembers_cancel true ms ns r s hv hw (List.cons.inj h).2
      exact ⟨rfl, hrs⟩

theorem printItems_cancel : ∀ (first : Bool) (xs ys : List Json) (r s : List Char),
    floatFreeItems xs = true → floatFreeItems ys = true →
    printItems first xs ++ r = printItems first ys ++ s → xs = ys ∧ r = s
  | _, [], [], _, _, _, _, h => ⟨rfl, (List.cons.inj h).2⟩
  | true, [], y :: ys, r, s, _, hy, h => by
    simp only [floatFreeItems, Bool.and_eq_true] at hy
    simp only [printItems, if_true, List.nil_append, List.append_assoc] at h
    exact absurd h.symm (print_ne_bracket hy.1 _ _)
  | false, [], _ :: _, _, _, _, _, h => by simp [printItems] at h
  | true, x :: xs, [], r, s, hx, _, h => by
    simp only [floatFreeItems, Bool.and_eq_true] at hx
    simp only [printItems, if_true, List.nil_append, List.append_assoc] at h
    exact absurd h (print_ne_bracket hx.1 _ _)
  | false, _ :: _, [], _, _, _, _, h => by simp [printItems] at h
  | first, x :: xs, y :: ys, r, s, hx, hy, h => by
    simp only [floatFreeItems, Bool.and_eq_true] at hx hy
    simp only [printItems, List.append_assoc] at h
    obtain ⟨rfl, h'⟩ := print_cancel x y _ _ hx.1 hy.1 (printItems_ends r xs)
      (printItems_ends s ys) (List.append_cancel_left h)
    obtain ⟨rfl, hrs⟩ := printItems_cancel false xs ys r s hx.2 hy.2 h'
    exact ⟨rfl, hrs⟩

theorem printMembers_cancel : ∀ (first : Bool) (ms ns : List (String × Json)) (r s : List Char),
    floatFreeMembers ms = true → floatFreeMembers ns = true →
    printMembers first ms ++ r = printMembers first ns ++ s → ms = ns ∧ r = s
  | _, [], [], _, _, _, _, h => ⟨rfl, (List.cons.inj h).2⟩
  | true, [], _ :: _, _, _, _, _, h => by simp [printMembers, printString] at h
  | false, [], _ :: _, _, _, _, _, h => by simp [printMembers] at h
  | true, _ :: _, [], _, _, _, _, h => by simp [printMembers, printString] at h
  | false, _ :: _, [], _, _, _, _, h => by simp [printMembers] at h
  | first, (k, v) :: ms, (l, w) :: ns, r, s, hv, hw, h => by
    simp only [floatFreeMembers, Bool.and_eq_true] at hv hw
    simp only [printMembers, List.append_assoc, List.cons_append] at h
    obtain ⟨rfl, h'⟩ := printString_cancel (List.append_cancel_left h)
    obtain ⟨rfl, h''⟩ := print_cancel v w _ _ hv.1 hw.1 (printMembers_ends r ms)
      (printMembers_ends s ns) (List.cons.inj h').2
    obtain ⟨rfl, hrs⟩ := printMembers_cancel false ms ns r s hv.2 hw.2 h''
    exact ⟨rfl, hrs⟩

end

/-- **Two float-free values with one text are one value.** -/
theorem print_injective {v w : Json} (hv : v.floatFree = true) (hw : w.floatFree = true)
    (h : v.text = w.text) : v = w := by
  have e : v.print ++ [] = w.print ++ [] := by
    rw [List.append_nil, List.append_nil]
    exact String.ofList_inj.mp h
  exact (print_cancel v w [] [] hv hw ends_nil ends_nil e).1

/-- Equal texts of two objects have equal leading members, as long as these are float-free. -/
theorem printMembers_leading : ∀ (first : Bool) (ms ns rest rest' : List (String × Json)),
    ms.length = ns.length → floatFreeMembers ms = true → floatFreeMembers ns = true →
    printMembers first (ms ++ rest) = printMembers first (ns ++ rest') → ms = ns
  | _, [], [], _, _, _, _, _, _ => rfl
  | first, (k, v) :: ms, (l, w) :: ns, rest, rest', hl, hv, hw, h => by
    simp only [floatFreeMembers, Bool.and_eq_true] at hv hw
    simp only [List.cons_append, printMembers] at h
    obtain ⟨rfl, h'⟩ := printString_cancel (List.append_cancel_left h)
    have hends : ∀ ms : List (String × Json), Ends (printMembers false ms) := by
      intro ms
      have := printMembers_ends [] ms
      rwa [List.append_nil] at this
    obtain ⟨rfl, h''⟩ := print_cancel v w _ _ hv.1 hw.1 (hends _) (hends _) (List.cons.inj h').2
    rw [printMembers_leading false ms ns rest rest' (Nat.succ.inj hl) hv.2 hw.2 h'']

end Json

end Foundation
