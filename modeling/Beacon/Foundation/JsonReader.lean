/-
  File:      Beacon/Foundation/JsonReader.lean
  Subject:   A reader of JSON texts with a bound on nesting.

  The reader goes over the text once. It skips blanks between tokens, reads every escape of a
  string, keeps the members of an object sorted (of two members with one key the later one
  stays), and refuses a document that is nested too deeply: it is given what remains of its
  depth, and gives one up for each array or object it enters. How floating-point literals are
  rounded is a parameter (`FloatFormat`); a number of a value that reads back from its own text
  is all that is asked of them (`Number.Sound`).

  * `readNumber_int` -- integers of 64 bits read back;
  * `readString_print` -- string literals read back;
  * `readable_of_readObject` -- **what was read is sorted and not too deep**.
-/
import Mathlib.Data.List.TakeWhile
import Mathlib.Data.String.Basic
import Beacon.Foundation.Json

namespace Foundation

/-- The text that is printed for the floating-point number nearest to a literal; none where no
    finite one is. -/
class FloatFormat where
  reprint : List Char → Option String

namespace Json

/-! ## 1. Numbers -/

def isNumberChar (c : Char) : Bool :=
  c.isDigit || c = '-' || c = '+' || c = '.' || c = 'e' || c = 'E'

/-- The exponent of a literal, or nothing. -/
def isExponent : List Char → Bool
  | [] => true
  | c :: r =>
    let digits := match r with
      | '+' :: r => r
      | '-' :: r => r
      | r => r
    (c = 'e' || c = 'E') && digits ≠ [] && digits.all Char.isDigit

/-- The fraction and the exponent of a literal. -/
def isFraction : List Char → Bool
  | '.' :: r => r.takeWhile Char.isDigit ≠ [] && isExponent (r.dropWhile Char.isDigit)
  | r => isExponent r

/-- The number a literal is of: an integer of 64 bits where it is one, else the nearest
    floating-point number. -/
def readNumber [FloatFormat] (literal : List Char) : Option Number :=
  let negative : Bool := literal.head? = some '-'
  let unsigned := if negative then literal.tail else literal
  let digits := unsigned.takeWhile Char.isDigit
  let rest := unsigned.dropWhile Char.isDigit
  let n := Nat.ofDigitChars 10 digits 0
  let float := (FloatFormat.reprint literal).map Number.float
  if digits = [] || (digits.head? = some '0' && 1 < digits.length) then none
  else if rest ≠ [] then if isFraction rest then float else none
  else if negative then
    if n = 0 then some (.float "-0.0") else if n ≤ 2 ^ 63 then some (.int (-n)) else float
  else if n < 2 ^ 64 then some (.int n) else float

/-- The number reads back from the text that is printed for it. -/
structure Sound [FloatFormat] (n : Number) : Prop where
  chars : ∀ c ∈ printNumber n, isNumberChar c = true
  reads : readNumber (printNumber n) = some n

/-- A decimal has no leading zero. -/
theorem head_toDigits {n : Nat} (h : n ≠ 0) : (Nat.toDigits 10 n).head? ≠ some '0' := by
  induction n using Nat.strongRecOn with
  | ind n ih =>
    rw [Nat.toDigits_eq_if (by decide)]
    split
    · rename_i hlt
      have key : ∀ n < 10, n ≠ 0 → n.digitChar ≠ '0' := by decide
      intro hhead
      exact key n hlt h (Option.some.inj hhead)
    · rename_i hge
      have hlt : n / 10 < n := Nat.div_lt_self (Nat.pos_of_ne_zero h) (by decide)
      have hpos : n / 10 ≠ 0 := by omega
      rw [List.head?_append_of_ne_nil _ Nat.toDigits_ne_nil]
      exact ih (n / 10) hlt hpos

theorem takeWhile_digits {n : Nat} : (Nat.toDigits 10 n).takeWhile Char.isDigit =
    Nat.toDigits 10 n ∧ (Nat.toDigits 10 n).dropWhile Char.isDigit = [] := by
  have hall : ∀ c ∈ Nat.toDigits 10 n, c.isDigit = true := fun c hc =>
    Nat.isDigit_of_mem_toDigits (by decide) (by decide) hc
  exact ⟨List.takeWhile_eq_self_iff.mpr hall, List.dropWhile_eq_nil_iff.mpr hall⟩

/-- The checks on the digits of a decimal pass. -/
theorem digits_ok (n : Nat) : (decide (Nat.toDigits 10 n = []) ||
    (decide ((Nat.toDigits 10 n).head? = some '0') && decide (1 < (Nat.toDigits 10 n).length))) =
      false := by
  rw [decide_eq_false Nat.toDigits_ne_nil, Bool.false_or]
  by_cases h : n = 0
  · rw [h]
    decide
  · rw [decide_eq_false (head_toDigits h), Bool.false_and]

theorem printInt_chars (n : Int) : ∀ c ∈ printInt n, isNumberChar c = true := by
  have hdigit : ∀ c ∈ n.natAbs.repr.toList, isNumberChar c = true := fun c hc => by
    rw [isNumberChar, isDigit_of_mem_repr hc]
    rfl
  unfold printInt
  split
  · intro c hc
    rcases List.mem_cons.mp hc with rfl | hc
    · rfl
    · exact hdigit c hc
  · exact hdigit

/-- What a decimal is read as. -/
theorem readNumber_nat [FloatFormat] (n : Nat) : readNumber (printInt n) =
    if n < 2 ^ 64 then some (.int n) else (FloatFormat.reprint (printInt n)).map Number.float := by
  obtain ⟨htake, hdrop⟩ := @takeWhile_digits n
  have hprint : printInt n = Nat.toDigits 10 n := by
    rw [printInt, if_neg (Int.not_lt.mpr (Int.natCast_nonneg n)), Int.natAbs_natCast,
      Nat.toList_repr]
  have hhead : decide ((Nat.toDigits 10 n).head? = some '-') = false := by
    refine decide_eq_false fun h => ?_
    have hd := Nat.isDigit_of_mem_toDigits (b := 10) (n := n) (by decide) (by decide)
      (List.mem_of_mem_head? h)
    cases hd
  rw [hprint]
  simp only [readNumber, hhead, Bool.false_eq_true, if_false, htake, hdrop, digits_ok n, ne_eq,
    not_true, Nat.ofDigitChars_ten_toDigits]

/-- An integer that a decimal is read as is the one it was printed for. -/
theorem readNumber_decimal [FloatFormat] {n : Nat} {m : Int}
    (h : readNumber (printInt n) = some (.int m)) : m = n := by
  rw [readNumber_nat] at h
  split at h
  · cases h
    rfl
  · obtain ⟨text, _, htext⟩ := Option.map_eq_some_iff.mp h
    cases htext

/-- **Integers of 64 bits read back.** -/
theorem readNumber_int [FloatFormat] {n : Int} (hlow : -2 ^ 63 ≤ n) (hhigh : n < 2 ^ 64) :
    readNumber (printInt n) = some (.int n) := by
  by_cases hneg : n < 0
  · obtain ⟨htake, hdrop⟩ := @takeWhile_digits n.natAbs
    have hn : n.natAbs ≠ 0 := by omega
    have hle : n.natAbs ≤ 2 ^ 63 := by omega
    have hint : -(n.natAbs : Int) = n := by omega
    rw [printInt, if_pos hneg, Nat.toList_repr]
    simp only [readNumber, List.head?_cons, decide_true, if_true, List.tail_cons, htake, hdrop,
      digits_ok n.natAbs, Bool.false_eq_true, if_false, ne_eq, not_true,
      Nat.ofDigitChars_ten_toDigits, hn, hle, hint]
  · obtain ⟨m, rfl⟩ := Int.eq_ofNat_of_zero_le (Int.not_lt.mp hneg)
    rw [readNumber_nat, if_pos (by omega)]

theorem sound_int [FloatFormat] {n : Int} (hlow : -2 ^ 63 ≤ n) (hhigh : n < 2 ^ 64) :
    Sound (.int n) := ⟨printInt_chars n, readNumber_int hlow hhigh⟩

/-! ## 2. Strings -/

/-- The value of a hexadecimal digit. -/
def hexValue (c : Char) : Option Nat :=
  if '0' ≤ c ∧ c ≤ '9' then some (c.toNat - 48)
  else if 'a' ≤ c ∧ c ≤ 'f' then some (c.toNat - 87)
  else if 'A' ≤ c ∧ c ≤ 'F' then some (c.toNat - 55)
  else none

/-- Four hexadecimal digits. -/
def readHex : List Char → Option (Nat × List Char)
  | a :: b :: c :: d :: r => do
    let a ← hexValue a
    let b ← hexValue b
    let c ← hexValue c
    let d ← hexValue d
    pure (((a * 16 + b) * 16 + c) * 16 + d, r)
  | _ => none

/-- What follows a backslash and a `u`: a code unit, or two of a surrogate pair. -/
def readUnicode (cs : List Char) : Option (Char × List Char) :=
  (readHex cs).bind fun first =>
    if 0xdc00 ≤ first.1 ∧ first.1 ≤ 0xdfff then none
    else if 0xd800 ≤ first.1 ∧ first.1 ≤ 0xdbff then
      match first.2 with
      | '\\' :: 'u' :: r => (readHex r).bind fun second =>
        if 0xdc00 ≤ second.1 ∧ second.1 ≤ 0xdfff then
          some (Char.ofNat (0x10000 + (first.1 - 0xd800) * 1024 + (second.1 - 0xdc00)), second.2)
        else none
      | _ => none
    else some (Char.ofNat first.1, first.2)

/-- One character of a string literal. -/
def readChar : List Char → Option (Char × List Char)
  | [] => none
  | '\\' :: [] => none
  | '\\' :: c :: r =>
    if c = '\"' ∨ c = '\\' ∨ c = '/' then some (c, r)
    else if c = 'b' then some ('\x08', r)
    else if c = 'f' then some ('\x0c', r)
    else if c = 'n' then some ('\n', r)
    else if c = 'r' then some ('\r', r)
    else if c = 't' then some ('\t', r)
    else if c = 'u' then readUnicode r
    else none
  | c :: r => if c.toNat < 0x20 then none else some (c, r)

/-- The characters up to the closing quote, at most `fuel` of them. -/
def readChars : Nat → List Char → Option (List Char × List Char)
  | _, '\"' :: r => some ([], r)
  | 0, _ => none
  | fuel + 1, cs => (readChar cs).bind fun c =>
    (readChars fuel c.2).map fun rest => (c.1 :: rest.1, rest.2)

/-- A string literal after its opening quote. -/
def readString (cs : List Char) : Option (String × List Char) :=
  (readChars cs.length cs).map fun chars => (String.ofList chars.1, chars.2)

/-- **What is escaped is read back.** -/
theorem readChar_escape (c : Char) (r : List Char) : readChar (escapeChar c ++ r) = some (c, r) := by
  induction c using escapeChar_cases with
  | escaped n h =>
    rcases h with h | rfl | rfl
    · interval_cases n <;> rfl
    · rfl
    · rfl
  | plain c h hge _ hslash =>
    rw [h]
    show readChar (c :: r) = some (c, r)
    unfold readChar
    split <;> simp_all

theorem escapeChar_ne_nil (c : Char) : escapeChar c ≠ [] := by
  unfold escapeChar
  split <;> try exact List.cons_ne_nil _ _
  split <;> exact List.cons_ne_nil _ _

/-- The escaped character does not end the literal. -/
theorem readChars_escape (fuel : Nat) (c : Char) (r : List Char) :
    readChars (fuel + 1) (escapeChar c ++ r) =
      (readChars fuel r).map fun rest => (c :: rest.1, rest.2) := by
  have hread := readChar_escape c r
  have hquote := fun s => escapeChar_ne_quote c r s
  generalize escapeChar c ++ r = cs at hread hquote
  rw [readChars, hread]
  · rfl
  · exact hquote

theorem readChars_print {cs : List Char} {fuel : Nat} (h : cs.length ≤ fuel) (r : List Char) :
    readChars fuel (printChars cs ++ r) = some (cs, r) := by
  induction cs generalizing fuel with
  | nil =>
    cases fuel <;> rfl
  | cons c cs ih =>
    obtain ⟨fuel, rfl⟩ := Nat.exists_eq_succ_of_ne_zero (Nat.ne_of_gt (Nat.lt_of_lt_of_le
      (Nat.succ_pos cs.length) h))
    rw [printChars, List.append_assoc, readChars_escape, ih (Nat.le_of_succ_le_succ h)]
    rfl

theorem length_printChars (cs : List Char) : cs.length ≤ (printChars cs).length := by
  induction cs with
  | nil => exact Nat.zero_le _
  | cons c cs ih =>
    have hpos : 0 < (escapeChar c).length := List.length_pos_iff.mpr (escapeChar_ne_nil c)
    rw [printChars, List.length_append, List.length_cons]
    omega

/-- **String literals read back.** -/
theorem readString_print (s : String) (r : List Char) :
    readString (printChars s.toList ++ r) = some (s, r) := by
  have hlen : s.toList.length ≤ (printChars s.toList ++ r).length := by
    have := length_printChars s.toList
    rw [List.length_append]
    omega
  rw [readString, readChars_print hlen, Option.map_some, String.ofList_toList]

/-! ## 3. Values -/

def isBlank (c : Char) : Bool := c = ' ' || c = '\n' || c = '\t' || c = '\r'

def skipBlank (cs : List Char) : List Char := cs.dropWhile isBlank

/-- A member put into an object that is kept sorted. -/
def insertMember (k : String) (v : Json) : List (String × Json) → List (String × Json)
  | [] => [(k, v)]
  | (l, w) :: ms =>
    if k < l then (k, v) :: (l, w) :: ms
    else if k = l then (k, v) :: ms
    else (l, w) :: insertMember k v ms

/-- The members of an object as they were read. -/
def sortMembers (ms : List (String × Json)) : List (String × Json) :=
  ms.foldl (fun sorted m => insertMember m.1 m.2 sorted) []

def readWord : List Char → Option (Json × List Char)
  | 'n' :: 'u' :: 'l' :: 'l' :: r => some (.null, r)
  | 't' :: 'r' :: 'u' :: 'e' :: r => some (.bool true, r)
  | 'f' :: 'a' :: 'l' :: 's' :: 'e' :: r => some (.bool false, r)
  | _ => none

/-- Every element but the first follows a comma. -/
def readComma : Bool → List Char → Option (List Char)
  | true, cs => some cs
  | false, ',' :: r => some r
  | false, _ => none

/-- The key of a member and its colon. -/
def readKey (cs : List Char) : Option (String × List Char) :=
  match skipBlank cs with
  | '\"' :: r => (readString r).bind fun k =>
    match skipBlank k.2 with
    | ':' :: r => some (k.1, r)
    | _ => none
  | _ => none

section Reader

variable [FloatFormat]

mutual

/-- A value, where `remaining` is left of the depth. -/
def readValue : Nat → Nat → List Char → Option (Json × List Char)
  | 0, _, _ => none
  | fuel + 1, remaining, cs =>
    match skipBlank cs with
    | [] => none
    | c :: r =>
      if c = '\"' then (readString r).map fun s => (.str s.1, s.2)
      else if c = '[' then
        if remaining ≤ 1 then none
        else (readItems fuel (remaining - 1) true r).map fun items => (.arr items.1, items.2)
      else if c = '\x7b' then
        if remaining ≤ 1 then none
        else (readMembers fuel (remaining - 1) true r).map fun ms => (.obj (sortMembers ms.1), ms.2)
      else if isNumberChar c then
        (readNumber ((c :: r).takeWhile isNumberChar)).map fun n =>
          (.num n, (c :: r).dropWhile isNumberChar)
      else readWord (c :: r)

/-- The items of an array up to its closing bracket. -/
def readItems : Nat → Nat → Bool → List Char → Option (List Json × List Char)
  | 0, _, _, _ => none
  | fuel + 1, remaining, first, cs =>
    match skipBlank cs with
    | ']' :: r => some ([], r)
    | cs => (readComma first cs).bind fun cs => (readValue fuel remaining cs).bind fun v =>
      (readItems fuel remaining false v.2).map fun items => (v.1 :: items.1, items.2)

/-- The members of an object up to its closing brace, as they stand. -/
def readMembers : Nat → Nat → Bool → List Char → Option (List (String × Json) × List Char)
  | 0, _, _, _ => none
  | fuel + 1, remaining, first, cs =>
    match skipBlank cs with
    | '\x7d' :: r => some ([], r)
    | cs => (readComma first cs).bind fun cs => (readKey cs).bind fun k =>
      (readValue fuel remaining k.2).bind fun v =>
        (readMembers fuel remaining false v.2).map fun ms => ((k.1, v.1) :: ms.1, ms.2)

end

/-- The depth a document may start from: one more than the nesting it may have. -/
def documentDepth : Nat := 128

/-- The members of the object a document consists of. -/
def readObject (text : String) : Option (List (String × Json)) :=
  match skipBlank text.toList with
  | '\x7b' :: r => (readMembers text.toList.length (documentDepth - 1) true r).bind fun ms =>
    if skipBlank ms.2 = [] then some ms.1 else none
  | _ => none

end Reader

/-! ## 4. What is read -/

mutual

/-- How deeply arrays and objects are nested. -/
def depth : Json → Nat
  | .arr items => depthItems items + 1
  | .obj members => depthMembers members + 1
  | _ => 0

def depthItems : List Json → Nat
  | [] => 0
  | x :: xs => max x.depth (depthItems xs)

def depthMembers : List (String × Json) → Nat
  | [] => 0
  | (_, v) :: ms => max v.depth (depthMembers ms)

end

section Readable

variable [FloatFormat]

mutual

/-- Objects are sorted maps, and numbers read back from their texts. -/
def Readable : Json → Prop
  | .num n => Sound n
  | .arr items => ReadableItems items
  | .obj members => members.Pairwise (fun a b => a.1 < b.1) ∧ ReadableMembers members
  | _ => True

def ReadableItems : List Json → Prop
  | [] => True
  | x :: xs => x.Readable ∧ ReadableItems xs

def ReadableMembers : List (String × Json) → Prop
  | [] => True
  | (_, v) :: ms => v.Readable ∧ ReadableMembers ms

end

omit [FloatFormat] in
theorem mem_insertMember {k : String} {v : Json} {ms : List (String × Json)} {m : String × Json}
    (h : m ∈ insertMember k v ms) : m = (k, v) ∨ m ∈ ms := by
  induction ms with
  | nil => exact .inl (List.mem_singleton.mp h)
  | cons x ms ih =>
    rw [insertMember] at h
    split at h
    · exact List.mem_cons.mp h
    · split at h
      · rcases List.mem_cons.mp h with rfl | h
        · exact .inl rfl
        · exact .inr (List.mem_cons_of_mem _ h)
      · rcases List.mem_cons.mp h with rfl | h
        · exact .inr List.mem_cons_self
        · exact (ih h).imp_right (List.mem_cons_of_mem _)

omit [FloatFormat] in
theorem insertMember_sorted {k : String} {v : Json} {ms : List (String × Json)}
    (h : ms.Pairwise fun a b => a.1 < b.1) :
    (insertMember k v ms).Pairwise fun a b => a.1 < b.1 := by
  induction ms with
  | nil => exact List.pairwise_singleton _ _
  | cons x ms ih =>
    obtain ⟨hx, hms⟩ := List.pairwise_cons.mp h
    rw [insertMember]
    split
    · rename_i hlt
      refine List.pairwise_cons.mpr ⟨fun b hb => ?_, h⟩
      rcases List.mem_cons.mp hb with rfl | hb
      · exact hlt
      · exact hlt.trans (hx b hb)
    · rename_i hlt
      split
      · rename_i heq
        exact List.pairwise_cons.mpr ⟨fun b hb => heq ▸ hx b hb, hms⟩
      · rename_i hne
        refine List.pairwise_cons.mpr ⟨fun b hb => ?_, ih hms⟩
        rcases mem_insertMember hb with rfl | hb
        · exact lt_of_le_of_ne (not_lt.mp hlt) (Ne.symm hne)
        · exact hx b hb

omit [FloatFormat] in
theorem mem_sortMembers {ms : List (String × Json)} {m : String × Json} (h : m ∈ sortMembers ms) :
    m ∈ ms := by
  have key : ∀ (ms sorted : List (String × Json)),
      m ∈ ms.foldl (fun sorted m => insertMember m.1 m.2 sorted) sorted → m ∈ sorted ∨ m ∈ ms := by
    intro ms
    induction ms with
    | nil => exact fun sorted h => .inl h
    | cons x ms ih =>
      intro sorted h
      rcases ih _ h with h | h
      · rcases mem_insertMember h with rfl | h
        · exact .inr List.mem_cons_self
        · exact .inl h
      · exact .inr (List.mem_cons_of_mem _ h)
  exact (key ms [] h).resolve_left List.not_mem_nil

omit [FloatFormat] in
/-- **An object that was read is a sorted map.** -/
theorem sorted_sortMembers (ms : List (String × Json)) :
    (sortMembers ms).Pairwise fun a b => a.1 < b.1 := by
  have key : ∀ (ms sorted : List (String × Json)), sorted.Pairwise (fun a b => a.1 < b.1) →
      (ms.foldl (fun sorted m => insertMember m.1 m.2 sorted) sorted).Pairwise
        fun a b => a.1 < b.1 := by
    intro ms
    induction ms with
    | nil => exact fun sorted h => h
    | cons x ms ih => exact fun sorted h => ih _ (insertMember_sorted h)
  exact key ms [] List.Pairwise.nil

omit [FloatFormat] in
/-- The nesting of members is that of the deepest of them. -/
theorem depthMembers_le {n : Nat} {ms : List (String × Json)} :
    depthMembers ms ≤ n ↔ ∀ m ∈ ms, m.2.depth ≤ n := by
  induction ms with
  | nil => exact ⟨fun _ _ h => (List.not_mem_nil h).elim, fun _ => Nat.zero_le _⟩
  | cons m ms ih => rw [depthMembers, max_le_iff, ih, List.forall_mem_cons]

theorem readableMembers_iff {ms : List (String × Json)} :
    ReadableMembers ms ↔ ∀ m ∈ ms, m.2.Readable := by
  induction ms with
  | nil => exact ⟨fun _ _ h => (List.not_mem_nil h).elim, fun _ => trivial⟩
  | cons m ms ih => rw [ReadableMembers, ih, List.forall_mem_cons]

/-- Every number that is read reads back from its own text. -/
def SoundNumbers : Prop := ∀ literal n, readNumber literal = some n → Sound n

/-- It is enough to ask it of the floating-point numbers. -/
theorem soundNumbers_of (hzero : Sound (.float "-0.0"))
    (hfloat : ∀ literal text, FloatFormat.reprint literal = some text → Sound (.float text)) :
    SoundNumbers := by
  intro literal n h
  unfold readNumber at h
  extract_lets negative unsigned digits rest k float at h
  have hread : float = some n → Sound n := by
    intro hn
    obtain ⟨text, htext, rfl⟩ := Option.map_eq_some_iff.mp hn
    exact hfloat literal text htext
  split at h
  · cases h
  split at h
  · split at h
    · exact hread h
    · cases h
  split at h
  · split at h
    · cases h
      exact hzero
    split at h
    · cases h
      exact sound_int (by omega) (by omega)
    · exact hread h
  · split at h
    · cases h
      exact sound_int (by omega) (by omega)
    · exact hread h

mutual

/-- **A value that was read reads back**, and is nested no deeper than was allowed. -/
theorem readable_of_readValue (hsound : SoundNumbers) : ∀ (fuel remaining : Nat)
    (cs : List Char) (v : Json) (r : List Char), 0 < remaining →
    readValue fuel remaining cs = some (v, r) → v.Readable ∧ v.depth < remaining
  | 0, _, _, _, _, _, h => by
    rw [readValue] at h
    cases h
  | fuel + 1, remaining, cs, v, r, hrem, h => by
    rw [readValue] at h
    split at h
    · cases h
    · rename_i c t _
      split at h
      · obtain ⟨s, _, hs⟩ := Option.map_eq_some_iff.mp h
        cases hs
        exact ⟨trivial, hrem⟩
      · split at h
        · split at h
          · cases h
          · rename_i hdeep
            obtain ⟨⟨items, r'⟩, hitems, hv⟩ := Option.map_eq_some_iff.mp h
            cases hv
            obtain ⟨hread, hdepth⟩ := readable_of_readItems hsound fuel (remaining - 1) true t
              items r' (by omega) hitems
            exact ⟨hread, Nat.add_lt_of_lt_sub hdepth⟩
        · split at h
          · split at h
            · cases h
            · rename_i hdeep
              obtain ⟨⟨ms, r'⟩, hms, hv⟩ := Option.map_eq_some_iff.mp h
              cases hv
              obtain ⟨hread, hdepth⟩ := readable_of_readMembers hsound fuel (remaining - 1) true t
                ms r' (by omega) hms
              have hread' : ReadableMembers (sortMembers ms) :=
                readableMembers_iff.mpr fun m hm => readableMembers_iff.mp hread m
                  (mem_sortMembers hm)
              have hdepth' : depthMembers (sortMembers ms) ≤ depthMembers ms :=
                depthMembers_le.mpr fun m hm => depthMembers_le.mp le_rfl m (mem_sortMembers hm)
              refine ⟨⟨sorted_sortMembers ms, hread'⟩, ?_⟩
              show depthMembers (sortMembers ms) + 1 < remaining
              omega
          · split at h
            · obtain ⟨n, hn, hv⟩ := Option.map_eq_some_iff.mp h
              cases hv
              exact ⟨hsound _ n hn, hrem⟩
            · unfold readWord at h
              split at h
              all_goals
                cases h
                try exact ⟨trivial, hrem⟩

theorem readable_of_readItems (hsound : SoundNumbers) : ∀ (fuel remaining : Nat) (first : Bool)
    (cs : List Char) (items : List Json) (r : List Char), 0 < remaining →
    readItems fuel remaining first cs = some (items, r) →
      ReadableItems items ∧ depthItems items < remaining
  | 0, _, _, _, _, _, _, h => by
    rw [readItems] at h
    cases h
  | fuel + 1, remaining, first, cs, items, r, hrem, h => by
    rw [readItems] at h
    split at h
    · cases h
      exact ⟨trivial, hrem⟩
    · obtain ⟨cs', _, h⟩ := Option.bind_eq_some_iff.mp h
      obtain ⟨⟨v, r'⟩, hv, h⟩ := Option.bind_eq_some_iff.mp h
      obtain ⟨⟨vs, r''⟩, hvs, h⟩ := Option.map_eq_some_iff.mp h
      cases h
      obtain ⟨hreadv, hdepthv⟩ := readable_of_readValue hsound fuel remaining cs' v r' hrem hv
      obtain ⟨hreads, hdepths⟩ := readable_of_readItems hsound fuel remaining false r' vs _ hrem hvs
      exact ⟨⟨hreadv, hreads⟩, max_lt hdepthv hdepths⟩

theorem readable_of_readMembers (hsound : SoundNumbers) : ∀ (fuel remaining : Nat) (first : Bool)
    (cs : List Char) (ms : List (String × Json)) (r : List Char), 0 < remaining →
    readMembers fuel remaining first cs = some (ms, r) →
      ReadableMembers ms ∧ depthMembers ms < remaining
  | 0, _, _, _, _, _, _, h => by
    rw [readMembers] at h
    cases h
  | fuel + 1, remaining, first, cs, ms, r, hrem, h => by
    rw [readMembers] at h
    split at h
    · cases h
      exact ⟨trivial, hrem⟩
    · obtain ⟨cs', _, h⟩ := Option.bind_eq_some_iff.mp h
      obtain ⟨⟨k, r₁⟩, _, h⟩ := Option.bind_eq_some_iff.mp h
      obtain ⟨⟨v, r₂⟩, hv, h⟩ := Option.bind_eq_some_iff.mp h
      obtain ⟨⟨vs, r₃⟩, hvs, h⟩ := Option.map_eq_some_iff.mp h
      cases h
      obtain ⟨hreadv, hdepthv⟩ := readable_of_readValue hsound fuel remaining r₁ v r₂ hrem hv
      obtain ⟨hreads, hdepths⟩ := readable_of_readMembers hsound fuel remaining false r₂ vs _ hrem
        hvs
      exact ⟨⟨hreadv, hreads⟩, max_lt hdepthv hdepths⟩

end

/-- **What a document was read to reads back**, and its members are nested less deeply than it
    may be. -/
theorem readable_of_readObject (hsound : SoundNumbers) {text : String}
    {ms : List (String × Json)} (h : readObject text = some ms) :
    ReadableMembers ms ∧ depthMembers ms + 1 < documentDepth := by
  unfold readObject at h
  split at h
  · obtain ⟨⟨ms', r⟩, hms, h⟩ := Option.bind_eq_some_iff.mp h
    split at h
    · cases h
      obtain ⟨hread, hdepth⟩ := readable_of_readMembers hsound _ _ _ _ _ _ (by decide) hms
      exact ⟨hread, Nat.add_lt_of_lt_sub hdepth⟩
    · cases h
  · cases h

end Readable

end Json

end Foundation
