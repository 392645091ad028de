/-
  File:      Beacon/Foundation/Text.lean
  Subject:   The string operations of the Rust standard library that the model uses.

  Strings are sequences of Unicode scalar values on both sides; `utf8ByteSize` is Rust's `len`.
  A search for an ASCII character followed by two slices is `splitOnce`.
-/
import Mathlib.Data.Bool.AllAny
import Mathlib.Data.List.TakeWhile
import Mathlib.Data.String.Basic

namespace Foundation

namespace Text

/-- The Unicode property White_Space, as `char::is_whitespace` tests it. -/
def isWhitespace (c : Char) : Bool :=
  let n := c.toNat
  (0x9 ≤ n && n ≤ 0xd) || n = 0x20 || n = 0x85 || n = 0xa0 || n = 0x1680 ||
    (0x2000 ≤ n && n ≤ 0x200a) || n = 0x2028 || n = 0x2029 || n = 0x202f || n = 0x205f || n = 0x3000

/-- The Unicode category Cc, as `char::is_control` tests it. -/
def isControl (c : Char) : Bool :=
  let n := c.toNat
  n ≤ 0x1f || (0x7f ≤ n && n ≤ 0x9f)

/-- `str::trim`. -/
def trim (s : String) : String :=
  String.ofList ((s.toList.dropWhile isWhitespace).reverse.dropWhile isWhitespace).reverse

/-- `s.trim().is_empty()`. -/
def isBlank (s : String) : Bool := (trim s).isEmpty

/-- `str::strip_prefix`. -/
def stripPrefix (start s : String) : Option String :=
  if start.toList.isPrefixOf s.toList then some (String.ofList (s.toList.drop start.length))
  else none

/-- A text without blanks and a line break are trimmed to the text. -/
theorem trim_append {s : String} {blanks : List Char} (hs : ∀ c ∈ s.toList, isWhitespace c = false)
    (hb : ∀ c ∈ blanks, isWhitespace c = true) : trim (s ++ String.ofList blanks) = s := by
  have hstop : ∀ l : List Char, (∀ c ∈ l, isWhitespace c = false) → l.dropWhile isWhitespace = l := by
    intro l hl
    cases l with
    | nil => rfl
    | cons c l =>
      exact List.dropWhile_cons_of_neg (by rw [hl c List.mem_cons_self]; exact Bool.false_ne_true)
  have hrev : (s.toList ++ blanks).reverse.dropWhile isWhitespace = s.toList.reverse := by
    rw [List.reverse_append, List.dropWhile_append_of_pos fun c hc => hb c (List.mem_reverse.mp hc)]
    exact hstop _ fun c hc => hs c (List.mem_reverse.mp hc)
  have hfront : ∃ l, (s.toList ++ blanks).dropWhile isWhitespace = l ∧
      l.reverse.dropWhile isWhitespace = s.toList.reverse := by
    refine ⟨_, rfl, ?_⟩
    cases h : s.toList with
    | nil =>
      have hall : blanks.dropWhile isWhitespace = [] :=
        List.dropWhile_eq_nil_iff.mpr fun c hc => hb c hc
      rw [List.nil_append, hall]
      rfl
    | cons c l =>
      have hc : isWhitespace c = false := hs c (by rw [h]; exact List.mem_cons_self)
      rw [List.cons_append, List.dropWhile_cons_of_neg (by rw [hc]; exact Bool.false_ne_true),
        ← List.cons_append, ← h]
      exact hrev
  obtain ⟨l, hl, htail⟩ := hfront
  rw [trim, String.toList_append, String.toList_ofList, hl, htail, List.reverse_reverse,
    String.ofList_toList]

theorem trim_of_no_blank {s : String} (hs : ∀ c ∈ s.toList, isWhitespace c = false) : trim s = s := by
  have h := @trim_append s [] hs fun c hc => (List.not_mem_nil hc).elim
  rwa [String.ofList_nil, String.append_empty] at h

/-- The text before and after the first `c`; `none` where there is no `c`. -/
def splitOnce (c : Char) : List Char → Option (List Char × List Char)
  | [] => none
  | d :: r => if d = c then some ([], r) else (splitOnce c r).map fun p => (d :: p.1, p.2)

/-- A split puts the text back together around the `c` it found, and found the first one. -/
theorem splitOnce_eq_some {c : Char} {l before after : List Char}
    (h : splitOnce c l = some (before, after)) : l = before ++ c :: after ∧ c ∉ before := by
  induction l generalizing before with
  | nil => cases h
  | cons d r ih =>
    rw [splitOnce] at h
    split at h
    · rename_i hd
      cases h
      exact ⟨by rw [hd]; rfl, List.not_mem_nil⟩
    · rename_i hd
      obtain ⟨p, hp, e⟩ := Option.map_eq_some_iff.mp h
      obtain ⟨rfl, rfl⟩ := Prod.mk.inj e
      obtain ⟨h1, h2⟩ := ih hp
      refine ⟨by rw [h1]; rfl, ?_⟩
      rw [List.mem_cons, not_or]
      exact ⟨fun e => hd e.symm, h2⟩

/-- The rest after a split is shorter than the text. -/
theorem splitOnce_length {c : Char} {l before after : List Char}
    (h : splitOnce c l = some (before, after)) : after.length < l.length := by
  rw [(splitOnce_eq_some h).1, List.length_append, List.length_cons]
  omega

/-- The first `c` is the one after a text without it. -/
theorem splitOnce_append {c : Char} {before : List Char} (h : c ∉ before) (after : List Char) :
    splitOnce c (before ++ c :: after) = some (before, after) := by
  induction before with
  | nil => exact if_pos rfl
  | cons d before ih =>
    rw [List.mem_cons, not_or] at h
    rw [List.cons_append, splitOnce, if_neg (Ne.symm h.1), ih h.2]
    rfl

theorem splitOnce_eq_none {c : Char} {l : List Char} : splitOnce c l = none ↔ c ∉ l := by
  constructor
  · intro h hmem
    obtain ⟨before, after, rfl, hfirst⟩ := List.eq_append_cons_of_mem hmem
    rw [splitOnce_append hfirst] at h
    cases h
  · intro h
    cases hs : splitOnce c l with
    | none => rfl
    | some p =>
      refine absurd ?_ h
      rw [(splitOnce_eq_some hs).1]
      exact List.mem_append_right _ List.mem_cons_self

end Text

end Foundation
