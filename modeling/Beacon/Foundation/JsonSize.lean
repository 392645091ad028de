/-
  File:      Beacon/Foundation/JsonSize.lean
  Subject:   How many bytes the compact text of a JSON value has.

  Escaping makes at most six bytes of one, so a string literal is bounded by the bytes of its
  text; an object is bounded by its members.

  * `size_printString_le` -- **a string literal** of `n` bytes of text has at most `6 * n + 2`;
  * `size_obj_le` -- an object whose members are bounded.
-/
import Beacon.Foundation.Json
import Mathlib.Algebra.Order.BigOperators.Group.List
import Mathlib.Data.String.Basic

namespace Foundation

namespace Json

open String (utf8Len)

theorem utf8Len_toList (s : String) : utf8Len s.toList = s.utf8ByteSize := by
  rw [← String.utf8ByteSize_ofList, String.ofList_toList]

theorem size_hexDigit {n : Nat} (h : n < 16) : (hexDigit n).utf8Size = 1 := by
  have key : ∀ n < 16, (hexDigit n).utf8Size = 1 := by decide
  exact key n h

/-- A character is escaped by at most six times its bytes. -/
theorem size_escapeChar_le (c : Char) : utf8Len (escapeChar c) ≤ 6 * c.utf8Size := by
  have hpos := c.utf8Size_pos
  unfold escapeChar
  split
  case h_8 =>
    split
    · rename_i hlt
      have h16 := size_hexDigit (show c.toNat / 16 < 16 by omega)
      have h0 := size_hexDigit (Nat.mod_lt c.toNat (show 16 > 0 by decide))
      have hback : '\\'.utf8Size = 1 ∧ 'u'.utf8Size = 1 ∧ '0'.utf8Size = 1 := by decide
      simp only [String.utf8Len_cons, String.utf8Len_nil, h16, h0, hback]
      omega
    · simp only [String.utf8Len_cons, String.utf8Len_nil]
      omega
  all_goals
    refine Nat.le_trans (m := 2) (by decide) ?_
    omega

theorem size_printChars_le : ∀ cs : List Char, utf8Len (printChars cs) ≤ 6 * utf8Len cs + 1
  | [] => by decide
  | c :: cs => by
    have hc := size_escapeChar_le c
    have hcs := size_printChars_le cs
    rw [printChars, String.utf8Len_append, String.utf8Len_cons]
    omega

/-- **The bytes of a string literal.** -/
theorem size_printString_le (s : String) : utf8Len (printString s) ≤ 6 * s.utf8ByteSize + 2 := by
  have h := size_printChars_le s.toList
  have hquote : '\"'.utf8Size = 1 := by decide
  rw [utf8Len_toList] at h
  rw [printString, String.utf8Len_cons, hquote]
  omega

/-- A bound on the bytes of a member: its key, escaped, the colon, the value and a comma. -/
def memberBound (m : String × Json) : Nat := 6 * m.1.utf8ByteSize + 4 + utf8Len m.2.print

theorem size_printMembers_le : ∀ (first : Bool) (ms : List (String × Json)),
    utf8Len (printMembers first ms) ≤ (ms.map memberBound).sum + 1
  | _, [] => by rw [printMembers]; decide
  | first, (k, v) :: ms => by
    have hk := size_printString_le k
    have hms := size_printMembers_le false ms
    have hcomma : utf8Len (if first then [] else [',']) ≤ 1 := by cases first <;> decide
    have hcolon : ':'.utf8Size = 1 := by decide
    rw [printMembers, String.utf8Len_append, String.utf8Len_append, String.utf8Len_cons,
      String.utf8Len_append, List.map_cons, List.sum_cons, hcolon]
    show _ ≤ 6 * k.utf8ByteSize + 4 + utf8Len v.print + _ + 1
    omega

/-- The bytes of an object. -/
theorem size_obj_le (ms : List (String × Json)) :
    utf8Len (print (.obj ms)) ≤ (ms.map memberBound).sum + 2 := by
  have h := size_printMembers_le true ms
  have hbrace : '\x7b'.utf8Size = 1 := by decide
  rw [print, String.utf8Len_cons, hbrace]
  omega

/-- **The bytes of an object whose members are bounded alike.** -/
theorem size_obj_le_of_forall {ms : List (String × Json)} {bound : Nat}
    (h : ∀ m ∈ ms, memberBound m ≤ bound) :
    utf8Len (print (.obj ms)) ≤ ms.length * bound + 2 := by
  have hsum : (ms.map memberBound).sum ≤ (ms.map memberBound).length * bound :=
    List.sum_le_card_nsmul _ bound fun n hn => by
      obtain ⟨m, hm, rfl⟩ := List.mem_map.mp hn
      exact h m hm
  rw [List.length_map] at hsum
  exact Nat.le_trans (size_obj_le ms) (Nat.add_le_add_right hsum 2)

end Json

end Foundation
