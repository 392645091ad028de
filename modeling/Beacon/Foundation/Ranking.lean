/-
  File:      Beacon/Foundation/Ranking.lean
  Subject:   The first elements of a list by a key, judged by another order of the keys.

  A query sorts by a column as it is stored and cuts the result off. Whether that is also a list
  of the first elements by what the column means depends on those pairs only of which one could
  be in the list.

  * `mem_topBy_rank` -- what the cut keeps has few greater keys;
  * `top_topBy_iff` -- **when the stored order lists by the other one**.
-/
import Mathlib.Data.List.Sort
import Mathlib.Order.Defs.LinearOrder

namespace Foundation

variable {α κ : Type} [LinearOrder κ] {key : α → κ} {le : κ → κ → Prop} {m : Nat} {l : List α}

/-- `ORDER BY key DESC LIMIT m`. -/
def topBy (key : α → κ) (m : Nat) (l : List α) : List α :=
  (l.mergeSort fun a b => key b ≤ key a).take m

/-- Up to `m` elements of `l` in descending order, none of them below one that is left out. -/
structure Top (key : α → κ) (le : κ → κ → Prop) (m : Nat) (l top : List α) : Prop where
  length : top.length = min m l.length
  nodup : top.Nodup
  mem : ∀ a ∈ top, a ∈ l
  ordered : top.Pairwise fun a b => le (key b) (key a)
  omitted : ∀ a ∈ l, a ∉ top → ∀ b ∈ top, le (key a) (key b)

theorem pairwise_sorted (key : α → κ) (l : List α) :
    (l.mergeSort fun a b => key b ≤ key a).Pairwise fun a b => key b ≤ key a := by
  refine (List.pairwise_mergeSort (fun a b c hab hbc => ?_) (fun a b => ?_) l).imp of_decide_eq_true
  · exact decide_eq_true (le_trans (of_decide_eq_true hbc) (of_decide_eq_true hab))
  · rw [Bool.or_eq_true, decide_eq_true_eq, decide_eq_true_eq]
    exact le_total _ _

/-- The sorted list is cut in two, and everything behind the cut has a smaller or an equal key. -/
theorem topBy_split (key : α → κ) (m : Nat) (l : List α) : ∃ rest,
    (topBy key m l ++ rest).Perm l ∧ (topBy key m l).Pairwise (fun a b => key b ≤ key a) ∧
      ∀ a ∈ topBy key m l, ∀ b ∈ rest, key b ≤ key a := by
  refine ⟨(l.mergeSort fun a b => key b ≤ key a).drop m, ?_, ?_⟩
  · rw [topBy, List.take_append_drop]
    exact List.mergeSort_perm l _
  · have hsorted := pairwise_sorted key l
    rw [← List.take_append_drop m (l.mergeSort fun a b => key b ≤ key a)] at hsorted
    obtain ⟨htop, _, hcut⟩ := List.pairwise_append.mp hsorted
    exact ⟨htop, hcut⟩

theorem length_topBy (key : α → κ) (m : Nat) (l : List α) :
    (topBy key m l).length = min m l.length := by
  rw [topBy, List.length_take, List.length_mergeSort]

/-- **What the cut keeps has few greater keys.** -/
theorem mem_topBy_rank {a : α} (h : a ∈ topBy key m l) :
    l.countP (fun c => key a < key c) < m := by
  obtain ⟨rest, hperm, _, hcut⟩ := topBy_split key m l
  have hrest : rest.countP (fun c => key a < key c) = 0 :=
    List.countP_eq_zero.mpr fun c hc => by
      rw [decide_eq_true_eq]
      exact not_lt.mpr (hcut a h c hc)
  have htop : (topBy key m l).countP (fun c => key a < key c) < (topBy key m l).length := by
    refine Nat.lt_of_le_of_ne List.countP_le_length fun hall => ?_
    exact lt_irrefl (key a) (of_decide_eq_true (List.countP_eq_length.mp hall a h))
  have hlen := length_topBy key m l
  rw [← hperm.countP_eq, List.countP_append, hrest]
  omega

/-- An element with few greater keys shares its key with one the cut keeps. -/
theorem exists_mem_topBy {a : α} (ha : a ∈ l) (h : l.countP (fun c => key a < key c) < m) :
    ∃ b ∈ topBy key m l, key b = key a := by
  by_cases hmem : a ∈ topBy key m l
  · exact ⟨a, hmem, rfl⟩
  · obtain ⟨rest, hperm, _, hcut⟩ := topBy_split key m l
    have hrest : a ∈ rest := (List.mem_append.mp (hperm.mem_iff.mpr ha)).resolve_left hmem
    have hlen := length_topBy key m l
    have hsum := hperm.length_eq
    have hpos := List.length_pos_of_mem hrest
    rw [List.length_append] at hsum
    rw [← hperm.countP_eq, List.countP_append] at h
    by_contra hnone
    -- otherwise everything the cut keeps is greater, and that is too much
    have hall : (topBy key m l).countP (fun c => key a < key c) = (topBy key m l).length :=
      List.countP_eq_length.mpr fun b hb => decide_eq_true (lt_of_le_of_ne (hcut b hb a hrest)
        fun hkey => hnone ⟨b, hb, hkey.symm⟩)
    omega

/-- **When the order of the keys lists by another order**: each key that few are greater than is
    not below a smaller one by the other order. -/
theorem top_topBy_iff (hl : l.Nodup) (hrefl : ∀ k, le k k) :
    Top key le m l (topBy key m l) ↔ ∀ a ∈ l, ∀ b ∈ l, key b < key a →
      l.countP (fun c => key a < key c) < m → le (key b) (key a) := by
  obtain ⟨rest, hperm, hsorted, hcut⟩ := topBy_split key m l
  have hsub : ∀ a ∈ topBy key m l, a ∈ l := fun a ha =>
    hperm.mem_iff.mp (List.mem_append_left _ ha)
  constructor
  · intro h a ha b hb hlt hrank
    obtain ⟨a', ha', hkey⟩ := exists_mem_topBy ha hrank
    rw [← hkey] at hlt ⊢
    by_cases hmem : b ∈ topBy key m l
    · -- `a'` stands before `b`
      obtain ⟨i, hi, rfl⟩ := List.mem_iff_getElem.mp ha'
      obtain ⟨j, hj, rfl⟩ := List.mem_iff_getElem.mp hmem
      rcases Nat.lt_trichotomy i j with hij | rfl | hji
      · exact List.pairwise_iff_getElem.mp h.ordered i j hi hj hij
      · exact absurd hlt (lt_irrefl _)
      · exact absurd hlt (not_lt.mpr (List.pairwise_iff_getElem.mp hsorted j i hj hi hji))
    · exact h.omitted b hb hmem a' ha'
  · intro h
    have hbelow : ∀ a ∈ topBy key m l, ∀ b ∈ l, key b ≤ key a → le (key b) (key a) := by
      intro a ha b hb hle
      rcases lt_or_eq_of_le hle with hlt | heq
      · exact h a (hsub a ha) b hb hlt (mem_topBy_rank ha)
      · rw [heq]
        exact hrefl _
    refine ⟨length_topBy key m l, ?_, hsub, ?_, ?_⟩
    · exact (List.nodup_append.mp (hperm.nodup_iff.mpr hl)).1
    · exact hsorted.imp_of_mem fun ha hb hle => hbelow _ ha _ (hsub _ hb) hle
    · intro a ha hout b hb
      have hrest : a ∈ rest := (List.mem_append.mp (hperm.mem_iff.mpr ha)).resolve_left hout
      exact hbelow b hb a ha (hcut b hb a hrest)

end Foundation
