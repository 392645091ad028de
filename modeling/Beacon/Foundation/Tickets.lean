/-
  File:      Beacon/Foundation/Tickets.lean
  Subject:   Tickets drawn from counters, each used at most once.

  For every key there is a counter that only grows. A holder draws the ticket `(k, n)` when the
  counter of `k` passes to `n`; it may lose the ticket, or use it, which gives it up. Whatever
  the holders do, no ticket is used twice and every used ticket of `k` carries a number between
  one and the counter, so `k` is used at most as often as its counter says.

  * `Tickets` -- the invariant;
  * `Tickets.draw`, `Tickets.use`, `Tickets.drop`, `Tickets.grow` -- what keeps it;
  * `Tickets.count_le` -- **uses are bounded by the counter**.
-/
import Mathlib.Data.List.Nodup
import Mathlib.Data.List.Perm.Subperm
import Mathlib.Logic.Function.Basic

namespace Foundation

variable {κ ι : Type*}

/-- Held and used tickets are numbered up to the counters, none is used twice, none is used
    while it is held, and no two holders hold one. -/
structure Tickets (counter : κ → Nat) (held : ι → Option (κ × Nat)) (used : List (κ × Nat)) :
    Prop where
  held_le : ∀ i t, held i = some t → 1 ≤ t.2 ∧ t.2 ≤ counter t.1
  used_le : ∀ t ∈ used, 1 ≤ t.2 ∧ t.2 ≤ counter t.1
  once : used.Nodup
  unused : ∀ i t, held i = some t → t ∉ used
  apart : ∀ i j t, held i = some t → held j = some t → i = j

namespace Tickets

variable {counter counter' : κ → Nat} {held held' : ι → Option (κ × Nat)} {used : List (κ × Nat)}

theorem start (counter : κ → Nat) : Tickets counter (fun _ : ι => none) [] where
  held_le := nofun
  used_le := fun _ h => absurd h List.not_mem_nil
  once := List.nodup_nil
  unused := nofun
  apart := nofun

theorem grow (h : Tickets counter held used) (hle : ∀ k, counter k ≤ counter' k) :
    Tickets counter' held used where
  held_le := fun i t ht => ⟨(h.held_le i t ht).1, Nat.le_trans (h.held_le i t ht).2 (hle t.1)⟩
  used_le := fun t ht => ⟨(h.used_le t ht).1, Nat.le_trans (h.used_le t ht).2 (hle t.1)⟩
  once := h.once
  unused := h.unused
  apart := h.apart

variable [DecidableEq ι]

/-- What is held after `i` gave its ticket up was held before, by another. -/
theorem held_of_dropped {i j : ι} {t : κ × Nat}
    (h : Function.update held i none j = some t) : held j = some t := by
  by_cases hj : j = i
  · subst hj
    rw [Function.update_self] at h
    cases h
  · rwa [Function.update_of_ne hj] at h

theorem drop (h : Tickets counter held used) (i : ι) :
    Tickets counter (Function.update held i none) used where
  held_le := fun j t ht => h.held_le j t (held_of_dropped ht)
  used_le := h.used_le
  once := h.once
  unused := fun j t ht => h.unused j t (held_of_dropped ht)
  apart := fun j k t hj hk => h.apart j k t (held_of_dropped hj) (held_of_dropped hk)

/-- **A ticket is drawn** with a number above the counter before. -/
theorem draw (h : Tickets counter held used) (i : ι) {k : κ} {n : Nat} (hlt : counter k < n)
    (hn : n ≤ counter' k) (hle : ∀ k, counter k ≤ counter' k) :
    Tickets counter' (Function.update held i (some (k, n))) used := by
  have hfresh : ∀ j, held j ≠ some (k, n) := fun j hj =>
    absurd (h.held_le j _ hj).2 (Nat.not_le_of_lt hlt)
  have hcase : ∀ {j t}, Function.update held i (some (k, n)) j = some t →
      (j = i ∧ t = (k, n)) ∨ (j ≠ i ∧ held j = some t) := by
    intro j t ht
    by_cases hj : j = i
    · subst hj
      rw [Function.update_self] at ht
      cases ht
      exact .inl ⟨rfl, rfl⟩
    · rw [Function.update_of_ne hj] at ht
      exact .inr ⟨hj, ht⟩
  refine ⟨fun j t ht => ?_, (h.grow hle).used_le, h.once, fun j t ht => ?_,
    fun j l t hj hl => ?_⟩
  · rcases hcase ht with ⟨_, rfl⟩ | ⟨_, ht⟩
    · exact ⟨Nat.lt_of_le_of_lt (Nat.zero_le _) hlt, hn⟩
    · exact (h.grow hle).held_le j t ht
  · rcases hcase ht with ⟨_, rfl⟩ | ⟨_, ht⟩
    · exact fun hu => absurd (h.used_le _ hu).2 (Nat.not_le_of_lt hlt)
    · exact h.unused j t ht
  · rcases hcase hj with ⟨hji, htn⟩ | ⟨_, hj'⟩ <;> rcases hcase hl with ⟨hli, htn'⟩ | ⟨_, hl'⟩
    · exact hji.trans hli.symm
    · exact absurd (htn ▸ hl') (hfresh l)
    · exact absurd (htn' ▸ hj') (hfresh j)
    · exact h.apart j l t hj' hl'

/-- **A held ticket is used**, and given up. -/
theorem use (h : Tickets counter held used) {i : ι} {t : κ × Nat} (hi : held i = some t) :
    Tickets counter (Function.update held i none) (used ++ [t]) := by
  have hd := h.drop i
  refine ⟨hd.held_le, ?_, ?_, ?_, hd.apart⟩
  · intro u hu
    rcases List.mem_append.mp hu with hu | hu
    · exact h.used_le u hu
    · rw [List.mem_singleton.mp hu]
      exact h.held_le i t hi
  · refine List.nodup_append.mpr ⟨h.once, List.nodup_singleton t, fun a ha b hb e => ?_⟩
    rw [List.mem_singleton.mp hb] at e
    exact h.unused i t hi (e ▸ ha)
  · intro j u hj hu
    rcases List.mem_append.mp hu with hu | hu
    · exact hd.unused j u hj hu
    · rw [List.mem_singleton.mp hu] at hj
      have hji : j = i := h.apart j i t (held_of_dropped hj) hi
      rw [hji, Function.update_self] at hj
      cases hj

omit [DecidableEq ι] in
/-- **A key is used at most as often as its counter says.** -/
theorem count_le [DecidableEq κ] (h : Tickets counter held used) (k : κ) :
    (used.filter fun t => t.1 = k).length ≤ counter k := by
  have hnodup : ((used.filter fun t => t.1 = k).map Prod.snd).Nodup := by
    refine List.Nodup.map_on (fun a ha b hb e => ?_) (h.once.filter _)
    have hak := of_decide_eq_true (List.mem_filter.mp ha).2
    have hbk := of_decide_eq_true (List.mem_filter.mp hb).2
    exact Prod.ext (hak.trans hbk.symm) e
  have hsub : ((used.filter fun t => t.1 = k).map Prod.snd) ⊆ List.range' 1 (counter k) := by
    intro n hn
    obtain ⟨t, ht, rfl⟩ := List.mem_map.mp hn
    obtain ⟨hu, hk⟩ := List.mem_filter.mp ht
    have hle := h.used_le t hu
    rw [of_decide_eq_true hk] at hle
    exact List.mem_range'_1.mpr ⟨hle.1, by omega⟩
  have hlen := (List.subperm_of_subset hnodup hsub).length_le
  rwa [List.length_map, List.length_range'] at hlen

end Tickets

end Foundation
