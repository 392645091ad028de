/-
  File:      Beacon/Foundation/SortedMap.lean
  Subject:   Maps held as their entries in strictly increasing key order, and lists sorted by a
             key.

  A map has exactly one list of entries, so equality of maps is equality of their entries and
  a walk over a map visits the keys in order. The order is a field: an unsorted or ambiguous
  map cannot be built.

  * `eq_of_sortedBy` -- two sorted lists of the same rows under distinct keys are one list.
-/
import Mathlib.Data.List.Sort
import Mathlib.Data.String.Basic

namespace Foundation

/-- The entries of a map, keys strictly increasing. -/
@[ext] structure SortedMap (κ β : Type*) [LT κ] where
  entries : List (κ × β)
  sorted : entries.Pairwise fun a b => a.1 < b.1

namespace SortedMap

variable {κ β : Type*} [LT κ]

instance [DecidableEq κ] [DecidableEq β] : DecidableEq (SortedMap κ β) := fun m n =>
  decidable_of_iff (m.entries = n.entries) SortedMap.ext_iff.symm

/-- The empty map. -/
def empty : SortedMap κ β := ⟨[], List.Pairwise.nil⟩

/-- The value at a key. -/
def get? [DecidableEq κ] (m : SortedMap κ β) (k : κ) : Option β :=
  (m.entries.find? fun e => e.1 = k).map Prod.snd

/-- The number of entries. -/
def length (m : SortedMap κ β) : Nat := m.entries.length

@[simp] theorem get?_empty [DecidableEq κ] (k : κ) : (empty : SortedMap κ β).get? k = none := rfl

end SortedMap

section SortedBy

variable {α κ : Type*} [LinearOrder κ] (key : α → κ)

/-- Sorting by a key sorts by it, whatever decides the order. -/
theorem pairwise_sortBy {dec : DecidableRel fun a b : α => key a ≤ key b} (l : List α) :
    (l.insertionSort fun a b => key a ≤ key b).Pairwise fun a b => key a ≤ key b := by
  have : Std.Total fun a b : α => key a ≤ key b := ⟨fun a b => le_total (key a) (key b)⟩
  have : IsTrans α fun a b : α => key a ≤ key b := ⟨fun _ _ _ => le_trans⟩
  exact List.pairwise_insertionSort _ l

/-- Two sorted lists of the same rows under distinct keys are equal. -/
theorem eq_of_sortedBy {l l' : List α} (hn : (l.map key).Nodup) (hp : l.Perm l')
    (hl : l.Pairwise fun a b => key a ≤ key b) (hl' : l'.Pairwise fun a b => key a ≤ key b) :
    l = l' :=
  hp.eq_of_pairwise (fun _ _ ha hb hle hle' =>
    List.inj_on_of_nodup_map hn ha (hp.mem_iff.mpr hb) (le_antisymm hle hle')) hl hl'

end SortedBy

end Foundation
