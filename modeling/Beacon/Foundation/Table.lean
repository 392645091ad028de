/-
  File:      Beacon/Foundation/Table.lean
  Subject:   Keyed tables: rows in insertion order, no two with one key.

  The uniqueness of the key is a field, so a table that violates its primary key cannot be
  built. `insert` is the SQL insert that fails on a taken key, `upsert` the insert that
  replaces the row in its place. The lemmas say what a lookup sees after each of them, and
  that every other key is left alone.
-/
import Mathlib.Data.List.Nodup

namespace Foundation

/-- Rows in insertion order; `nodup` is the primary key. -/
@[ext] structure Table (κ ρ : Type*) (key : ρ → κ) where
  rows : List ρ
  nodup : (rows.map key).Nodup

namespace Table

variable {κ ρ : Type*} {key : ρ → κ}

instance [DecidableEq ρ] : DecidableEq (Table κ ρ key) := fun t u =>
  decidable_of_iff (t.rows = u.rows) Table.ext_iff.symm

/-- The empty table. -/
def empty : Table κ ρ key := ⟨[], List.nodup_nil⟩

@[simp] theorem rows_empty : (empty : Table κ ρ key).rows = [] := rfl

/-- A row with a new key may stand at the end. -/
theorem nodup_snoc {l : List ρ} {r : ρ} (hl : (l.map key).Nodup) (hr : key r ∉ l.map key) :
    ((l ++ [r]).map key).Nodup := by
  rw [List.map_append, List.map_singleton, List.nodup_append]
  refine ⟨hl, List.nodup_singleton _, fun a ha b hb e => ?_⟩
  rw [List.mem_singleton] at hb
  exact hr (hb ▸ e ▸ ha)

variable [DecidableEq κ]

/-- The rows with `r` in the place of the row that has its key. -/
def replaced (key : ρ → κ) (r : ρ) (l : List ρ) : List ρ :=
  l.map fun x => if key x = key r then r else x

theorem keys_replaced (r : ρ) (l : List ρ) : (replaced key r l).map key = l.map key := by
  rw [replaced, List.map_map]
  refine List.map_congr_left fun x _ => ?_
  by_cases hx : key x = key r <;> simp [hx]

/-- A replacement is invisible under every other key. -/
theorem find?_replaced_ne {r : ρ} {k : κ} (hk : key r ≠ k) (l : List ρ) :
    (replaced key r l).find? (fun x => key x = k) = l.find? fun x => key x = k := by
  induction l with
  | nil => rfl
  | cons x xs ih =>
    rw [replaced, List.map_cons, List.find?_cons, List.find?_cons, ← replaced, ih]
    by_cases hx : key x = key r
    · have hxk : key x ≠ k := hx ▸ hk
      simp [hx, hk]
    · simp [hx]

/-- The row with the key `k`. -/
def get? (t : Table κ ρ key) (k : κ) : Option ρ := t.rows.find? fun r => key r = k

/-- Append a row; `none` is the violated key constraint. -/
def insert (t : Table κ ρ key) (r : ρ) : Option (Table κ ρ key) :=
  if h : key r ∈ t.rows.map key then none else some ⟨t.rows ++ [r], nodup_snoc t.nodup h⟩

/-- Replace the row with the key of `r` where it stands, or append `r`. -/
def upsert (t : Table κ ρ key) (r : ρ) : Table κ ρ key :=
  if h : key r ∈ t.rows.map key then
    ⟨replaced key r t.rows, by rw [keys_replaced]; exact t.nodup⟩
  else ⟨t.rows ++ [r], nodup_snoc t.nodup h⟩

/-- Drop the row with the key `k`; every other row stays. -/
def remove (t : Table κ ρ key) (k : κ) : Table κ ρ key :=
  ⟨t.rows.filter fun r => key r ≠ k, (List.filter_sublist.map key).nodup t.nodup⟩

/-! ## 1. Lookups -/

@[simp] theorem get?_empty (k : κ) : (empty : Table κ ρ key).get? k = none := rfl

theorem key_of_get? {t : Table κ ρ key} {k : κ} {r : ρ} (h : t.get? k = some r) : key r = k := by
  simpa using List.find?_some h

theorem mem_of_get? {t : Table κ ρ key} {k : κ} {r : ρ} (h : t.get? k = some r) : r ∈ t.rows :=
  List.mem_of_find?_eq_some h

theorem get?_eq_none {t : Table κ ρ key} {k : κ} : t.get? k = none ↔ ∀ r ∈ t.rows, key r ≠ k := by
  simp [get?, List.find?_eq_none]

theorem get?_eq_none_iff_keys {t : Table κ ρ key} {k : κ} :
    t.get? k = none ↔ k ∉ t.rows.map key := by
  rw [get?_eq_none, List.mem_map]
  exact ⟨fun h ⟨r, hr, e⟩ => h r hr e, fun h r hr e => h ⟨r, hr, e⟩⟩

/-- Every row is the one its own key finds. -/
theorem get?_of_mem {t : Table κ ρ key} {r : ρ} (h : r ∈ t.rows) : t.get? (key r) = some r := by
  cases hf : t.get? (key r) with
  | none => exact absurd rfl (get?_eq_none.mp hf r h)
  | some x =>
    have hx : x = r := List.inj_on_of_nodup_map t.nodup (mem_of_get? hf) h (key_of_get? hf)
    rw [hx]

theorem get?_eq_some {t : Table κ ρ key} {k : κ} {r : ρ} :
    t.get? k = some r ↔ r ∈ t.rows ∧ key r = k :=
  ⟨fun h => ⟨mem_of_get? h, key_of_get? h⟩, fun ⟨hr, e⟩ => e ▸ get?_of_mem hr⟩

/-! ## 2. Insert -/

theorem insert_of_fresh {t : Table κ ρ key} {r : ρ} (h : t.get? (key r) = none) :
    ∃ t', t.insert r = some t' ∧ t'.rows = t.rows ++ [r] := by
  unfold insert
  rw [dif_neg (get?_eq_none_iff_keys.mp h)]
  exact ⟨_, rfl, rfl⟩

theorem rows_of_insert {t t' : Table κ ρ key} {r : ρ} (h : t.insert r = some t') :
    t'.rows = t.rows ++ [r] := by
  unfold insert at h
  split at h
  · cases h
  · cases h
    rfl

theorem fresh_of_insert {t t' : Table κ ρ key} {r : ρ} (h : t.insert r = some t') :
    t.get? (key r) = none := by
  unfold insert at h
  split at h
  · cases h
  · rename_i hk
    exact get?_eq_none_iff_keys.mpr hk

theorem get?_insert_self {t t' : Table κ ρ key} {r : ρ} (h : t.insert r = some t') :
    t'.get? (key r) = some r :=
  get?_of_mem (by rw [rows_of_insert h]; exact List.mem_append_right _ (List.mem_singleton_self r))

theorem get?_of_rows_snoc {t t' : Table κ ρ key} {r : ρ} {k : κ} (h : t'.rows = t.rows ++ [r])
    (hk : key r ≠ k) : t'.get? k = t.get? k := by
  unfold get?
  rw [h, List.find?_append]
  simp [hk]

theorem get?_insert_ne {t t' : Table κ ρ key} {r : ρ} {k : κ} (h : t.insert r = some t')
    (hk : key r ≠ k) : t'.get? k = t.get? k := get?_of_rows_snoc (rows_of_insert h) hk

/-! ## 3. Upsert -/

theorem get?_upsert_self (t : Table κ ρ key) (r : ρ) : (t.upsert r).get? (key r) = some r := by
  apply get?_eq_some.mpr
  refine ⟨?_, rfl⟩
  unfold upsert
  split
  · rename_i h
    obtain ⟨x, hx, e⟩ := List.mem_map.mp h
    exact List.mem_map.mpr ⟨x, hx, if_pos e⟩
  · exact List.mem_append_right _ (List.mem_singleton_self r)

theorem get?_upsert_ne (t : Table κ ρ key) (r : ρ) {k : κ} (hk : key r ≠ k) :
    (t.upsert r).get? k = t.get? k := by
  unfold upsert get?
  split
  · exact find?_replaced_ne hk t.rows
  · simp [List.find?_append, hk]

theorem get?_upsert (t : Table κ ρ key) (r : ρ) (k : κ) :
    (t.upsert r).get? k = if key r = k then some r else t.get? k := by
  by_cases hk : key r = k
  · rw [if_pos hk, ← hk, get?_upsert_self]
  · rw [if_neg hk, get?_upsert_ne t r hk]

theorem rows_upsert_of_fresh {t : Table κ ρ key} {r : ρ} (h : t.get? (key r) = none) :
    (t.upsert r).rows = t.rows ++ [r] := by
  unfold upsert
  rw [dif_neg (get?_eq_none_iff_keys.mp h)]

theorem mem_upsert {t : Table κ ρ key} {r x : ρ} (h : x ∈ (t.upsert r).rows) :
    x = r ∨ x ∈ t.rows := by
  have hx := get?_of_mem h
  rw [get?_upsert] at hx
  split at hx
  · exact .inl (Option.some.inj hx).symm
  · exact .inr (mem_of_get? hx)

/-! ## 4. Remove -/

theorem get?_remove (t : Table κ ρ key) (k l : κ) :
    (t.remove k).get? l = if l = k then none else t.get? l := by
  unfold get? remove
  rw [List.find?_filter]
  by_cases hl : l = k
  · subst hl
    rw [if_pos rfl, List.find?_eq_none]
    simp
  · rw [if_neg hl]
    refine congrArg (fun p => t.rows.find? p) (funext fun r => ?_)
    by_cases hr : key r = l
    · have hk : key r ≠ k := hr ▸ hl
      simp [hr, hl]
    · simp [hr]

end Table

end Foundation
