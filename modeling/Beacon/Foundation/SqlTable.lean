/-
  File:      Beacon/Foundation/SqlTable.lean
  Subject:   Tables of cells, and statements that name their columns.

  A table of SQL has columns, in the order in which they were declared or added, and rows of as
  many cells; both are fields. A statement sees of a row the cell of each column by its name
  (`record`). The database refuses a statement that names a column the table does not have, a row
  with a key that is taken, and a NULL where none may stand. The order of the columns makes no
  difference to a statement, so what a table keeps of a list of values is asked of its columns as
  a set (`Stores`).

  * `record_newRow`, `record_change` -- what an INSERT and an UPDATE write is what is read;
  * `Stores.insert`, `Stores.update`, `Stores.select` -- **statements act on the values**;
  * `Stores.addColumn` -- a column that is added reads as its default in the rows there are.
-/
import Mathlib.Data.List.Forall2
import Mathlib.Data.List.Nodup

namespace Foundation

/-! ## 1. Cells -/

inductive Cell where
  | null
  | integer (n : Int)
  | text (s : String)
  deriving DecidableEq, Repr

namespace Cell

/-- `a = b` in a WHERE clause; NULL equals nothing. -/
def eq (a b : Cell) : Bool := a ≠ .null && a = b

/-- `a <= b` in a WHERE clause: numbers come before texts, NULL compares with nothing. -/
def le : Cell → Cell → Bool
  | .integer m, .integer n => m ≤ n
  | .integer _, .text _ => true
  | .text s, .text t => s ≤ t
  | _, _ => false

/-- `a < b` in a WHERE clause. -/
def lt : Cell → Cell → Bool
  | .integer m, .integer n => m < n
  | .integer _, .text _ => true
  | .text s, .text t => s < t
  | _, _ => false

/-- The cell of a text that may be missing. -/
def ofText? : Option String → Cell
  | none => .null
  | some s => .text s

end Cell

/-- What a statement sees of a row. -/
abbrev SqlRecord := String → Cell

/-! ## 2. Tables -/

/-- A column; an INSERT that does not name it writes the default. -/
structure Column where
  name : String
  notNull : Bool
  default : Cell
  deriving DecidableEq, Repr

/-- The columns and the UNIQUE constraint of a table. -/
structure TableSchema where
  columns : List Column
  key : List String
  nodup : (columns.map Column.name).Nodup

structure SqlTable extends TableSchema where
  rows : List (List Cell)
  widths : ∀ row ∈ rows, row.length = columns.length

namespace SqlTable

variable (t : SqlTable)

def names : List String := t.columns.map Column.name

/-- The table has these columns. -/
def has (named : List String) : Bool := named.all fun n => n ∈ t.names

def record (row : List Cell) : SqlRecord := fun n => ((t.names.zip row).lookup n).getD .null

def records : List SqlRecord := t.rows.map t.record

/-- `CREATE TABLE`. -/
def create (S : TableSchema) : SqlTable := { S with rows := [], widths := nofun }

/-- The records of `SELECT .. FROM .. WHERE p`. -/
def select (named : List String) (p : SqlRecord → Bool) : Option (List SqlRecord) :=
  if t.has named then some (t.records.filter p) else none

/-- A row that is made column by column. -/
def build (f : Column → Cell) : List Cell := t.columns.map f

/-- NULL stands only where it may. -/
def admits (f : Column → Cell) : Bool := t.columns.all fun c => !c.notNull || f c ≠ .null

/-- The cells an INSERT writes. -/
def inserted (values : List (String × Cell)) (c : Column) : Cell :=
  (values.lookup c.name).getD c.default

/-- The cells an UPDATE writes. -/
def assigned (r : SqlRecord) (values : List (String × Cell)) (c : Column) : Cell :=
  (values.lookup c.name).getD (r c.name)

/-- Two rows have one key. -/
def sameKey (r s : SqlRecord) : Bool := t.key.all fun k => r k = s k

def newRecord (values : List (String × Cell)) : SqlRecord := t.record (t.build (inserted values))

/-- There is a row with the key of the new one. -/
def taken (values : List (String × Cell)) : Bool :=
  t.records.any fun r => t.sameKey r (t.newRecord values)

def append (values : List (String × Cell)) : SqlTable :=
  { t with
    rows := t.rows ++ [t.build (inserted values)]
    widths := by
      intro row hrow
      rcases List.mem_append.mp hrow with hrow | hrow
      · exact t.widths row hrow
      · rw [List.mem_singleton.mp hrow]
        exact List.length_map _ }

/-- `INSERT`. -/
def insert (values : List (String × Cell)) : Option SqlTable :=
  if t.has (values.map Prod.fst) && t.admits (inserted values) && !t.taken values then
    some (t.append values)
  else none

/-- The cells of an INSERT into a table with an AUTOINCREMENT column. -/
def numbered (id : String) (sequence : Nat) (values : List (String × Cell)) :
    List (String × Cell) := (id, .integer ((sequence + 1 : Nat) : Int)) :: values

/-- `INSERT OR IGNORE` into such a table; `sequence` is the last number that was given out. The row
    is numbered before its constraints are checked, so an ignored one uses up its number. -/
def insertOrIgnore (id : String) (sequence : Nat) (values : List (String × Cell)) :
    Option (SqlTable × Nat) :=
  if t.has ((numbered id sequence values).map Prod.fst) then
    some (if t.admits (inserted (numbered id sequence values)) &&
        !t.taken (numbered id sequence values) then
      (t.append (numbered id sequence values), sequence + 1)
    else (t, sequence + 1))
  else none

def changeWhere (p : SqlRecord → Bool) (set : SqlRecord → List (String × Cell)) : SqlTable :=
  { t with
    rows := t.rows.map fun row =>
      if p (t.record row) then t.build (assigned (t.record row) (set (t.record row))) else row
    widths := by
      intro row hrow
      obtain ⟨old, hold, rfl⟩ := List.mem_map.mp hrow
      split
      · exact List.length_map _
      · exact t.widths old hold }

/-- `UPDATE .. SET set WHERE p`. -/
def update (named : List String) (p : SqlRecord → Bool) (set : SqlRecord → List (String × Cell)) :
    Option SqlTable :=
  if t.has named && (t.records.filter p).all fun r => t.admits (assigned r (set r)) then
    some (t.changeWhere p set)
  else none

/-- `INSERT .. ON CONFLICT(key) DO UPDATE SET c = excluded.c`, for the columns `c` in `excluded`. -/
def upsert (values : List (String × Cell)) (excluded : List String) : Option SqlTable :=
  if t.taken values then
    t.update (values.map Prod.fst) (fun r => t.sameKey r (t.newRecord values))
      fun _ => values.filter fun v => v.1 ∈ excluded
  else t.insert values

/-- `ALTER TABLE .. ADD COLUMN`. -/
def addColumn (c : Column) (h : c.name ∉ t.names) : SqlTable :=
  { columns := t.columns ++ [c]
    key := t.key
    rows := t.rows.map fun row => row ++ [c.default]
    nodup := by
      rw [List.map_append, List.map_singleton, List.nodup_append]
      refine ⟨t.nodup, List.nodup_singleton _, fun a ha b hb e => h ?_⟩
      rw [← List.mem_singleton.mp hb, ← e]
      exact ha
    widths := by
      intro row hrow
      obtain ⟨old, hold, rfl⟩ := List.mem_map.mp hrow
      rw [List.length_append, List.length_append, t.widths old hold]
      rfl }

/-! ## 3. Reading what was written -/

variable {t} {c : Column}

/-- **A row that is made column by column** reads so. -/
theorem record_build (hc : c ∈ t.columns) (f : Column → Cell) :
    t.record (t.build f) c.name = f c := by
  have hlookup : ∀ columns : List Column, (columns.map Column.name).Nodup → c ∈ columns →
      ((columns.map Column.name).zip (columns.map f)).lookup c.name = some (f c) := by
    intro columns hn hc
    induction columns with
    | nil => cases hc
    | cons d ds ih =>
      rw [List.map_cons, List.nodup_cons] at hn
      rw [List.map_cons, List.map_cons, List.zip_cons_cons, List.lookup_cons]
      rcases List.mem_cons.mp hc with rfl | hc
      · rw [beq_self_eq_true]
      · have hne : c.name ≠ d.name := fun e => hn.1 (List.mem_map.mpr ⟨c, hc, e⟩)
        rw [beq_false_of_ne hne]
        exact ih hn.2 hc
  exact congrArg (·.getD .null) (hlookup t.columns t.nodup hc)

theorem has_iff {named : List String} : t.has named = true ↔ ∀ n ∈ named, n ∈ t.names := by
  simp only [has, List.all_eq_true, decide_eq_true_eq]

theorem names_addColumn {h : c.name ∉ t.names} : (t.addColumn c h).names = t.names ++ [c.name] := by
  rw [names, addColumn, List.map_append]
  rfl

/-- A row with a further cell reads as before, and the cell under the new name. -/
theorem record_addColumn {h : c.name ∉ t.names} {row : List Cell} (hrow : row ∈ t.rows)
    (n : String) : (t.addColumn c h).record (row ++ [c.default]) n =
      if n = c.name then c.default else t.record row n := by
  have hlength : t.names.length = row.length := by
    rw [names, List.length_map, t.widths row hrow]
  unfold record
  rw [names_addColumn, List.zip_append hlength, List.lookup_append]
  by_cases hn : n = c.name
  · have hnone : (t.names.zip row).lookup n = none := by
      rw [List.lookup_eq_none_iff]
      intro p hp
      have hp := (List.of_mem_zip hp).1
      have hne : n ≠ p.1 := fun e => h (by rw [← hn, e]; exact hp)
      exact bne_iff_ne.mpr hne
    rw [hnone, if_pos hn, hn]
    simp
  · rw [if_neg hn]
    simp [List.lookup_cons, beq_false_of_ne hn]

/-! ## 4. Tables of values -/

section Values

variable {ρ : Type*} {S : TableSchema} {cells : ρ → SqlRecord}

/-- The record shows the cells of the value. -/
def Shows (S : TableSchema) (cells : ρ → SqlRecord) (r : SqlRecord) (x : ρ) : Prop :=
  ∀ c ∈ S.columns, r c.name = cells x c.name

/-- The value has no NULL where none may stand. -/
def Full (S : TableSchema) (cells : ρ → SqlRecord) (x : ρ) : Prop :=
  ∀ c ∈ S.columns, c.notNull = true → cells x c.name ≠ .null

/-- The table of these values. -/
def tabulate (S : TableSchema) (cells : ρ → SqlRecord) (xs : List ρ) : SqlTable :=
  { S with
    rows := xs.map fun x => S.columns.map fun c => cells x c.name
    widths := by
      intro row hrow
      obtain ⟨x, _, rfl⟩ := List.mem_map.mp hrow
      exact List.length_map _ }

/-- The table has the columns and the key of the schema, and its rows are these values. -/
structure Stores (t : SqlTable) (S : TableSchema) (cells : ρ → SqlRecord) (xs : List ρ) : Prop where
  columns : ∀ c, c ∈ t.columns ↔ c ∈ S.columns
  key : t.key = S.key
  records : List.Forall₂ (Shows S cells) t.records xs

/-- The cells an INSERT names are of the table, and with the defaults they are those of `x`. -/
structure Writes (S : TableSchema) (cells : ρ → SqlRecord) (values : List (String × Cell)) (x : ρ) :
    Prop where
  named : ∀ n ∈ values.map Prod.fst, n ∈ S.columns.map Column.name
  shown : ∀ c ∈ S.columns, inserted values c = cells x c.name
  full : Full S cells x

/-- Among the values, `same` tells those with the key of `x`. -/
def KeyedBy (S : TableSchema) (cells : ρ → SqlRecord) (same : ρ → Bool) (x : ρ) (xs : List ρ) : Prop :=
  (∀ k ∈ S.key, k ∈ S.columns.map Column.name) ∧
    ∀ y ∈ xs, (S.key.all fun k => cells y k = cells x k) = same y

namespace Stores

variable {xs : List ρ} {x : ρ} {values : List (String × Cell)}

theorem has (h : t.Stores S cells xs) {ns : List String}
    (hns : ∀ n ∈ ns, n ∈ S.columns.map Column.name) : t.has ns = true := by
  refine has_iff.mpr fun n hn => ?_
  obtain ⟨c, hc, rfl⟩ := List.mem_map.mp (hns n hn)
  exact List.mem_map_of_mem ((h.columns c).mpr hc)

/-- **Every list of values** has a table. -/
theorem tabulate (xs : List ρ) : (SqlTable.tabulate S cells xs).Stores S cells xs := by
  refine ⟨fun _ => Iff.rfl, rfl, ?_⟩
  rw [SqlTable.records, SqlTable.tabulate, List.forall₂_map_left_iff, List.forall₂_map_left_iff,
    List.forall₂_same]
  intro x _ c hc
  exact record_build (t := SqlTable.tabulate S cells xs) hc _

/-- A new table holds nothing. -/
theorem create : (SqlTable.create S).Stores S cells [] := ⟨fun _ => Iff.rfl, rfl, .nil⟩

/-- Two tests that agree on records and values select the same. -/
theorem filter {rs : List SqlRecord} (h : List.Forall₂ (Shows S cells) rs xs) {p : SqlRecord → Bool}
    {q : ρ → Bool} (hp : ∀ r, ∀ x ∈ xs, Shows S cells r x → p r = q x) :
    List.Forall₂ (Shows S cells) (rs.filter p) (xs.filter q) := by
  induction h with
  | nil => exact .nil
  | @cons r x rs xs hshows _ ih =>
    rw [List.filter_cons, List.filter_cons, hp r x List.mem_cons_self hshows]
    have hrest := ih fun r x hx => hp r x (List.mem_cons_of_mem _ hx)
    split
    · exact .cons hshows hrest
    · exact hrest

/-- **A SELECT** finds the values its WHERE clause means. -/
theorem select (h : t.Stores S cells xs) (ns : List String)
    (hns : ∀ n ∈ ns, n ∈ S.columns.map Column.name) {p : SqlRecord → Bool} {q : ρ → Bool}
    (hp : ∀ r, ∀ x ∈ xs, Shows S cells r x → p r = q x) :
    ∃ rs, t.select ns p = some rs ∧ List.Forall₂ (Shows S cells) rs (xs.filter q) :=
  ⟨_, if_pos (h.has hns), filter h.records hp⟩

/-- A test that agrees on records and values is passed by both or by neither. -/
theorem any {rs : List SqlRecord} (h : List.Forall₂ (Shows S cells) rs xs) {p : SqlRecord → Bool}
    {q : ρ → Bool} (hp : ∀ r, ∀ x ∈ xs, Shows S cells r x → p r = q x) : rs.any p = xs.any q := by
  induction h with
  | nil => rfl
  | @cons r x rs xs hshows _ ih =>
    rw [List.any_cons, List.any_cons, hp r x List.mem_cons_self hshows,
      ih fun r x hx => hp r x (List.mem_cons_of_mem _ hx)]

/-- A row of the table that is made of the cells of `x` shows `x`. -/
theorem shows_build (h : t.Stores S cells xs) {f : Column → Cell}
    (hf : ∀ c ∈ S.columns, f c = cells x c.name) : Shows S cells (t.record (t.build f)) x :=
  fun c hc => (record_build ((h.columns c).mpr hc) f).trans (hf c hc)

theorem admits (h : t.Stores S cells xs) {f : Column → Cell}
    (hf : ∀ c ∈ S.columns, f c = cells x c.name) (hfull : Full S cells x) : t.admits f = true := by
  refine List.all_eq_true.mpr fun c hc => ?_
  have hc := (h.columns c).mp hc
  cases hnull : c.notNull with
  | false => rfl
  | true =>
    rw [Bool.not_true, Bool.false_or, hf c hc]
    exact decide_eq_true (hfull c hc hnull)

/-- `ORDER BY`: records sorted like their values. -/
theorem sort {rs : List SqlRecord} (h : List.Forall₂ (Shows S cells) rs xs)
    (le : SqlRecord → SqlRecord → Bool) (le' : ρ → ρ → Bool)
    (hle : ∀ r x s y, Shows S cells r x → Shows S cells s y → le r s = le' x y) :
    List.Forall₂ (Shows S cells) (rs.mergeSort le) (xs.mergeSort le') := by
  have hpairs : ∃ ps : List (SqlRecord × ρ), ps.map Prod.fst = rs ∧ ps.map Prod.snd = xs ∧
      ∀ p ∈ ps, Shows S cells p.1 p.2 := by
    clear hle
    induction h with
    | nil => exact ⟨[], rfl, rfl, fun _ hp => absurd hp List.not_mem_nil⟩
    | @cons r x rs xs hshows _ ih =>
      obtain ⟨ps, rfl, rfl, hps⟩ := ih
      exact ⟨(r, x) :: ps, rfl, rfl, List.forall_mem_cons.mpr ⟨hshows, hps⟩⟩
  obtain ⟨ps, rfl, rfl, hps⟩ := hpairs
  rw [← List.map_mergeSort (r := fun p q => le p.1 q.1) fun _ _ _ _ => rfl,
    ← List.map_mergeSort (r := fun p q => le p.1 q.1) fun p hp q hq =>
      hle _ _ _ _ (hps p hp) (hps q hq),
    List.forall₂_map_left_iff, List.forall₂_map_right_iff, List.forall₂_same]
  exact fun p hp => hps p (List.mem_mergeSort.mp hp)

/-! ### Inserts -/

theorem sameKey (h : t.Stores S cells xs) {same : ρ → Bool} (hw : Writes S cells values x)
    (hk : KeyedBy S cells same x xs) {r : SqlRecord} {y : ρ} (hy : y ∈ xs)
    (hshows : Shows S cells r y) : t.sameKey r (t.newRecord values) = same y := by
  rw [← hk.2 y hy, SqlTable.sameKey, h.key, Bool.eq_iff_iff]
  simp only [List.all_eq_true, decide_eq_true_eq]
  refine forall₂_congr fun k hkey => ?_
  obtain ⟨c, hc, rfl⟩ := List.mem_map.mp (hk.1 k hkey)
  rw [hshows c hc, newRecord, h.shows_build hw.shown c hc]

theorem taken (h : t.Stores S cells xs) {same : ρ → Bool} (hw : Writes S cells values x)
    (hk : KeyedBy S cells same x xs) : t.taken values = xs.any same :=
  any h.records fun _ _ hy hshows => h.sameKey hw hk hy hshows

/-- A row at the end. -/
theorem append (h : t.Stores S cells xs) (hw : Writes S cells values x) :
    (t.append values).Stores S cells (xs ++ [x]) := by
  refine ⟨h.columns, h.key, ?_⟩
  have hrows : (t.append values).records = t.records ++ [t.newRecord values] := by
    rw [SqlTable.records, SqlTable.records]
    exact List.map_append
  rw [hrows]
  exact List.rel_append h.records (.cons (h.shows_build hw.shown) .nil)

/-- **An INSERT** puts the value at the end, or is refused for its key. -/
theorem insert (h : t.Stores S cells xs) {same : ρ → Bool} (hw : Writes S cells values x)
    (hk : KeyedBy S cells same x xs) :
    t.insert values = if xs.any same then none else some (t.append values) := by
  rw [SqlTable.insert, h.has hw.named, h.admits hw.shown hw.full, h.taken hw hk]
  cases xs.any same <;> rfl

/-- **An INSERT OR IGNORE** puts the value at the end, or nothing for its key. -/
theorem insertOrIgnore (h : t.Stores S cells xs) {id : String} {sequence : Nat} {same : ρ → Bool}
    (hw : Writes S cells (numbered id sequence values) x) (hk : KeyedBy S cells same x xs) :
    t.insertOrIgnore id sequence values = some (if xs.any same then (t, sequence + 1)
      else (t.append (numbered id sequence values), sequence + 1)) := by
  rw [SqlTable.insertOrIgnore, h.has hw.named, h.admits hw.shown hw.full, h.taken hw hk]
  cases xs.any same <;> rfl

/-! ### Updates -/

/-- The cells an UPDATE writes into the row of a value. -/
theorem assigned_of_shows {r : SqlRecord} (h : Shows S cells r x) (hc : c ∈ S.columns)
    (values : List (String × Cell)) : assigned r values c = assigned (cells x) values c := by
  rw [assigned, assigned, h c hc]

/-- **An UPDATE** changes the values it selects. -/
theorem update (h : t.Stores S cells xs) {named : List String}
    (hnamed : ∀ n ∈ named, n ∈ S.columns.map Column.name) {p : SqlRecord → Bool} {q : ρ → Bool}
    {f : ρ → ρ} {set : SqlRecord → List (String × Cell)}
    (hp : ∀ r, ∀ x ∈ xs, Shows S cells r x → p r = q x)
    (hset : ∀ r, ∀ x ∈ xs, Shows S cells r x → q x = true →
      (∀ c ∈ S.columns, assigned r (set r) c = cells (f x) c.name) ∧ Full S cells (f x)) :
    ∃ t', t.update named p set = some t' ∧
      t'.Stores S cells (xs.map fun x => if q x then f x else x) := by
  have hall : (t.records.filter p).all (fun r => t.admits (assigned r (set r))) = true := by
    have hfilter := filter h.records hp
    have hgood : ∀ x ∈ xs.filter q, x ∈ xs ∧ q x = true := fun x hx => List.mem_filter.mp hx
    revert hfilter hgood
    generalize t.records.filter p = rs
    generalize xs.filter q = ys
    intro hfilter hgood
    induction hfilter with
    | nil => rfl
    | @cons r x rs ys hshows _ ih =>
      obtain ⟨hx, hq⟩ := hgood x List.mem_cons_self
      obtain ⟨hcells, hfull⟩ := hset r x hx hshows hq
      rw [List.all_cons, h.admits hcells hfull, ih fun x hx => hgood x (List.mem_cons_of_mem _ hx)]
      rfl
  refine ⟨t.changeWhere p set, ?_, h.columns, h.key, ?_⟩
  · rw [SqlTable.update, h.has hnamed, hall]
    rfl
  have hone : ∀ row, ∀ x ∈ xs, Shows S cells (t.record row) x →
      Shows S cells (t.record (if p (t.record row) then
        t.build (assigned (t.record row) (set (t.record row))) else row))
        (if q x then f x else x) := by
    intro row x hx hshows
    rw [hp _ x hx hshows]
    by_cases hq : q x = true
    · rw [if_pos hq, if_pos hq]
      exact h.shows_build (hset _ x hx hshows hq).1
    · rw [if_neg hq, if_neg hq]
      exact hshows
  have hrecords := h.records
  rw [SqlTable.records, List.forall₂_map_left_iff] at hrecords
  rw [SqlTable.records, List.forall₂_map_left_iff]
  show List.Forall₂ _ (t.rows.map _) (xs.map _)
  rw [List.forall₂_map_left_iff, List.forall₂_map_right_iff]
  clear hp hset hall h
  revert hone
  generalize t.rows = rows at hrecords ⊢
  intro hone
  induction hrecords with
  | nil => exact .nil
  | cons hshows _ ih =>
    exact .cons (hone _ _ List.mem_cons_self hshows)
      (ih fun row x hx => hone row x (List.mem_cons_of_mem _ hx))

theorem lookup_filter (excluded : List String) (n : String) (values : List (String × Cell)) :
    (values.filter fun v => v.1 ∈ excluded).lookup n =
      if n ∈ excluded then values.lookup n else none := by
  induction values with
  | nil => rw [List.filter_nil, List.lookup_nil, ite_self]
  | cons v values ih =>
    obtain ⟨m, cell⟩ := v
    rw [List.filter_cons]
    by_cases hn : n = m
    · subst hn
      by_cases hin : n ∈ excluded
      · simp [hin]
      · simp [hin, ih]
    · have hne : (n == m) = false := beq_false_of_ne hn
      split
      · rw [List.lookup_cons, hne, List.lookup_cons, hne]
        exact ih
      · rw [List.lookup_cons, hne]
        exact ih

theorem lookup_of_mem {n : String} {values : List (String × Cell)} (h : n ∈ values.map Prod.fst) :
    ∃ cell, values.lookup n = some cell := by
  refine Option.ne_none_iff_exists'.mp fun hnone => ?_
  obtain ⟨v, hv, rfl⟩ := List.mem_map.mp h
  rw [List.lookup_eq_none_iff] at hnone
  exact absurd (hnone v hv) (by simp)

/-- **An upsert** puts the value in the place of the one with its key, or at the end; `excluded`
    are the columns of the INSERT that are no key. -/
theorem upsert (h : t.Stores S cells xs) {same : ρ → Bool} {excluded : List String}
    (hw : Writes S cells values x) (hk : KeyedBy S cells same x xs)
    (hcover : ∀ c ∈ S.columns, if c.name ∈ excluded then c.name ∈ values.map Prod.fst
      else c.name ∈ S.key) :
    ∃ t', t.upsert values excluded = some t' ∧ t'.Stores S cells
      (if xs.any same then xs.map fun y => if same y then x else y else xs ++ [x]) := by
  rw [SqlTable.upsert, h.taken hw hk]
  by_cases hany : xs.any same = true
  · rw [if_pos hany, if_pos hany]
    refine h.update hw.named (fun r y hy hshows => h.sameKey hw hk hy hshows)
      fun r y hy hshows hsame => ⟨fun c hc => ?_, hw.full⟩
    have hc' := hcover c hc
    rw [assigned, lookup_filter]
    split at hc'
    · rename_i hin
      obtain ⟨v, hv⟩ := lookup_of_mem hc'
      have hshown := hw.shown c hc
      rw [inserted, hv] at hshown
      rw [if_pos hin, hv]
      exact hshown
    · rename_i hnot
      have hkey := hk.2 y hy
      rw [hsame, List.all_eq_true] at hkey
      rw [if_neg hnot, Option.getD_none, hshows c hc]
      exact of_decide_eq_true (hkey c.name hc')
  · rw [if_neg hany, if_neg hany, h.insert hw hk, if_neg hany]
    exact ⟨_, rfl, h.append hw⟩

/-- **A column that is added** reads as its default. -/
theorem addColumn (h : t.Stores S cells xs) {S' : TableSchema} {hc : c.name ∉ t.names}
    (hcolumns : ∀ d, d ∈ S'.columns ↔ d ∈ S.columns ∨ d = c) (hkey : S.key = S'.key)
    (hdefault : ∀ x ∈ xs, cells x c.name = c.default) : (t.addColumn c hc).Stores S' cells xs := by
  have hother : ∀ d ∈ S.columns, d.name ≠ c.name := fun d hd e =>
    hc (e ▸ List.mem_map_of_mem ((h.columns d).mpr hd))
  refine ⟨fun d => ?_, h.key.trans hkey, ?_⟩
  · show d ∈ t.columns ++ [c] ↔ _
    rw [List.mem_append, List.mem_singleton, h.columns, hcolumns]
  · have hrecords := h.records
    rw [SqlTable.records, List.forall₂_map_left_iff] at hrecords
    show List.Forall₂ _ ((t.rows.map _).map _) _
    rw [List.map_map, List.forall₂_map_left_iff]
    have hone : ∀ row ∈ t.rows, ∀ x ∈ xs, Shows S cells (t.record row) x →
        Shows S' cells ((t.addColumn c hc).record (row ++ [c.default])) x := by
      intro row hrow x hx hshows d hd
      rw [record_addColumn hrow]
      rcases (hcolumns d).mp hd with hd | rfl
      · rw [if_neg (hother d hd), hshows d hd]
      · rw [if_pos rfl, hdefault x hx]
    clear hdefault h
    revert hone
    generalize t.rows = rows at hrecords ⊢
    intro hone
    induction hrecords with
    | nil => exact .nil
    | cons hshows _ ih =>
      exact .cons (hone _ List.mem_cons_self _ List.mem_cons_self hshows)
        (ih fun row hrow x hx => hone row (List.mem_cons_of_mem _ hrow) x
          (List.mem_cons_of_mem _ hx))

end Stores

end Values

end SqlTable

end Foundation
