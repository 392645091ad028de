/-
  File:      Beacon/Foundation/Links.lean
  Subject:   A directory with hard links: names, the nodes they stand for, and what each file
             system call does to both.

  A name stands for a node by its number, and two names may stand for one node; what is written
  under one of them is then read under the other. Numbers are handed out once, so a new file
  shares its node with no name (`bounded` is a field). A node is a regular file, whose content
  may be no text, or something else; a symbolic link is something else, and where it leads nowhere
  its name is taken although `Path::exists` does not see it.

  The lemmas say what a lookup sees after each call: of the numbers (`node?`), and of the nodes
  (`get?`), where a call that writes in place is invisible to every name of another node.
-/
import Mathlib.Logic.Function.Basic
import Beacon.Foundation.Table

namespace Foundation

/-- What a name stands for: a regular file, which may not be readable as text, or another thing;
    `leads` is false of a link that leads nowhere. -/
inductive Node where
  | file (text : Option String)
  | other (leads : Bool)
  deriving DecidableEq, Repr

def Node.isFile : Node → Bool
  | .file _ => true
  | .other _ => false

/-- `Path::exists` sees it. -/
def Node.leads : Node → Bool
  | .file _ => true
  | .other leads => leads

/-- Names and the nodes they stand for. -/
structure Links where
  entries : Table String (String × Nat) Prod.fst
  nodes : Nat → Node
  next : Nat
  bounded : ∀ e ∈ entries.rows, e.2 < next

namespace Links

/-- The empty directory. -/
def empty : Links := ⟨.empty, fun _ => .other true, 0, fun _ h => (List.not_mem_nil h).elim⟩

variable (d : Links)

def names : List String := d.entries.rows.map Prod.fst

/-- The number of the node a name stands for. -/
def node? (name : String) : Option Nat := (d.entries.get? name).map Prod.snd

def get? (name : String) : Option Node := (d.node? name).map d.nodes

/-- The name stands for something: no file is created under it and none linked to it. -/
def taken (name : String) : Bool := (d.node? name).isSome

/-- `Path::exists`, where it can look: links are followed, so one that leads nowhere is not
    there. -/
def contains (name : String) : Bool := (d.get? name).any Node.leads

/-- `fs::read_to_string`. -/
def read (name : String) : Option String :=
  match d.get? name with
  | some (.file text) => text
  | _ => none

/-! ## 1. Calls -/

/-- A directory with a new name for a node whose number has been handed out. -/
def enter {d : Links} (es : Table String (String × Nat) Prod.fst) (nodes : Nat → Node)
    {next k : Nat} {name : String} (hnext : d.next ≤ next) (hk : k < next)
    (hes : ∀ e ∈ es.rows, e = (name, k) ∨ e ∈ d.entries.rows) : Links where
  entries := es
  nodes := nodes
  next := next
  bounded := by
    intro e he
    rcases hes e he with rfl | he
    · exact hk
    · exact Nat.lt_of_lt_of_le (d.bounded e he) hnext

theorem mem_of_insert {t t' : Table String (String × Nat) Prod.fst} {r e : String × Nat}
    (h : t.insert r = some t') (he : e ∈ t'.rows) : e = r ∨ e ∈ t.rows := by
  rw [Table.rows_of_insert h, List.mem_append, List.mem_singleton] at he
  exact he.symm

/-- Create an empty file; refused where the name is taken. -/
def createNew (name : String) : Option Links :=
  match h : d.entries.insert (name, d.next) with
  | none => none
  | some es => some (enter es (Function.update d.nodes d.next (.file (some "")))
      (Nat.le_succ d.next) (Nat.lt_succ_self d.next) fun _ he => mem_of_insert h he)

/-- Append a character to a file. -/
def append (name : String) (c : Char) : Links :=
  match d.node? name with
  | none => d
  | some k => match d.nodes k with
    | .file (some text) => { d with nodes := Function.update d.nodes k (.file (some (text.push c))) }
    | _ => d

/-- Another name for a node; refused where it is taken, or where the old name stands for none. -/
def hardLink (old new : String) : Option Links :=
  match hk : d.entries.get? old with
  | none => none
  | some e => match h : d.entries.insert (new, e.2) with
    | none => none
    | some es => some (enter es d.nodes (Nat.le_refl d.next)
        (d.bounded e (Table.mem_of_get? hk)) fun _ he => mem_of_insert h he)

/-- Drop a name; refused where it stands for nothing. -/
def unlink (name : String) : Option Links :=
  (d.node? name).map fun _ =>
    { d with
      entries := d.entries.remove name
      bounded := fun e he => d.bounded e (List.mem_of_mem_filter he) }

/-- A new node under a name, in the place of what stood there. -/
def put (name : String) (node : Node) : Links :=
  enter (d.entries.upsert (name, d.next)) (Function.update d.nodes d.next node)
    (Nat.le_succ d.next) (Nat.lt_succ_self d.next) fun _ he => Table.mem_upsert he

/-- Write a file in place, or create it; what is no file stays. -/
def overwrite (name : String) (text : Option String) : Links :=
  match d.node? name with
  | none => d.put name (.file text)
  | some k => match d.nodes k with
    | .file _ => { d with nodes := Function.update d.nodes k (.file text) }
    | .other _ => d

/-! ## 2. Numbers -/

variable {d} {d' : Links} {name n : String} {k : Nat}

theorem node?_lt (h : d.node? n = some k) : k < d.next := by
  obtain ⟨e, he, rfl⟩ := Option.map_eq_some_iff.mp h
  exact d.bounded e (Table.mem_of_get? he)

theorem mem_names : n ∈ d.names ↔ ∃ k, d.node? n = some k := by
  constructor
  · intro h
    obtain ⟨e, he, rfl⟩ := List.mem_map.mp h
    exact ⟨e.2, by rw [node?, Table.get?_of_mem he]; rfl⟩
  · rintro ⟨k, h⟩
    obtain ⟨e, he, rfl⟩ := Option.map_eq_some_iff.mp h
    exact List.mem_map.mpr ⟨e, Table.mem_of_get? he, Table.key_of_get? he⟩

theorem get?_eq_some {node : Node} :
    d.get? n = some node ↔ ∃ k, d.node? n = some k ∧ d.nodes k = node := Option.map_eq_some_iff

theorem get?_eq_none : d.get? n = none ↔ d.node? n = none := Option.map_eq_none_iff

theorem taken_eq_isSome (d : Links) (n : String) : d.taken n = (d.get? n).isSome :=
  (Option.isSome_map).symm

theorem taken_eq_false : d.taken n = false ↔ d.node? n = none :=
  Bool.eq_false_iff.trans Option.not_isSome_iff_eq_none

theorem taken_of_get? {node : Node} (h : d.get? n = some node) : d.taken n = true := by
  rw [taken_eq_isSome, h]
  rfl

/-- A name that stands for what it stood for is taken as it was. -/
theorem taken_congr {d' : Links} (h : d'.get? n = d.get? n) : d'.taken n = d.taken n := by
  rw [taken_eq_isSome, h, taken_eq_isSome]

/-- What exists has its name taken. -/
theorem contains_of_free (h : d.taken n = false) : d.contains n = false := by
  rw [contains, get?_eq_none.mpr (taken_eq_false.mp h)]
  rfl

/-- What a name put in stands for. -/
theorem node?_of_entry {es : Table String (String × Nat) Prod.fst} {x : Option (String × Nat)}
    (h : es.get? n = if name = n then some (name, k) else x) :
    (es.get? n).map Prod.snd = if n = name then some k else x.map Prod.snd := by
  rw [h]
  by_cases hn : name = n
  · rw [if_pos hn, if_pos hn.symm]
    rfl
  · rw [if_neg hn, if_neg fun e => hn e.symm]

theorem get?_insert {t t' : Table String (String × Nat) Prod.fst} {r : String × Nat}
    (h : t.insert r = some t') (n : String) :
    t'.get? n = if r.1 = n then some r else t.get? n := by
  by_cases hn : r.1 = n
  · rw [if_pos hn, ← hn]
    exact Table.get?_insert_self h
  · rw [if_neg hn]
    exact Table.get?_insert_ne h hn

theorem createNew_eq_some (h : d.createNew name = some d') :
    d.node? name = none ∧ d'.nodes = Function.update d.nodes d.next (.file (some "")) ∧
      ∀ n, d'.node? n = if n = name then some d.next else d.node? n := by
  unfold createNew at h
  split at h
  · cases h
  · rename_i es hes
    cases h
    refine ⟨?_, rfl, fun n => node?_of_entry (get?_insert hes n)⟩
    rw [node?, Table.fresh_of_insert hes]
    rfl

theorem createNew_of_fresh (h : d.node? name = none) : ∃ d', d.createNew name = some d' := by
  have hfresh : d.entries.get? name = none := Option.map_eq_none_iff.mp h
  obtain ⟨es, hes, _⟩ := Table.insert_of_fresh (t := d.entries) (r := (name, d.next)) hfresh
  unfold createNew
  split
  · rename_i hnone
    rw [hes] at hnone
    cases hnone
  · exact ⟨_, rfl⟩

theorem createNew_of_taken (h : d.taken name = true) : d.createNew name = none := by
  cases hc : d.createNew name with
  | none => rfl
  | some d' =>
    rw [taken_eq_false.mpr (createNew_eq_some hc).1] at h
    cases h

theorem node?_append (c : Char) : (d.append name c).node? n = d.node? n := by
  unfold append
  split
  · rfl
  · split <;> rfl

theorem hardLink_eq_some {old new : String} (h : d.hardLink old new = some d') :
    d.node? new = none ∧ d'.nodes = d.nodes ∧ ∃ k, d.node? old = some k ∧
      ∀ n, d'.node? n = if n = new then some k else d.node? n := by
  unfold hardLink at h
  split at h
  · cases h
  · rename_i e he
    split at h
    · cases h
    · rename_i es hes
      cases h
      refine ⟨?_, rfl, e.2, ?_, fun n => node?_of_entry (get?_insert hes n)⟩
      · rw [node?, Table.fresh_of_insert hes]
        rfl
      · rw [node?, he]
        rfl

theorem hardLink_of_taken {old new : String} (h : d.taken new = true) :
    d.hardLink old new = none := by
  cases hl : d.hardLink old new with
  | none => rfl
  | some d' =>
    rw [taken_eq_false.mpr (hardLink_eq_some hl).1] at h
    cases h

theorem hardLink_of_fresh {old new : String} (ho : d.node? old = some k)
    (hn : d.node? new = none) : ∃ d', d.hardLink old new = some d' := by
  obtain ⟨e, he, _⟩ := Option.map_eq_some_iff.mp ho
  have hfresh : d.entries.get? new = none := Option.map_eq_none_iff.mp hn
  obtain ⟨es, hes, _⟩ := Table.insert_of_fresh (t := d.entries) (r := (new, e.2)) hfresh
  unfold hardLink
  split
  · rename_i hnone
    rw [he] at hnone
    cases hnone
  · rename_i e' he'
    rw [he] at he'
    cases he'
    split
    · rename_i hnone
      rw [hes] at hnone
      cases hnone
    · exact ⟨_, rfl⟩

theorem unlink_eq_some (h : d.unlink name = some d') : d'.nodes = d.nodes ∧
    ∀ n, d'.node? n = if n = name then none else d.node? n := by
  obtain ⟨k, _, rfl⟩ := Option.map_eq_some_iff.mp h
  refine ⟨rfl, fun n => ?_⟩
  show ((d.entries.remove name).get? n).map Prod.snd = _
  rw [Table.get?_remove]
  split
  · rfl
  · rfl

theorem node?_put (node : Node) :
    (d.put name node).node? n = if n = name then some d.next else d.node? n :=
  node?_of_entry (Table.get?_upsert d.entries (name, d.next) n)

theorem node?_overwrite (text : Option String) : (d.overwrite name text).node? n =
    if n = name ∧ d.node? name = none then some d.next else d.node? n := by
  unfold overwrite
  split
  · rename_i hnone
    rw [node?_put]
    by_cases hn : n = name
    · rw [if_pos hn, if_pos ⟨hn, hnone⟩]
    · rw [if_neg hn, if_neg fun h => hn h.1]
  · rename_i k hk
    rw [if_neg (by rw [hk]; exact fun h => Option.some_ne_none k h.2)]
    split <;> rfl

/-! ## 3. Nodes -/

/-- No other name stands for the node of this one. -/
def Sole (d : Links) (name : String) : Prop :=
  ∀ n k, d.node? name = some k → d.node? n = some k → n = name

/-- A call that leaves the number of a name and its node alone is invisible under the name. -/
theorem get?_congr (hn : d'.node? n = d.node? n)
    (hk : ∀ k, d.node? n = some k → d'.nodes k = d.nodes k) : d'.get? n = d.get? n := by
  unfold get?
  rw [hn]
  cases h : d.node? n with
  | none => rfl
  | some k => exact congrArg some (hk k h)

/-- A new node is invisible under every name that had a node before. -/
theorem update_next {node : Node} (h : d.node? n = some k) :
    Function.update d.nodes d.next node k = d.nodes k :=
  Function.update_of_ne (Nat.ne_of_lt (node?_lt h)) _ _

theorem get?_createNew (h : d.createNew name = some d') (n : String) :
    d'.get? n = if n = name then some (.file (some "")) else d.get? n := by
  obtain ⟨_, hnodes, hnode⟩ := createNew_eq_some h
  by_cases hn : n = name
  · rw [if_pos hn, get?, hnode, if_pos hn, hnodes]
    exact congrArg some (Function.update_self _ _ _)
  · rw [if_neg hn]
    refine get?_congr ((hnode n).trans (if_neg hn)) fun k hk => ?_
    rw [hnodes]
    exact update_next hk

theorem get?_append_self {text : String} (h : d.get? name = some (.file (some text))) (c : Char) :
    (d.append name c).get? name = some (.file (some (text.push c))) := by
  obtain ⟨k, hk, hnode⟩ := get?_eq_some.mp h
  refine get?_eq_some.mpr ⟨k, (node?_append c).trans hk, ?_⟩
  simp only [append, hk, hnode]
  exact Function.update_self _ _ _

/-- An append is invisible under every name of another node. -/
theorem get?_append_ne (c : Char) (hne : ∀ k, d.node? name = some k → d.node? n ≠ some k) :
    (d.append name c).get? n = d.get? n := by
  refine get?_congr (node?_append c) fun k hk => ?_
  unfold append
  split
  · rfl
  · rename_i l hl
    split
    · refine Function.update_of_ne (fun e => hne l hl ?_) _ _
      rw [← e]
      exact hk
    · rfl

theorem get?_hardLink {old new : String} (h : d.hardLink old new = some d') (n : String) :
    d'.get? n = if n = new then d.get? old else d.get? n := by
  obtain ⟨_, hnodes, k, hk, hnode⟩ := hardLink_eq_some h
  unfold get?
  rw [hnode, hnodes, hk]
  by_cases hn : n = new
  · rw [if_pos hn, if_pos hn]
  · rw [if_neg hn, if_neg hn]

theorem get?_unlink (h : d.unlink name = some d') (n : String) :
    d'.get? n = if n = name then none else d.get? n := by
  obtain ⟨hnodes, hnode⟩ := unlink_eq_some h
  unfold get?
  rw [hnode, hnodes]
  by_cases hn : n = name
  · rw [if_pos hn, if_pos hn]
    rfl
  · rw [if_neg hn, if_neg hn]

theorem get?_put (node : Node) (n : String) :
    (d.put name node).get? n = if n = name then some node else d.get? n := by
  by_cases hn : n = name
  · rw [if_pos hn, get?, node?_put, if_pos hn]
    exact congrArg some (Function.update_self _ _ _)
  · rw [if_neg hn]
    exact get?_congr ((node?_put node).trans (if_neg hn)) fun k hk => update_next hk

/-- What is written in place is read under the name, unless it stands for no file. -/
theorem get?_overwrite_self (d : Links) (name : String) (text : Option String) :
    (d.overwrite name text).get? name =
      if (d.get? name).all Node.isFile then some (.file text) else d.get? name := by
  unfold overwrite
  split
  · rename_i hnone
    rw [get?_put, if_pos rfl, get?_eq_none.mpr hnone, Option.all_none, if_pos rfl]
  · rename_i k hk
    have hget : d.get? name = some (d.nodes k) := get?_eq_some.mpr ⟨k, hk, rfl⟩
    split
    · rename_i old hold
      rw [hget, hold, Option.all_some, Node.isFile, if_pos rfl]
      exact get?_eq_some.mpr ⟨k, hk, Function.update_self _ _ _⟩
    · rename_i leads hother
      rw [hget, hother, Option.all_some, Node.isFile, if_neg Bool.false_ne_true]

theorem get?_overwrite_ne (text : Option String) (hn : n ≠ name)
    (hne : ∀ k, d.node? name = some k → d.node? n ≠ some k) :
    (d.overwrite name text).get? n = d.get? n := by
  unfold overwrite
  split
  · rw [get?_put, if_neg hn]
  · rename_i k hk
    split
    · refine get?_congr rfl fun l hl => Function.update_of_ne (fun e => hne k hk ?_) _ _
      rw [← e]
      exact hl
    · rfl

/-- A file that was just created shares its node with no other name. -/
theorem sole_createNew (h : d.createNew name = some d') : d'.Sole name := by
  obtain ⟨_, _, hnode⟩ := createNew_eq_some h
  intro n k hk hn
  by_contra hne
  rw [hnode, if_pos rfl] at hk
  rw [hnode, if_neg hne] at hn
  cases hk
  exact absurd (node?_lt hn) (Nat.lt_irrefl _)

/-- A call gives one name a new node, or none, and leaves the others theirs. -/
def Renews (d d' : Links) (name : String) : Prop :=
  ∀ n, d'.node? n = d.node? n ∨ n = name ∧ ∀ k, d'.node? n = some k → k = d.next

theorem renews_createNew (h : d.createNew name = some d') : d.Renews d' name := by
  intro n
  obtain ⟨_, _, hnode⟩ := createNew_eq_some h
  rw [hnode]
  by_cases hn : n = name
  · rw [if_pos hn]
    exact .inr ⟨hn, fun k e => (Option.some.inj e).symm⟩
  · exact .inl (if_neg hn)

theorem renews_put (node : Node) : d.Renews (d.put name node) name := by
  intro n
  rw [node?_put]
  by_cases hn : n = name
  · rw [if_pos hn]
    exact .inr ⟨hn, fun k e => (Option.some.inj e).symm⟩
  · exact .inl (if_neg hn)

theorem renews_overwrite (text : Option String) : d.Renews (d.overwrite name text) name := by
  intro n
  rw [node?_overwrite]
  by_cases hn : n = name ∧ d.node? name = none
  · rw [if_pos hn]
    exact .inr ⟨hn.1, fun k e => (Option.some.inj e).symm⟩
  · exact .inl (if_neg hn)

theorem renews_unlink (h : d.unlink name = some d') : d.Renews d' name := by
  intro n
  rw [(unlink_eq_some h).2]
  by_cases hn : n = name
  · rw [if_pos hn]
    exact .inr ⟨hn, fun k e => by cases e⟩
  · exact .inl (if_neg hn)

/-- A name whose node is its own keeps it where another name is renewed. -/
theorem sole_of_renews {m : String} (h : d.Sole m) (hr : d.Renews d' name) (hm : m ≠ name) :
    d'.Sole m := by
  intro n k hk hn
  have hold : d.node? m = some k := by
    rcases hr m with e | ⟨e, _⟩
    · rw [← e, hk]
    · exact absurd e hm
  rcases hr n with e | ⟨_, e⟩
  · exact h n k hold (e.symm.trans hn)
  · exact absurd (node?_lt hold) (by rw [e k hn]; exact Nat.lt_irrefl _)

/-- No two of these names stand for one node. -/
def Apart (P : String → Prop) (d : Links) : Prop :=
  ∀ m n k, P m → P n → d.node? m = some k → d.node? n = some k → m = n

theorem apart_empty (P : String → Prop) : Apart P empty := fun _ _ _ _ _ h => by cases h

theorem apart_of_renews {P : String → Prop} (h : Apart P d) (hr : d.Renews d' name) :
    Apart P d' := by
  intro m n k hPm hPn hm hn
  rcases hr m with em | ⟨em, hkm⟩ <;> rcases hr n with en | ⟨en, hkn⟩
  · exact h m n k hPm hPn (em.symm.trans hm) (en.symm.trans hn)
  · exact absurd (node?_lt (em.symm.trans hm)) (by rw [hkn k hn]; exact Nat.lt_irrefl _)
  · exact absurd (node?_lt (en.symm.trans hn)) (by rw [hkm k hm]; exact Nat.lt_irrefl _)
  · rw [em, en]

/-- What is written in place is read under a name, or is invisible there. -/
theorem get?_overwrite_cases (d : Links) (name : String) (text : Option String) (n : String) :
    (d.overwrite name text).get? n = d.get? n ∨
      (d.overwrite name text).get? n = some (.file text) := by
  by_cases hn : n = name
  · rw [hn, get?_overwrite_self]
    split
    · exact .inr rfl
    · exact .inl rfl
  · by_cases hshared : ∃ k, d.node? name = some k ∧ d.node? n = some k
    · obtain ⟨k, hk, hk'⟩ := hshared
      have hsame : (d.overwrite name text).get? n = (d.overwrite name text).get? name := by
        unfold get?
        rw [node?_overwrite, node?_overwrite, if_neg fun h => hn h.1,
          if_neg (by rw [hk]; exact fun h => Option.some_ne_none k h.2), hk, hk']
      have hold : d.get? n = d.get? name := by
        unfold get?
        rw [hk, hk']
      rw [hsame, hold, get?_overwrite_self]
      split
      · exact .inr rfl
      · exact .inl rfl
    · exact .inl (get?_overwrite_ne text hn fun k hk hk' => hshared ⟨k, hk, hk'⟩)

/-- Appending character by character appends the text, and no other name sees it. -/
theorem get?_appendAll {text : String} (cs : List Char)
    (h : d.get? name = some (.file (some text))) (hsole : d.Sole name) (n : String) :
    (cs.foldl (fun d c => d.append name c) d).get? n =
      if n = name then some (.file (some (text ++ String.ofList cs))) else d.get? n := by
  induction cs generalizing d text with
  | nil =>
    by_cases hn : n = name
    · rw [if_pos hn, hn, List.foldl_nil, h]
      simp
    · rw [if_neg hn, List.foldl_nil]
  | cons c cs ih =>
    have hsole' : (d.append name c).Sole name := by
      intro m k hk hm
      rw [node?_append] at hk hm
      exact hsole m k hk hm
    have htext : text.push c ++ String.ofList cs = text ++ String.ofList (c :: cs) := by
      apply String.toList_inj.mp
      simp
    rw [List.foldl_cons, ih (get?_append_self h c) hsole', htext]
    by_cases hn : n = name
    · rw [if_pos hn, if_pos hn]
    · rw [if_neg hn, if_neg hn]
      exact get?_append_ne c fun k hk hk' => hn (hsole n k hk hk')

theorem node?_appendAll (cs : List Char) (n : String) :
    (cs.foldl (fun d c => d.append name c) d).node? n = d.node? n := by
  induction cs generalizing d with
  | nil => rfl
  | cons c cs ih => rw [List.foldl_cons, ih, node?_append]

end Links

end Foundation
