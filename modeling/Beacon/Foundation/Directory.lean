/-
  File:      Beacon/Foundation/Directory.lean
  Subject:   A directory of files: create, append, rename, unlink.

  A directory is a table of files by name. The operations are those a program makes through the
  file system one after the other; where the file system refuses, the answer is `none`. `rename`
  replaces its target, as one operation. The lemmas say what a lookup sees after each of them.

  `extension` is the part of a name after its last dot, `none` where nothing stands before it;
  `Path.parent` is a path without its last component.
-/
import Beacon.Foundation.Table

namespace Foundation

structure File where
  name : String
  content : String
  deriving DecidableEq, Repr

/-- The files of a directory, in no order that means anything. -/
abbrev Directory := Table String File File.name

namespace Directory

variable (d : Directory)

/-- Create an empty file; refused where the name is taken. -/
def createNew (name : String) : Option Directory := d.insert ⟨name, ""⟩

/-- Append a character to an open file. -/
def append (name : String) (c : Char) : Directory :=
  match d.get? name with
  | none => d
  | some f => d.upsert ⟨name, f.content.push c⟩

/-- Give a file another name, replacing what stands there; refused where there is no file. -/
def rename (old new : String) : Option Directory :=
  (d.get? old).map fun f => (d.remove old).upsert ⟨new, f.content⟩

/-- Drop a file; refused where there is none. -/
def unlink (name : String) : Option Directory := (d.get? name).map fun _ => d.remove name

variable {d} {d' : Directory}

theorem get?_createNew {name : String} (h : d.createNew name = some d') (n : String) :
    d'.get? n = if n = name then some ⟨name, ""⟩ else d.get? n := by
  by_cases hn : n = name
  · rw [if_pos hn, hn]
    exact Table.get?_insert_self h
  · rw [if_neg hn]
    exact Table.get?_insert_ne h fun e => hn e.symm

theorem createNew_of_fresh {name : String} (h : d.get? name = none) :
    ∃ d', d.createNew name = some d' := by
  obtain ⟨d', hd', _⟩ := Table.insert_of_fresh (t := d) (r := ⟨name, ""⟩) h
  exact ⟨d', hd'⟩

/-- An append touches no other file. -/
theorem get?_append_ne (d : Directory) {name n : String} (c : Char) (hn : n ≠ name) :
    (d.append name c).get? n = d.get? n := by
  unfold append
  split
  · rfl
  · exact Table.get?_upsert_ne _ _ fun e => hn e.symm

/-- Appending character by character appends the text. -/
theorem get?_appendAll (name : String) (cs : List Char) {text : String}
    (h : d.get? name = some ⟨name, text⟩) :
    (cs.foldl (fun d c => append d name c) d).get? name =
      some ⟨name, text ++ String.ofList cs⟩ := by
  induction cs generalizing d text with
  | nil => rw [List.foldl_nil, h]; simp
  | cons c cs ih =>
    have hone : (d.append name c).get? name = some ⟨name, text.push c⟩ := by
      unfold append
      rw [h]
      exact Table.get?_upsert_self _ _
    rw [List.foldl_cons, ih hone]
    congr 2
    apply String.toList_inj.mp
    simp

theorem get?_appendAll_ne (name : String) (cs : List Char) (d : Directory) {n : String}
    (hn : n ≠ name) : (cs.foldl (fun d c => append d name c) d).get? n = d.get? n := by
  induction cs generalizing d with
  | nil => rfl
  | cons c cs ih => rw [List.foldl_cons, ih, get?_append_ne d c hn]

theorem get?_rename {old new : String} {f : File} (hf : d.get? old = some f)
    (h : d.rename old new = some d') (n : String) :
    d'.get? n = if n = new then some ⟨new, f.content⟩ else if n = old then none else d.get? n := by
  unfold rename at h
  rw [hf] at h
  cases h
  rw [Table.get?_upsert]
  by_cases hn : n = new
  · rw [if_pos hn, if_pos hn.symm]
  · rw [if_neg hn, if_neg fun e => hn e.symm]
    exact Table.get?_remove d old n

theorem get?_unlink {name : String} (h : d.unlink name = some d') (n : String) :
    d'.get? n = if n = name then none else d.get? n := by
  unfold unlink at h
  obtain ⟨f, _, rfl⟩ := Option.map_eq_some_iff.mp h
  exact Table.get?_remove d name n

/-! ## 1. Names -/

/-- Joined to the path of a directory, the name is the path of a direct child of it. -/
def IsComponent (name : String) : Prop :=
  name ≠ "" ∧ name ≠ "." ∧ name ≠ ".." ∧ '/' ∉ name.toList

/-- The part of a name after its last dot, where something stands before the dot. -/
def extension (name : String) : Option String :=
  let cs := name.toList.reverse
  match cs.dropWhile (· ≠ '.') with
  | _ :: _ :: _ => some (String.ofList (cs.takeWhile (· ≠ '.')).reverse)
  | _ => none

theorem extension_append {stem ext : String} (hs : stem ≠ "") (he : '.' ∉ ext.toList) :
    extension (stem ++ "." ++ ext) = some ext := by
  have hstem : stem.toList.reverse ≠ [] := by simpa using hs
  obtain ⟨c, cs, hcs⟩ := List.exists_cons_of_ne_nil hstem
  have hrev : (stem ++ "." ++ ext).toList.reverse = ext.toList.reverse ++ '.' :: c :: cs := by
    simp [hcs]
  have hall : ∀ x ∈ ext.toList.reverse, decide (x ≠ '.') = true := by
    intro x hx
    exact decide_eq_true fun e => he (e ▸ List.mem_reverse.mp hx)
  unfold extension
  simp only [hrev]
  rw [List.dropWhile_append_of_pos hall, List.takeWhile_append_of_pos hall]
  simp

end Directory

/-! ## 2. Paths -/

namespace Path

/-- The parts of a path between its separators. -/
def parts (path : List Char) : List (List Char) :=
  path.foldr (fun c parts =>
    if c = '/' then [] :: parts else (c :: parts.headD []) :: parts.tail) [[]]

/-- `Path::components`, the root apart: empty parts are dropped, and dots that do not come first. -/
def components (path : String) : List String :=
  let parts := parts path.toList
  let first := (parts.take 1).filter (· ≠ [])
  let others := (parts.drop 1).filter fun part => part ≠ [] && part ≠ ['.']
  (first ++ others).map String.ofList

/-- `Path::parent`: the path without its last component, where it has one. -/
def parent (path : String) : Option String :=
  let root := if path.toList.head? = some '/' then "/" else ""
  if (components path).isEmpty then none
  else some (root ++ "/".intercalate (components path).dropLast)

/-- `Path::join` with a single name. -/
def join (directory name : String) : String :=
  if directory = "" || directory.toList.getLast? = some '/' then directory ++ name
  else directory ++ "/" ++ name

example : parent "/etc//beacon/./agent.token/" = some "/etc/beacon" := by decide
example : parent "agent.token" = some "" := by decide
example : parent "/" = none := by decide

end Path

end Foundation
