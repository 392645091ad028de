/-
  File:      Beacon/Server/Credentials.lean
  Subject:   Agent names, secrets and the credentials directory (`server.rs`).

  A presented token is a credential if some regular file of the directory holds it, blanks at its
  ends apart. The look-up lists the directory and then reads each file it listed; a file that
  cannot be read ends it, and the token is then none. `Scan` is the look-up step by step, with
  whatever others do to the directory between two steps; `authorized` is the look-up made alone.

  * `isComponent_credentialName` -- **the file of an admitted name lies directly in the
    directory**;
  * `authorized_iff` -- what a look-up made alone accepts.
-/
import Beacon.Foundation.Directory
import Beacon.Foundation.Links
import Beacon.Foundation.Text

namespace Beacon

open Foundation

/-! ## 1. Names and secrets -/

def validateAgentName (name : String) : Except String Unit :=
  if name.isEmpty || name.utf8ByteSize > 64 || name = "." || name = ".." then
    .error "agent name must be 1-64 characters and cannot be '.' or '..'"
  else if name.toList.all fun c => c.isAlphanum || c = '.' || c = '_' || c = '-' then .ok ()
  else .error "agent name may contain only ASCII letters, numbers, '.', '_' and '-'"

/-- A text `Uuid::to_string` prints. -/
structure Uuid where
  text : String
  length : text.toList.length = 36
  digits : ∀ c ∈ text.toList, c ∈ "0123456789abcdef-".toList

/-- The file of an agent's credential. -/
def credentialName (name : String) : String := name ++ "." ++ "token"

/-- The file a secret is written to first. -/
def temporaryName (id : Uuid) : String := "." ++ id.text ++ "." ++ "tmp"

/-- The third-party digest, as hexadecimal text. -/
class Sha256 where
  digest : String → String

def hashSecret [Sha256] (secret : String) : String := Sha256.digest (Text.trim secret)

theorem Uuid.not_whitespace (id : Uuid) : ∀ c ∈ id.text.toList, Text.isWhitespace c = false := by
  have key : ∀ c ∈ "0123456789abcdef-".toList, Text.isWhitespace c = false :=
    List.all_iff_forall_prop.mp (by decide)
  exact fun c hc => key c (id.digits c hc)

theorem Uuid.text_ne (id : Uuid) : id.text ≠ "" := by
  intro h
  have hlen := id.length
  rw [h] at hlen
  cases hlen

@[simp] theorem Uuid.trim_text (id : Uuid) : Text.trim id.text = id.text :=
  Text.trim_of_no_blank id.not_whitespace

theorem extension_credentialName {name : String} (h : name ≠ "") :
    Directory.extension (credentialName name) = some "token" :=
  Directory.extension_append h (by decide)

theorem extension_temporaryName (id : Uuid) :
    Directory.extension (temporaryName id) = some "tmp" := by
  refine Directory.extension_append (fun h => ?_) (by decide)
  have hl := congrArg String.toList h
  rw [String.toList_append] at hl
  exact absurd hl (by simp)

theorem name_ne_of_valid {name : String} (h : validateAgentName name = .ok ()) : name ≠ "" := by
  rintro rfl
  cases h

/-- **The file of an admitted name lies directly in the directory.** -/
theorem isComponent_credentialName {name : String} (h : validateAgentName name = .ok ()) :
    Directory.IsComponent (credentialName name) := by
  have hslash : '/' ∉ name.toList := by
    unfold validateAgentName at h
    split at h
    · cases h
    · split at h
      · rename_i hall
        exact fun hin => absurd (List.all_eq_true.mp hall '/' hin) (by decide)
      · cases h
  have hlen : 6 ≤ (credentialName name).toList.length := by
    simp only [credentialName, String.toList_append, List.length_append]
    have : ".".toList.length = 1 ∧ "token".toList.length = 5 := by decide
    omega
  refine ⟨?_, ?_, ?_, ?_⟩
  · intro e
    rw [e] at hlen
    exact absurd hlen (by decide)
  · intro e
    rw [e] at hlen
    exact absurd hlen (by decide)
  · intro e
    rw [e] at hlen
    exact absurd hlen (by decide)
  · simp only [credentialName, String.toList_append, List.mem_append, not_or]
    exact ⟨⟨hslash, by decide⟩, by decide⟩

/-! ## 2. The look-up -/

/-- A look-up: the entries still to read, each with whether it was listed as a regular file, and
    whether a file read so far held the token. -/
inductive Scan where
  | reading (todo : List (String × Bool)) (matched : Bool)
  | answered (authorized : Bool)
  deriving DecidableEq, Repr

/-- The directory as it is listed, in the order given. -/
def listing (d : Links) (names : List String) : List (String × Bool) :=
  names.map fun name => (name, ((d.get? name).map Node.isFile).getD false)

section Lookup

variable (presented : String) (d : Links)

/-- The body of the loop: what is matched after an entry; none if the entry cannot be read. -/
def Scan.entry (e : String × Bool) (matched : Bool) : Option Bool :=
  if e.2 then
    (d.read e.1).map fun text =>
      if Text.trim text = "" then matched else matched || Text.trim text = presented
  else some matched

/-- One entry of the loop, or its end. -/
def Scan.step : Scan → Scan
  | .answered authorized => .answered authorized
  | .reading [] matched => .answered matched
  | .reading (e :: todo) matched =>
    match entry presented d e matched with
    | none => .answered false
    | some matched => .reading todo matched

/-- The loop made alone. -/
def Scan.finish : List (String × Bool) → Bool → Bool
  | [], matched => matched
  | e :: todo, matched =>
    match entry presented d e matched with
    | none => false
    | some matched => finish todo matched

/-- `CredentialStore::authorized`, made alone. -/
def authorized : Bool := Scan.finish presented d (listing d d.names) false

/-- An entry that cannot be read. -/
def Scan.Unreadable (e : String × Bool) : Prop := e.2 = true ∧ d.read e.1 = none

/-- An entry that holds the token. -/
def Scan.Matches (e : String × Bool) : Prop :=
  presented ≠ "" ∧ e.2 = true ∧ ∃ text, d.read e.1 = some text ∧ Text.trim text = presented

variable {presented d} {e : String × Bool} {todo : List (String × Bool)} {matched matched' : Bool}

/-- **What an entry adds.** -/
theorem Scan.entry_eq_some : entry presented d e matched = some matched' ↔
    ¬ Unreadable d e ∧ (matched' = true ↔ matched = true ∨ Matches presented d e) := by
  obtain ⟨name, regular⟩ := e
  unfold entry Unreadable Matches
  cases regular with
  | false => cases matched <;> cases matched' <;> simp
  | true =>
    cases hread : d.read name with
    | none => simp
    | some text =>
      have hone : (if Text.trim text = "" then matched
          else matched || decide (Text.trim text = presented)) = true ↔
          matched = true ∨ (presented ≠ "" ∧ Text.trim text = presented) := by
        by_cases hblank : Text.trim text = ""
        · rw [if_pos hblank, hblank]
          exact ⟨.inl, fun h => h.resolve_right fun h' => h'.1 h'.2.symm⟩
        · rw [if_neg hblank, Bool.or_eq_true, decide_eq_true_eq]
          exact or_congr_right ⟨fun h => ⟨fun h' => hblank (h.trans h'), h⟩, fun h => h.2⟩
      simp only [if_true, Option.map_some, Option.some.injEq, true_and, exists_eq_left',
        not_false_eq_true, reduceCtorEq]
      rw [Bool.eq_iff_iff, hone]
      exact ⟨fun h => h.symm, fun h => h.symm⟩

theorem Scan.entry_eq_none : entry presented d e matched = none ↔ Unreadable d e := by
  constructor
  · intro h
    by_contra hread
    by_cases hm : matched = true ∨ Matches presented d e
    · cases h.symm.trans (entry_eq_some.mpr ⟨hread, iff_of_true rfl hm⟩)
    · cases h.symm.trans (entry_eq_some.mpr ⟨hread, iff_of_false Bool.false_ne_true hm⟩)
  · intro hun
    cases h : entry presented d e matched with
    | none => rfl
    | some m => exact absurd hun (entry_eq_some.mp h).1

/-- **What the loop made alone accepts.** -/
theorem Scan.finish_eq_true : finish presented d todo matched = true ↔
    (∀ e ∈ todo, ¬ Unreadable d e) ∧ (matched = true ∨ ∃ e ∈ todo, Matches presented d e) := by
  induction todo generalizing matched with
  | nil => simp [finish]
  | cons e todo ih =>
    rw [finish, List.forall_mem_cons]
    cases he : entry presented d e matched with
    | none =>
      show false = true ↔ _
      exact iff_of_false Bool.false_ne_true fun h => h.1.1 (entry_eq_none.mp he)
    | some m =>
      obtain ⟨hread, hm⟩ := entry_eq_some.mp he
      show finish presented d todo m = true ↔ _
      rw [ih, hm]
      simp only [hread, not_false_eq_true, true_and, List.exists_mem_cons_iff, or_assoc]

end Lookup

/-- A file of the directory cannot be read. -/
def Blocked (d : Links) : Prop := ∃ name, d.get? name = some (.file none)

/-- A file of the directory holds the token. -/
def Holds (d : Links) (name token : String) : Prop :=
  ∃ text, d.get? name = some (.file (some text)) ∧ Text.trim text = token

theorem Holds.of_read {d : Links} {name text token : String} (hread : d.read name = some text)
    (htrim : Text.trim text = token) : Holds d name token := by
  unfold Links.read at hread
  split at hread
  · rename_i hget
    rw [hread] at hget
    exact ⟨text, hget, htrim⟩
  · cases hread

theorem holds_iff {d : Links} {name token : String} :
    Holds d name token ↔ (d.read name).map Text.trim = some token := by
  constructor
  · rintro ⟨text, hget, htrim⟩
    rw [Links.read, hget, Option.map_some, htrim]
  · intro h
    obtain ⟨text, hread, htrim⟩ := Option.map_eq_some_iff.mp h
    exact .of_read hread htrim

instance (d : Links) (name token : String) : Decidable (Holds d name token) :=
  decidable_of_iff _ holds_iff.symm

theorem mem_listing {d : Links} {names : List String} {e : String × Bool} :
    e ∈ listing d names ↔ e.1 ∈ names ∧ e.2 = ((d.get? e.1).map Node.isFile).getD false := by
  rw [listing, List.mem_map]
  constructor
  · rintro ⟨name, hn, rfl⟩
    exact ⟨hn, rfl⟩
  · rintro ⟨hn, he⟩
    exact ⟨e.1, hn, by rw [← he]⟩

/-- **What a look-up made alone accepts**: a token that is not empty and that some file holds,
    unless a file cannot be read. -/
theorem authorized_iff {d : Links} {presented : String} : authorized presented d = true ↔
    ¬ Blocked d ∧ presented ≠ "" ∧ ∃ name, Holds d name presented := by
  rw [authorized, Scan.finish_eq_true]
  have hname : ∀ {name : String} {node : Node}, d.get? name = some node → name ∈ d.names := by
    intro name node h
    obtain ⟨k, hk, _⟩ := Links.get?_eq_some.mp h
    exact Links.mem_names.mpr ⟨k, hk⟩
  have hread : ∀ {name : String} {text : Option String}, d.get? name = some (.file text) →
      (name, true) ∈ listing d d.names ∧ d.read name = text := by
    intro name text h
    refine ⟨mem_listing.mpr ⟨hname h, ?_⟩, ?_⟩
    · rw [h]
      rfl
    · rw [Links.read, h]
  have hfile : ∀ e ∈ listing d d.names, e.2 = true → ∃ text, d.get? e.1 = some (.file text) ∧
      d.read e.1 = text := by
    intro e he hregular
    obtain ⟨_, he⟩ := mem_listing.mp he
    rw [hregular] at he
    cases hget : d.get? e.1 with
    | none => rw [hget] at he; cases he
    | some node =>
      cases node with
      | file text => exact ⟨text, rfl, by rw [Links.read, hget]⟩
      | other leads => rw [hget] at he; cases he
  refine and_congr ?_ ?_
  · constructor
    · rintro h ⟨name, hget⟩
      obtain ⟨hmem, hnone⟩ := hread hget
      exact h _ hmem ⟨rfl, hnone⟩
    · rintro h e he ⟨hregular, hnone⟩
      obtain ⟨text, hget, htext⟩ := hfile e he hregular
      rw [hnone] at htext
      exact h ⟨e.1, htext ▸ hget⟩
  · constructor
    · rintro (h | ⟨e, he, hne, hregular, text, htext, htrim⟩)
      · cases h
      · exact ⟨hne, e.1, .of_read htext htrim⟩
    · rintro ⟨hne, name, text, hget, htrim⟩
      obtain ⟨hmem, htext⟩ := hread hget
      exact .inr ⟨_, hmem, hne, rfl, text, htext, htrim⟩

end Beacon
