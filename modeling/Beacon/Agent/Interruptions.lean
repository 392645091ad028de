/-
  File:      Beacon/Agent/Interruptions.lean
  Subject:   An `enqueue` that fails at a step of the file system, or is killed at one.

  The temporary file is named by the event and created as a new one. A call that ends between the
  creation and the rename leaves it behind: no later call for the event gets past the creation.

  * `opened_enqueue` -- what stands in the directory from the creation on;
  * `interrupted_enqueue_iff` -- **when a call that ends early can be made again**;
  * `interrupted_enqueue_stuck` -- a failed sync, and the event is never queued.
-/
import Beacon.Agent.Spool

namespace Beacon

open Foundation

namespace Spool

/-- The steps of `enqueue` on the file system. A check that fails reads as "not there" and the
    call goes on, so it can only be killed there; a write may end after some of the text. -/
inductive FileStep where
  | check
  | create
  | write (written : Nat)
  | sync
  | rename
  deriving DecidableEq, Repr

/-- The temporary file was created before this step. -/
def FileStep.opened : FileStep → Bool
  | .check => false
  | .create => false
  | .write _ => true
  | .sync => true
  | .rename => true

section Interrupted

variable [Codec]

/-- The changes made before this step. -/
def FileStep.made (event : Event) : FileStep → Nat
  | .check => 0
  | .create => 0
  | .write written => min written (fileText event).toList.length + 1
  | .sync => (fileText event).toList.length + 1
  | .rename => (fileText event).toList.length + 1

variable [Formats]

/-- What a call leaves that fails at a step, or is killed at it. -/
def interrupted (event : Event) (step : FileStep) (d : Directory) : Directory :=
  (enqueue event).after (step.made event) d

/-- The call can be made. -/
def Accepted (event : Event) (d : Directory) : Prop := ∃ d', (enqueue event).run d = .ok ((), d')

variable {event : Event} {d d₁ : Directory}

/-- **From the creation on**, the temporary file holds what was written so far. -/
theorem opened_enqueue (hv : event.Valid) (hp : d.get? (fileName event.eventId) = none)
    (hc : Directory.createNew d (temporaryName event.eventId) = some d₁) {k : Nat}
    (hk : k ≤ (fileText event).toList.length) :
    ((enqueue event).after (k + 1) d).get? (temporaryName event.eventId) =
      some ⟨temporaryName event.eventId, String.ofList ((fileText event).toList.take k)⟩ := by
  have hv' : event.validate = .ok () := hv
  have hafter : (enqueue event).after (k + 1) d = ((fileText event).toList.take k).foldl
      (fun d c => Directory.append d (temporaryName event.eventId) c) d₁ := by
    unfold enqueue enqueueWith
    simp only [hv', Prog.after_ask_bind, hp, Option.isSome_none, Bool.and_false, Bool.false_eq_true,
      if_false]
    simp only [Prog.update, Bind.bind, Prog.bind, Prog.after, hc]
    exact (Prog.after_forEach_bind _ _ _ _ _).trans (if_pos hk)
  have hcreated := Directory.get?_createNew hc (temporaryName event.eventId)
  rw [if_pos rfl] at hcreated
  have hfilled := Directory.get?_appendAll _ ((fileText event).toList.take k) hcreated
  rwa [← hafter, String.empty_append] at hfilled

/-- A temporary file that stands there ends the call at its creation. -/
theorem not_accepted_of_taken (ht : (d.get? (temporaryName event.eventId)).isSome) :
    ¬ Accepted event d := by
  rintro ⟨d', hrun⟩
  obtain ⟨_, _, d₁, hc, _⟩ := enqueue_ok hrun
  rw [Table.fresh_of_insert hc] at ht
  cases ht

/-- Such a call changes nothing, wherever it ends. -/
theorem after_of_taken (event : Event)
    (ht : (d.get? (temporaryName event.eventId)).isSome) (n : Nat) :
    (enqueue event).after n d = d := by
  cases hrun : (enqueue event).run d with
  | ok r => exact absurd ⟨r.2, hrun⟩ (not_accepted_of_taken ht)
  | error fault => exact (refused_enqueue hrun).2 n

theorem accepted_iff (hv : event.Valid) (hp : d.get? (fileName event.eventId) = none) :
    Accepted event d ↔ d.get? (temporaryName event.eventId) = none := by
  constructor
  · intro h
    cases ht : d.get? (temporaryName event.eventId) with
    | none => rfl
    | some f => exact absurd h (not_accepted_of_taken (by rw [ht]; rfl))
  · exact enqueue_of_fresh hv hp

theorem interrupted_unopened {step : FileStep} (h : step.opened = false) :
    interrupted event step d = d := by
  cases step with
  | check => exact Prog.after_zero _ _
  | create => exact Prog.after_zero _ _
  | write k => cases h
  | sync => cases h
  | rename => cases h

omit [Formats] in
theorem made_of_opened (event : Event) {step : FileStep} (h : step.opened = true) :
    ∃ k ≤ (fileText event).toList.length, step.made event = k + 1 := by
  cases step with
  | check => cases h
  | create => cases h
  | write k => exact ⟨_, Nat.min_le_right _ _, rfl⟩
  | sync => exact ⟨_, Nat.le_refl _, rfl⟩
  | rename => exact ⟨_, Nat.le_refl _, rfl⟩

/-- A call that ends from the creation on leaves a temporary file, and no file of the event. -/
theorem interrupted_opened (hv : event.Valid) (hp : d.get? (fileName event.eventId) = none)
    {step : FileStep} (h : step.opened = true) :
    ((interrupted event step d).get? (temporaryName event.eventId)).isSome := by
  obtain ⟨k, hk, hmade⟩ := made_of_opened event h
  unfold interrupted
  rw [hmade]
  cases ht : d.get? (temporaryName event.eventId) with
  | none =>
    obtain ⟨d₁, hc⟩ := Directory.createNew_of_fresh ht
    rw [opened_enqueue hv hp hc hk]
    rfl
  | some f =>
    have hsame := after_of_taken event (d := d) (by rw [ht]; rfl) (k + 1)
    rw [hsame, ht]
    rfl

/-- **When a call that ends early can be made again**: exactly if no temporary file of the event
    stands there and the step that fails is the creation of it or comes before. Otherwise no call
    for the event succeeds until someone removes the file; the call that created it has left a
    file behind. -/
theorem interrupted_enqueue_iff (hv : event.Valid) (hp : d.get? (fileName event.eventId) = none)
    (step : FileStep) :
    let left := interrupted event step d
    let unchanged := ∀ name, d.get? name = none → left.get? name = none
    (Accepted event left ↔
      d.get? (temporaryName event.eventId) = none ∧ step.opened = false) ∧
    (Accepted event left ∧ unchanged ↔
      d.get? (temporaryName event.eventId) = none ∧ step.opened = false) ∧
    (unchanged ↔ d.get? (temporaryName event.eventId) ≠ none ∨ step.opened = false) := by
  intro left unchanged
  cases hopened : step.opened with
  | false =>
    have hsame : left = d := interrupted_unopened hopened
    have hkept : unchanged := by
      intro name hname
      rw [hsame]
      exact hname
    simp only [hsame, accepted_iff hv hp, hkept, and_true, or_true, and_self]
  | true =>
    have hleft := interrupted_opened hv hp hopened
    have hstuck : ¬ Accepted event left := not_accepted_of_taken hleft
    have hnew : unchanged ↔ d.get? (temporaryName event.eventId) ≠ none := by
      constructor
      · intro h hnone
        rw [h _ hnone] at hleft
        cases hleft
      · intro ht name hname
        show ((enqueue event).after (step.made event) d).get? name = none
        rw [after_of_taken event (Option.isSome_iff_ne_none.mpr ht)]
        exact hname
    simp only [hstuck, hnew, Bool.true_eq_false, and_false, or_false, false_and, and_self]

end Interrupted

/-! ## The sample event, interrupted -/

theorem valid_firingFirst : @Event.Valid Sample.formats Sample.firingFirst :=
  Sample.valid_known _ List.mem_cons_self

theorem interrupted_enqueue_iff_create :
    @Accepted Sample.codec Sample.formats Sample.firingFirst
      (@interrupted Sample.codec Sample.formats Sample.firingFirst .create .empty) :=
  (@interrupted_enqueue_iff Sample.codec Sample.formats Sample.firingFirst .empty valid_firingFirst
    rfl .create).1.mpr ⟨rfl, rfl⟩

/-- **A failed sync leaves a file behind that keeps the event out of the spool for ever.** -/
theorem interrupted_enqueue_stuck :
    let left := @interrupted Sample.codec Sample.formats Sample.firingFirst .sync .empty
    ¬ @Accepted Sample.codec Sample.formats Sample.firingFirst left ∧
      (Table.empty : Directory).get? (temporaryName Sample.firingFirst.eventId) = none ∧
      (left.get? (temporaryName Sample.firingFirst.eventId)).isSome := by
  intro left
  have hleft := @interrupted_opened Sample.codec Sample.formats Sample.firingFirst .empty
    valid_firingFirst rfl .sync rfl
  exact ⟨@not_accepted_of_taken Sample.codec Sample.formats _ _ hleft, rfl, hleft⟩

end Spool

end Beacon
