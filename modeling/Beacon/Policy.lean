/-
  File:      Beacon/Policy.lean
  Subject:   The policy catalog: which channels an event is routed to (`policy.rs`).

  A rule routes the events that equal all of its present criteria to its channels; the catalog
  collects the channels of the enabled matching rules, in order and without repetition.

  * `PolicyCatalog.mem_channelsFor` -- a channel is routed exactly when one enabled rule that
    matches names it;
  * `PolicyCatalog.nodup_channelsFor` -- no channel is routed twice.
-/
import Mathlib.Data.List.Nodup
import Beacon.Model

namespace Beacon

open Foundation

structure PolicyRule where
  name : String
  enabled : Bool := true
  eventType : Option String := none
  source : Option String := none
  hostId : Option String := none
  state : Option EventState := none
  severity : Option Severity := none
  channels : List String
  deriving DecidableEq, Repr

structure PolicyCatalog where
  rules : List PolicyRule := []
  deriving DecidableEq, Repr

/-! ## 1. Validation -/

def validateChannel (channel : String) : Except String Unit :=
  if Text.isBlank channel || channel.utf8ByteSize > 64 then
    .error "policy channel must be between 1 and 64 bytes"
  else .ok ()

/-- The checks of one rule. -/
def PolicyRule.validate (rule : PolicyRule) : Except String Unit := do
  if Text.isBlank rule.name || rule.name.utf8ByteSize > 128 then
    .error "policy name must be between 1 and 128 bytes"
  if rule.channels.isEmpty || rule.channels.length > 16 then
    .error s!"policy '{rule.name}' must contain between 1 and 16 channels"
  rule.channels.forM validateChannel

def PolicyCatalog.validate (policy : PolicyCatalog) : Except String Unit := do
  if policy.rules.length > 256 then
    .error "policy catalog cannot contain more than 256 rules"
  policy.rules.forM PolicyRule.validate

/-- The default catalog, which has no rules, passes. -/
theorem PolicyCatalog.validate_default : ({} : PolicyCatalog).validate = .ok () := rfl

/-! ## 2. Routing -/

/-- A criterion: absent, or equal to the field of the event. -/
def isNoneOr {α : Type} [DecidableEq α] (criterion : Option α) (field : α) : Bool :=
  match criterion with
  | none => true
  | some value => value = field

/-- `PolicyRule::matches`. -/
def PolicyRule.matchesEvent (rule : PolicyRule) (event : Event) : Bool :=
  isNoneOr rule.eventType event.eventType &&
    isNoneOr rule.source event.source &&
    isNoneOr rule.hostId event.hostId &&
    isNoneOr rule.state event.state &&
    isNoneOr rule.severity event.severity

/-- Append a channel that is not known yet. -/
def pushChannel (channels : List String) (channel : String) : List String :=
  if channels.any (· = channel) then channels else channels ++ [channel]

/-- The body of the loop over the rules. -/
def PolicyRule.collect (event : Event) (channels : List String) (rule : PolicyRule) :
    List String :=
  if rule.enabled && rule.matchesEvent event then rule.channels.foldl pushChannel channels
  else channels

def PolicyCatalog.channelsFor (policy : PolicyCatalog) (event : Event) : List String :=
  policy.rules.foldl (PolicyRule.collect event) []

/-! ## 3. What is routed -/

theorem isNoneOr_iff {α : Type} [DecidableEq α] {criterion : Option α} {field : α} :
    isNoneOr criterion field = true ↔ ∀ value, criterion = some value → value = field := by
  cases criterion <;> simp [isNoneOr]

/-- A rule matches an event that equals all of its present criteria. -/
theorem PolicyRule.matchesEvent_iff {rule : PolicyRule} {event : Event} :
    rule.matchesEvent event = true ↔
      (∀ v, rule.eventType = some v → v = event.eventType) ∧
      (∀ v, rule.source = some v → v = event.source) ∧
      (∀ v, rule.hostId = some v → v = event.hostId) ∧
      (∀ v, rule.state = some v → v = event.state) ∧
      (∀ v, rule.severity = some v → v = event.severity) := by
  simp only [matchesEvent, Bool.and_eq_true, isNoneOr_iff, and_assoc]

/-- One enabled rule all of whose present criteria equal the event's fields names the channel. -/
def PolicyCatalog.Routed (policy : PolicyCatalog) (event : Event) (channel : String) : Prop :=
  ∃ rule ∈ policy.rules, rule.enabled = true ∧
    (∀ v, rule.eventType = some v → v = event.eventType) ∧
    (∀ v, rule.source = some v → v = event.source) ∧
    (∀ v, rule.hostId = some v → v = event.hostId) ∧
    (∀ v, rule.state = some v → v = event.state) ∧
    (∀ v, rule.severity = some v → v = event.severity) ∧
    channel ∈ rule.channels

theorem mem_pushChannel {channels : List String} {channel c : String} :
    c ∈ pushChannel channels channel ↔ c ∈ channels ∨ c = channel := by
  unfold pushChannel
  split
  · rename_i h
    simp only [List.any_eq_true, decide_eq_true_eq, exists_eq_right] at h
    constructor
    · exact Or.inl
    · rintro (hc | rfl)
      · exact hc
      · exact h
  · rw [List.mem_append, List.mem_singleton]

theorem nodup_pushChannel {channels : List String} (channel : String) (h : channels.Nodup) :
    (pushChannel channels channel).Nodup := by
  unfold pushChannel
  split
  · exact h
  · rename_i hc
    simp only [List.any_eq_true, decide_eq_true_eq, exists_eq_right] at hc
    rw [List.nodup_append]
    refine ⟨h, List.nodup_singleton _, fun a ha b hb e => ?_⟩
    rw [List.mem_singleton] at hb
    exact hc (hb ▸ e ▸ ha)

theorem mem_foldl_pushChannel {l channels : List String} {c : String} :
    c ∈ l.foldl pushChannel channels ↔ c ∈ channels ∨ c ∈ l := by
  induction l generalizing channels with
  | nil => simp
  | cons x l ih => rw [List.foldl_cons, ih, mem_pushChannel, List.mem_cons, or_assoc]

theorem nodup_foldl_pushChannel {l channels : List String} (h : channels.Nodup) :
    (l.foldl pushChannel channels).Nodup := by
  induction l generalizing channels with
  | nil => exact h
  | cons x l ih => exact ih (nodup_pushChannel x h)

theorem mem_foldl_collect {event : Event} {rules : List PolicyRule} {channels : List String}
    {c : String} : c ∈ rules.foldl (PolicyRule.collect event) channels ↔
      c ∈ channels ∨ ∃ r ∈ rules, r.enabled = true ∧ r.matchesEvent event = true ∧ c ∈ r.channels := by
  induction rules generalizing channels with
  | nil => simp
  | cons r rules ih =>
    rw [List.foldl_cons, ih, PolicyRule.collect]
    split
    · rename_i h
      rw [Bool.and_eq_true] at h
      rw [mem_foldl_pushChannel, or_assoc, List.exists_mem_cons_iff]
      simp only [h.1, h.2, true_and]
    · rename_i h
      rw [Bool.and_eq_true] at h
      rw [List.exists_mem_cons_iff]
      constructor
      · rintro (hc | hc)
        · exact Or.inl hc
        · exact Or.inr (Or.inr hc)
      · rintro (hc | ⟨he, hm, _⟩ | hc)
        · exact Or.inl hc
        · exact absurd ⟨he, hm⟩ h
        · exact Or.inr hc

/-- **The loop over the catalog collects exactly the routed channels.** -/
theorem PolicyCatalog.mem_channelsFor {policy : PolicyCatalog} {event : Event} {c : String} :
    c ∈ policy.channelsFor event ↔ policy.Routed event c := by
  rw [channelsFor, mem_foldl_collect, Routed]
  simp only [List.not_mem_nil, false_or, PolicyRule.matchesEvent_iff, and_assoc]

/-- **No channel is collected twice.** -/
theorem PolicyCatalog.nodup_channelsFor (policy : PolicyCatalog) (event : Event) :
    (policy.channelsFor event).Nodup := by
  unfold channelsFor
  have key : ∀ (rules : List PolicyRule) (channels : List String), channels.Nodup →
      (rules.foldl (PolicyRule.collect event) channels).Nodup := by
    intro rules
    induction rules with
    | nil => exact fun _ h => h
    | cons r rules ih =>
      intro channels h
      refine ih _ ?_
      unfold PolicyRule.collect
      split
      · exact nodup_foldl_pushChannel h
      · exact h
  exact key policy.rules [] List.nodup_nil

end Beacon
