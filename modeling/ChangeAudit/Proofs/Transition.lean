import ChangeAudit.Transition
import Mathlib.Data.List.Forall2

/-!
# What the events of a transition are determined by

The policy, the sealer, the actor and the record determine the events of a transition, up to what is
drawn afresh: their ids, their time and the nonces of sealed values (`Transition.events_alike`).
-/

namespace ChangeAudit

/-- Shown values of a property that are the same, or show one masked text under two nonces. -/
def ShownAlike (policy : Policy) (sealer : Option Sealer) (property a b : Option String) : Prop :=
  a = b ∨ ∃ name plain s t, property = some name ∧ policy.isMasked name = true ∧
    a = some (maskText sealer name plain s).1 ∧ b = some (maskText sealer name plain t).1

/-- Events that are the same apart from their ids, their times and the nonces of sealed values. -/
structure Event.Alike (policy : Policy) (sealer : Option Sealer) (a b : Event) : Prop where
  entityType : a.entityType = b.entityType
  entityId : a.entityId = b.entityId
  property : a.property = b.property
  oldValue : ShownAlike policy sealer a.property a.oldValue b.oldValue
  newValue : ShownAlike policy sealer a.property a.newValue b.newValue
  kind : a.kind = b.kind
  actor : a.actor = b.actor

section Drawn

variable {policy : Policy} {sealer : Option Sealer}

theorem Occasion.event_alike (o : Occasion) (now : Instant) (id other : String)
    (property : Option String) {old new old' new' : Option String}
    (olds : ShownAlike policy sealer property old old')
    (news : ShownAlike policy sealer property new new') :
    Event.Alike policy sealer (o.event id property old new)
      ({ o with now := now }.event other property old' new') where
  entityType := rfl
  entityId := rfl
  property := rfl
  oldValue := olds
  newValue := news
  kind := rfl
  actor := rfl

variable (policy) (sealer)

theorem Event.Alike.refl (e : Event) : Alike policy sealer e e :=
  ⟨rfl, rfl, rfl, .inl rfl, .inl rfl, rfl, rfl⟩

theorem showValue_alike (name : String) (value : Json) (s t : Supply) :
    ShownAlike policy sealer (some name) (showValue policy sealer name value s).1
      (showValue policy sealer name value t).1 := by
  unfold showValue
  cases plainText value with
  | none => exact .inl rfl
  | some plain =>
    by_cases masked : policy.isMasked name = true
    · simp only [masked, if_true]
      exact .inr ⟨name, plain, s, t, rfl, masked, rfl, rfl⟩
    · simp only [masked]
      exact .inl rfl

theorem changeEvents_alike (o : Occasion) (now : Instant) (changes : List Change) (s t : Supply) :
    List.Forall₂ (Event.Alike policy sealer) (changeEvents policy sealer o changes s).1
      (changeEvents policy sealer { o with now := now } changes t).1 := by
  induction changes generalizing s t with
  | nil => exact .nil
  | cons c changes ih =>
    rw [changeEvents, changeEvents]
    refine .cons ?_ (ih _ _)
    exact o.event_alike now _ _ _ (showValue_alike policy sealer c.property c.old _ _)
      (showValue_alike policy sealer c.property c.new _ _)

theorem summaryEvents_alike (o : Occasion) (now : Instant) (s t : Supply) :
    List.Forall₂ (Event.Alike policy sealer) (summaryEvents o s).1
      (summaryEvents { o with now := now } t).1 :=
  .cons (o.event_alike now _ _ none (.inl rfl) (.inl rfl)) .nil

/-- What a transition records does not depend on when it does and on what it draws. -/
theorem Transition.events_alike (transition : Transition) (actor : Option String)
    (now later : Instant) (record : Record) (s t : Supply) :
    List.Forall₂ (Event.Alike policy sealer)
      (transition.events policy sealer actor now record s).1
      (transition.events policy sealer actor later record t).1 := by
  unfold events
  simp only
  split
  · exact changeEvents_alike policy sealer _ later _ s t
  · split
    · exact .nil
    · exact summaryEvents_alike policy sealer _ later s t

end Drawn

/-! ## The type of the events -/

variable {policy : Policy} {sealer : Option Sealer}

theorem changeEvents_entityType {o : Occasion} {changes : List Change} {supply : Supply} {e : Event}
    (member : e ∈ (changeEvents policy sealer o changes supply).1) :
    e.entityType = o.entityType := by
  induction changes generalizing supply with
  | nil => nomatch member
  | cons c changes ih =>
    rw [changeEvents] at member
    rcases List.mem_cons.1 member with rfl | later
    · rfl
    · exact ih later

/-- The events of a transition are of the type of its record. -/
theorem Transition.events_entityType {transition : Transition} {actor : Option String}
    {now : Instant} {record : Record} {supply : Supply} {e : Event}
    (member : e ∈ (transition.events policy sealer actor now record supply).1) :
    e.entityType = record.entityType := by
  unfold events at member
  simp only at member
  split at member
  · exact changeEvents_entityType member
  · split at member
    · nomatch member
    · rw [summaryEvents, List.mem_singleton] at member
      rw [member]
      rfl

end ChangeAudit
