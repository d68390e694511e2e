import ChangeAudit.Transition
import Mathlib.Data.List.Forall2

/-!
# A limit only shortens values

What changes is settled before anything is cut, so a limit on the length of values drops no event
and adds none: each event has its counterpart without the limit and shows a prefix of what that shows
(`Transition.events_shortened`). A masked value is not cut, and a value that is cut to nothing is
still there.
-/

namespace ChangeAudit

/-- The policy with another limit on the length of values. -/
def Policy.withLimit (policy : Policy) (limit : Option Nat) : Policy :=
  { policy with truncateLength := limit }

/-- A value that is shown in an event, and what is shown of it under a limit: nothing of none, all of
a masked one, and of any other one the first characters, as many as the limit allows. -/
inductive Policy.Shortens (policy : Policy) (limit : Nat) (property : Option String) :
    Option String → Option String → Prop where
  | absent : Shortens policy limit property none none
  | masked (text : String) (masked : property.any policy.isMasked = true) :
      Shortens policy limit property (some text) (some text)
  | plain {whole cut : String} (unmasked : property.any policy.isMasked = false)
      (starts : cut.toList <+: whole.toList) (length : cut.length = min limit whole.length) :
      Shortens policy limit property (some whole) (some cut)

/-- Events that are the same apart from their ids and from what a limit cuts off their values. -/
structure Event.Shortened (policy : Policy) (limit : Nat) (whole cut : Event) : Prop where
  entityType : cut.entityType = whole.entityType
  entityId : cut.entityId = whole.entityId
  property : cut.property = whole.property
  oldValue : policy.Shortens limit whole.property whole.oldValue cut.oldValue
  newValue : policy.Shortens limit whole.property whole.newValue cut.newValue
  kind : cut.kind = whole.kind
  actor : cut.actor = whole.actor
  timestamp : cut.timestamp = whole.timestamp

theorem toList_cutText (limit : Nat) (text : String) :
    (cutText (some limit) text).toList = text.toList.take limit := by
  rw [cutText]
  split
  · exact String.toList_ofList
  · next short =>
    have all : text.toList.length ≤ limit := by
      rw [String.length_toList]
      omega
    exact (List.take_of_length_le all).symm

section

variable {policy : Policy} {limit : Nat}

theorem Occasion.event_shortened (o : Occasion) (id other : String) (property : Option String)
    {old new old' new' : Option String} (olds : policy.Shortens limit property old old')
    (news : policy.Shortens limit property new new') :
    Event.Shortened policy limit (o.event id property old new)
      (o.event other property old' new') where
  entityType := rfl
  entityId := rfl
  property := rfl
  oldValue := olds
  newValue := news
  kind := rfl
  actor := rfl
  timestamp := rfl

variable (policy) (limit)

theorem showValue_shortens (property : String) (value : Json) (s t : Supply) :
    policy.Shortens limit (some property)
      (showValue (policy.withLimit none) none property value s).1
      (showValue (policy.withLimit (some limit)) none property value t).1 := by
  unfold showValue
  cases plainText value with
  | none => exact .absent
  | some plain =>
    -- masking comes first and knows of no limit
    have mask (l : Option Nat) : (policy.withLimit l).isMasked property = policy.isMasked property :=
      rfl
    simp only [mask]
    cases masked : policy.isMasked property with
    | true => exact .masked hiddenText masked
    | false =>
      have cut := toList_cutText limit plain
      refine .plain masked ?_ ?_
      · change (cutText (some limit) plain).toList <+: plain.toList
        rw [cut]
        exact List.take_prefix limit plain.toList
      · change (cutText (some limit) plain).length = min limit plain.length
        rw [← String.length_toList, cut, List.length_take, String.length_toList]

theorem changeEvents_shortened (o : Occasion) (changes : List Change) (s t : Supply) :
    List.Forall₂ (Event.Shortened policy limit)
      (changeEvents (policy.withLimit none) none o changes s).1
      (changeEvents (policy.withLimit (some limit)) none o changes t).1 := by
  induction changes generalizing s t with
  | nil => exact .nil
  | cons c changes ih =>
    rw [changeEvents, changeEvents]
    refine .cons ?_ (ih _ _)
    exact o.event_shortened _ _ (some c.property)
      (showValue_shortens policy limit c.property c.old _ _)
      (showValue_shortens policy limit c.property c.new _ _)

theorem summaryEvents_shortened (o : Occasion) (s t : Supply) :
    List.Forall₂ (Event.Shortened policy limit) (summaryEvents o s).1 (summaryEvents o t).1 :=
  .cons (o.event_shortened _ _ none .absent .absent) .nil

/-- What changes does not depend on the limit. -/
theorem Transition.changes_withLimit (transition : Transition) (limit : Option Nat)
    (current : Snapshot) :
    transition.changes (policy.withLimit limit) current = transition.changes policy current := by
  cases transition <;> rfl

/-- **A limit only shortens values**: where values are not sealed, the events recorded under a limit
are those recorded without one, one by one and in order, ids apart; each old and new value that is
not masked is cut to its first characters, a masked one stays as it is, and an absent one absent. -/
theorem Transition.events_shortened (transition : Transition) (actor : Option String)
    (now : Instant) (record : Record) (s t : Supply) :
    List.Forall₂ (Event.Shortened policy limit)
      (transition.events (policy.withLimit none) none actor now record s).1
      (transition.events (policy.withLimit (some limit)) none actor now record t).1 := by
  have verbose (l : Option Nat) : (policy.withLimit l).verbose = policy.verbose := rfl
  unfold events
  simp only [transition.changes_withLimit, verbose]
  split
  · exact changeEvents_shortened policy limit _ _ s t
  · split
    · exact .nil
    · exact summaryEvents_shortened policy limit _ s t

end

end ChangeAudit
