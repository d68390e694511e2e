import ChangeAudit.Proofs.Instant
import ChangeAudit.Proofs.OrderedMap
import ChangeAudit.Proofs.Transition.Unsealed
import Mathlib.Data.List.Forall2

/-!
# Masked values do not leak

Two runs that only masked values tell apart record the same events, unless values are sealed
(`Transition.events_masked`). What may be learnt of a masked value is whether it is null and, in an
update, whether it changed: both runs have to agree on that. Every path to an event is met on the
way: values are compared before they are shown, and shown before they are cut.
-/

namespace ChangeAudit

namespace Policy

/-- Two values of a property that masking makes look the same: they are the same if it is not
masked, and null together. -/
structure Veiled (policy : Policy) (property : String) (a b : Json) : Prop where
  same : policy.isMasked property = false → a = b
  isNull : a.isNull = b.isNull

/-- The same properties in the same order, with the same values but for masked ones. -/
def AgreeUnmasked (policy : Policy) (a b : List (String × Json)) : Prop :=
  List.Forall₂ (fun p q => p.1 = q.1 ∧ policy.Veiled p.1 p.2 q.2) a b

end Policy

/-- Whether a property changes from one snapshot to another. -/
def changedBetween (previous current : Snapshot) (property : String) : Bool :=
  !((previous.get? property).getD .null).same ((current.get? property).getD .null)

/-- The same transition of two records, from previous snapshots that differ in masked values only,
where each masked property changes in both runs or in neither. -/
inductive Transition.AgreeUnmasked (policy : Policy) (a b : Snapshot) :
    Transition → Transition → Prop where
  | insert : AgreeUnmasked policy a b .insert .insert
  | delete : AgreeUnmasked policy a b .delete .delete
  | update {old old' : Snapshot} (previous : policy.AgreeUnmasked old.entries old'.entries)
      (changed : ∀ property, policy.isMasked property = true →
        changedBetween old a property = changedBetween old' b property) :
      AgreeUnmasked policy a b (.update old) (.update old')

/-- Changes of one property that masking makes look the same. -/
structure Change.Veiled (policy : Policy) (c d : Change) : Prop where
  property : c.property = d.property
  old : policy.Veiled c.property c.old d.old
  new : policy.Veiled c.property c.new d.new

section

variable {policy : Policy}

theorem Policy.Veiled.refl (property : String) (a : Json) : policy.Veiled property a a :=
  ⟨fun _ => rfl, rfl⟩

/-- Nothing but the mask is shown of a masked value. -/
theorem Policy.Veiled.shown {property : String} {a b : Json} (veiled : policy.Veiled property a b) :
    policy.shown property a = policy.shown property b := by
  cases masked : policy.isMasked property with
  | false => rw [veiled.same masked]
  | true =>
    have null := veiled.isNull
    have text (j : Json) :
        policy.shown property j = if j.isNull then none else some hiddenText := by
      cases j <;> simp [Policy.shown, plainText, Json.isNull, masked]
    rw [text a, text b, null]

theorem Change.Veiled.event {c d : Change} (veiled : c.Veiled policy d) (o : Occasion) :
    o.changeEvent policy c = o.changeEvent policy d := by
  have old := veiled.old.shown
  have new := veiled.new.shown
  rw [Occasion.changeEvent, Occasion.changeEvent, old, new, veiled.property]

/-! ## Related lists -/

section Related

variable {α β : Type} {R : α → β → Prop} {l : List α} {l' : List β}

theorem forall₂_mem (related : List.Forall₂ R l l') :
    List.Forall₂ (fun a b => a ∈ l ∧ b ∈ l' ∧ R a b) l l' := by
  rw [List.forall₂_iff_zip] at related ⊢
  constructor
  · exact related.1
  · intro a b paired
    have member := List.of_mem_zip paired
    exact ⟨member.1, member.2, related.2 paired⟩

theorem exists_related (related : List.Forall₂ R l l') {b : β} (member : b ∈ l') :
    ∃ a ∈ l, R a b := by
  induction related with
  | nil => nomatch member
  | cons head _ ih =>
    rcases List.mem_cons.1 member with rfl | later
    · exact ⟨_, List.mem_cons_self, head⟩
    · obtain ⟨a, listed, pair⟩ := ih later
      exact ⟨a, List.mem_cons_of_mem _ listed, pair⟩

/-- Tests that agree on related members keep related lists. -/
theorem forall₂_filter (related : List.Forall₂ R l l') {p : α → Bool} {q : β → Bool}
    (same : ∀ a b, R a b → p a = q b) : List.Forall₂ R (l.filter p) (l'.filter q) := by
  apply List.rel_filter _ related
  intro a b pair
  exact Bool.eq_iff_iff.1 (same a b pair)

end Related

/-! ## Snapshots that agree -/

theorem Policy.AgreeUnmasked.get? {a b : List (String × Json)} (agree : policy.AgreeUnmasked a b)
    (property : String) :
    Option.Rel (policy.Veiled property) (Entries.get? a property) (Entries.get? b property) := by
  induction agree with
  | nil => exact .none
  | @cons p q a b head tail ih =>
    obtain ⟨name, value⟩ := p
    obtain ⟨name', value'⟩ := q
    obtain ⟨rfl, veiled⟩ : name = name' ∧ policy.Veiled name value value' := head
    rw [Entries.get?, Entries.get?]
    by_cases same : name = property
    · subst same
      simp only [if_true]
      exact .some veiled
    · simp only [same, if_false]
      exact ih

theorem Policy.AgreeUnmasked.getD {a b : List (String × Json)} (agree : policy.AgreeUnmasked a b)
    (property : String) :
    policy.Veiled property ((Entries.get? a property).getD .null)
      ((Entries.get? b property).getD .null) := by
  have found := agree.get? property
  revert found
  cases Entries.get? a property <;> cases Entries.get? b property <;> intro found
  · exact .refl property .null
  · nomatch found
  · nomatch found
  · cases found
    assumption

theorem Policy.AgreeUnmasked.watched {a b : List (String × Json)}
    (agree : policy.AgreeUnmasked a b) :
    policy.AgreeUnmasked (policy.watched a) (policy.watched b) := by
  apply forall₂_filter agree
  intro p q alike
  rw [alike.1]

theorem Policy.get?_watched {property : String} (entries : List (String × Json))
    (watched : policy.isIgnored property = false) :
    Entries.get? (policy.watched entries) property = Entries.get? entries property := by
  rw [Policy.watched, Entries.get?_filter (fun name => !policy.isIgnored name), watched]
  rfl

/-! ## The changes of a transition -/

variable {a b : Snapshot}

/-- Values that are not null are so in both snapshots. -/
theorem Policy.AgreeUnmasked.present {a b : List (String × Json)}
    (agree : policy.AgreeUnmasked a b) :
    policy.AgreeUnmasked (a.filter fun p => !p.2.isNull) (b.filter fun p => !p.2.isNull) := by
  apply forall₂_filter agree
  intro p q alike
  rw [alike.2.isNull]

theorem insertChanges_veiled {current current' : List (String × Json)}
    (agree : policy.AgreeUnmasked current current') :
    List.Forall₂ (Change.Veiled policy) (insertChanges current) (insertChanges current') := by
  apply List.rel_map _ agree.present
  intro p q alike
  exact ⟨alike.1, .refl _ _, alike.2⟩

theorem deleteChanges_veiled {current current' : List (String × Json)}
    (agree : policy.AgreeUnmasked current current') :
    List.Forall₂ (Change.Veiled policy) (deleteChanges current) (deleteChanges current') := by
  apply List.rel_map _ agree.present
  intro p q alike
  exact ⟨alike.1, alike.2, .refl _ _⟩

/-- A property of both records changes in both runs or in neither: by what is assumed if it is
masked, and because the values are the same otherwise. -/
theorem changed_veiled {old old' : Snapshot}
    (previous : policy.AgreeUnmasked old.entries old'.entries)
    (changed : ∀ property, policy.isMasked property = true →
      changedBetween old a property = changedBetween old' b property)
    {property : String} {new new' : Json} (veiled : policy.Veiled property new new')
    (found : a.get? property = some new) (found' : b.get? property = some new') :
    ((old.get? property).getD .null).same new = ((old'.get? property).getD .null).same new' := by
  cases masked : policy.isMasked property with
  | true =>
    have both := changed property masked
    rw [changedBetween, changedBetween, found, found', Option.getD_some, Option.getD_some] at both
    exact Bool.not_inj both
  | false =>
    have before := (previous.getD property).same masked
    rw [veiled.same masked, OrderedMap.get?, before, OrderedMap.get?]

theorem updateChanges_veiled {old old' : Snapshot}
    (current : policy.AgreeUnmasked a.entries b.entries)
    (previous : policy.AgreeUnmasked old.entries old'.entries)
    (changed : ∀ property, policy.isMasked property = true →
      changedBetween old a property = changedBetween old' b property) :
    List.Forall₂ (Change.Veiled policy)
      (updateChanges (policy.watched old.entries) (policy.watched a.entries))
      (updateChanges (policy.watched old'.entries) (policy.watched b.entries)) := by
  have before := previous.watched
  have after := current.watched
  apply List.rel_append
  · have pairs : List.Forall₂
        (fun c d : Change => c.Veiled policy d ∧ c.old.same c.new = d.old.same d.new)
        ((policy.watched a.entries).map fun p =>
          Change.mk p.1 ((Entries.get? (policy.watched old.entries) p.1).getD .null) p.2)
        ((policy.watched b.entries).map fun p =>
          Change.mk p.1 ((Entries.get? (policy.watched old'.entries) p.1).getD .null) p.2) := by
      apply List.rel_map _ (forall₂_mem after)
      rintro ⟨name, value⟩ ⟨name', value'⟩ ⟨left, right, same, veiled⟩
      obtain rfl : name = name' := same
      obtain ⟨inLeft, kept⟩ := List.mem_filter.1 left
      obtain ⟨inRight, -⟩ := List.mem_filter.1 right
      have watched : policy.isIgnored name = false := by simpa using kept
      constructor
      · exact ⟨rfl, before.getD name, veiled⟩
      · simp only [Policy.get?_watched _ watched]
        exact changed_veiled previous changed veiled (Entries.get?_of_mem a.nodup inLeft)
          (Entries.get?_of_mem b.nodup inRight)
    have kept := forall₂_filter pairs fun c d alike => congrArg (!·) alike.2
    exact kept.imp fun c d alike => alike.1
  · have gone : policy.AgreeUnmasked
        ((policy.watched old.entries).filter fun p =>
          (Entries.get? (policy.watched a.entries) p.1).isNone && !p.2.isNull)
        ((policy.watched old'.entries).filter fun p =>
          (Entries.get? (policy.watched b.entries) p.1).isNone && !p.2.isNull) := by
      apply forall₂_filter before
      rintro ⟨name, value⟩ ⟨name', value'⟩ ⟨same, veiled⟩
      obtain rfl : name = name' := same
      have absent : (Entries.get? (policy.watched a.entries) name).isNone =
          (Entries.get? (policy.watched b.entries) name).isNone := by
        have found := after.get? name
        revert found
        cases Entries.get? (policy.watched a.entries) name <;>
          cases Entries.get? (policy.watched b.entries) name <;> intro found
        · rfl
        · cases found
        · cases found
        · rfl
      rw [absent, veiled.isNull]
    apply List.rel_map _ gone
    intro p q alike
    exact ⟨alike.1, alike.2, .refl _ _⟩

theorem Transition.changes_veiled {t u : Transition}
    (current : policy.AgreeUnmasked a.entries b.entries)
    (agree : t.AgreeUnmasked policy a b u) :
    List.Forall₂ (Change.Veiled policy) (t.changes policy a) (u.changes policy b) := by
  cases agree with
  | insert => exact insertChanges_veiled current.watched
  | delete => exact deleteChanges_veiled current.watched
  | update previous changed => exact updateChanges_veiled current previous changed

theorem Transition.AgreeUnmasked.kind {t u : Transition} (agree : t.AgreeUnmasked policy a b u) :
    t.kind = u.kind := by
  cases agree <;> rfl

end

/-- **Masked values do not leak.** Without sealing, two runs of a recorder whose records and previous
snapshots agree but for the values of masked properties record the same events, ids apart: whatever
the policy and the transition are, as long as each masked value is null in both runs or in neither
and, in an update, each masked property changes in both or in neither. -/
theorem Transition.events_masked {policy : Policy} {sealer : Option Sealer}
    (unsealed : Unsealed sealer) (a b : Record) (sameType : a.entityType = b.entityType)
    (sameId : a.id = b.id) (current : policy.AgreeUnmasked a.snapshot.entries b.snapshot.entries)
    {t u : Transition} (agree : t.AgreeUnmasked policy a.snapshot b.snapshot u)
    (actor : Option String) (now : Instant) (supply supply' : Supply) :
    (t.events policy sealer actor now a supply).1.map Event.withoutId =
      (u.events policy sealer actor now b supply').1.map Event.withoutId := by
  have changes := t.changes_veiled current agree
  have occasion : t.occasion actor now a = u.occasion actor now b := by
    rw [Transition.occasion, Transition.occasion, agree.kind, sameType, sameId]
  cases verbose : policy.verbose with
  | true =>
    rw [t.events_unsealed unsealed verbose, u.events_unsealed unsealed verbose, occasion]
    have events : List.Forall₂ (· = ·)
        ((t.changes policy a.snapshot).map ((u.occasion actor now b).changeEvent policy))
        ((u.changes policy b.snapshot).map ((u.occasion actor now b).changeEvent policy)) := by
      apply List.rel_map _ changes
      intro c d veiled
      exact veiled.event _
    rwa [List.forall₂_eq_eq_eq] at events
  | false =>
    have none_iff : t.changes policy a.snapshot = [] ↔ u.changes policy b.snapshot = [] := by
      rw [← List.length_eq_zero_iff, ← List.length_eq_zero_iff, changes.length_eq]
    simp only [t.events_quiet verbose, u.events_quiet verbose, occasion, agree.kind, none_iff]

/-- One event a change, and four characters of a value. -/
def terse : Policy := { Policy.standard with verbose := true, truncateLength := some 4 }

/-- A sealer that is out of order. -/
def brokenSealer : Option Sealer := some fun _ _ _ => .error (.refused "offline")

/-- A user with a password. -/
def userWith (password : String) : Record :=
  ((Record.new "User" "u1").set "login" (.string "alice")).set "password" (.string password)

/-- Two users change their passwords, one to a text shorter than the limit. -/
theorem Transition.events_masked_passwords :
    Unsealed brokenSealer ∧
      terse.AgreeUnmasked (userWith "abc").snapshot.entries
        (userWith "open sesame").snapshot.entries ∧
      Transition.AgreeUnmasked terse (userWith "abc").snapshot (userWith "open sesame").snapshot
        (.update (userWith "a").snapshot) (.update (userWith "sesame").snapshot) ∧
      ((Transition.update (userWith "a").snapshot).events terse brokenSealer none .epoch
          (userWith "abc") .fresh).1.map Event.withoutId =
        ((Transition.update (userWith "sesame").snapshot).events terse brokenSealer none .epoch
          (userWith "open sesame") .fresh).1.map Event.withoutId ∧
      ((Transition.update (userWith "a").snapshot).events terse brokenSealer none .epoch
          (userWith "abc") .fresh).1.map Event.newValue = [some hiddenText] := by
  have unsealed : Unsealed brokenSealer := by
    rintro sealWith ⟨⟩ nonce property plain
    exact ⟨_, rfl⟩
  have agree (p q : String) : terse.AgreeUnmasked (userWith p).snapshot.entries
      (userWith q).snapshot.entries := by
    have login : (fun p q : String × Json => p.1 = q.1 ∧ terse.Veiled p.1 p.2 q.2)
        ("login", .string "alice") ("login", .string "alice") := ⟨rfl, .refl _ _⟩
    have password : (fun p q : String × Json => p.1 = q.1 ∧ terse.Veiled p.1 p.2 q.2)
        ("password", .string p) ("password", .string q) := by
      refine ⟨rfl, ?_, rfl⟩
      intro unmasked
      nomatch unmasked
    exact .cons login (.cons password .nil)
  have update : Transition.AgreeUnmasked terse (userWith "abc").snapshot
      (userWith "open sesame").snapshot (.update (userWith "a").snapshot)
      (.update (userWith "sesame").snapshot) := by
    apply Transition.AgreeUnmasked.update (agree "a" "sesame")
    intro property masked
    have listed : property ∈ terse.masked.names := by
      simpa [Policy.isMasked, NameSet.contains] using masked
    obtain rfl : property = "password" := List.mem_singleton.1 listed
    rfl
  have current := agree "abc" "open sesame"
  refine ⟨unsealed, current, update, ?_, rfl⟩
  exact Transition.events_masked unsealed (userWith "abc") (userWith "open sesame") rfl rfl current
    update none .epoch .fresh .fresh

end ChangeAudit
