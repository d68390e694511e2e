import ChangeAudit.Envelope
import ChangeAudit.Proofs.Cipher.Gcm
import ChangeAudit.Proofs.Transition.Changed
import ChangeAudit.Proofs.Transition.Shortened

/-!
# What is reported of a transition

A verbose policy reports the changes of a transition one by one: each event names its property and
shows the value before and after (`Transition.events_reports`). What may be shown of a value is said
by `Policy.Shows`, whatever was drawn for sealing it, and what its text is by `Json.WholeText`. For an
update this means one event for each
property that changes, in order; under any other policy there is one summary if some property
changes, and nothing otherwise (`Transition.update_reported`).
-/

namespace ChangeAudit

/-- The whole text of a value that is not null: that of a text is itself, and that of a number, a
truth value, a list or an object is how it is written. -/
inductive Json.WholeText : Json → String → Prop where
  | string (s : String) : WholeText (.string s) s
  | written {value : Json} (some : value ≠ .null) (other : ∀ s, value ≠ .string s) :
      WholeText value value.text

/-- What may be shown of a value of a property: nothing of null; of any other value its whole text, or
the first characters of it if the policy sets a length, unless it is masked; a masked one is sealed,
whole, under a nonce of twelve bytes, or hidden if it cannot be sealed. -/
inductive Policy.Shows (policy : Policy) (sealer : Option Sealer) (property : String) :
    Json → Option String → Prop where
  | null : Shows policy sealer property .null none
  | plain {value : Json} {text : String} (unmasked : policy.isMasked property = false)
      (unlimited : policy.truncateLength = none) (whole : value.WholeText text) :
      Shows policy sealer property value (some text)
  | cut {value : Json} {text shown : String} {limit : Nat}
      (unmasked : policy.isMasked property = false) (limited : policy.truncateLength = some limit)
      (whole : value.WholeText text) (first : shown.toList = text.toList.take limit) :
      Shows policy sealer property value (some shown)
  | hidden {value : Json} {text : String} (masked : policy.isMasked property = true)
      (whole : value.WholeText text)
      (unsealed : ∀ sealWith ∈ sealer, ∃ nonce e, sealWith nonce property text = .error e) :
      Shows policy sealer property value (some "**********")
  | sealed {value : Json} {text shown : String} {sealWith : Sealer} {nonce : List UInt8}
      (masked : policy.isMasked property = true) (whole : value.WholeText text)
      (given : sealer = some sealWith) (twelve : nonce.length = Envelope.nonceLength)
      (sealed : sealWith nonce property text = .ok shown) :
      Shows policy sealer property value (some shown)

/-- The event reports the change: it names the property and shows the values before and after. -/
structure Event.Reports (policy : Policy) (sealer : Option Sealer) (c : Change) (e : Event) :
    Prop where
  property : e.property = some c.property
  oldValue : policy.Shows sealer c.property c.old e.oldValue
  newValue : policy.Shows sealer c.property c.new e.newValue

/-- The event belongs to the occasion: it is of its entity, kind, actor and time. -/
structure Occasion.Covers (o : Occasion) (e : Event) : Prop where
  kind : e.kind = o.kind
  entityType : e.entityType = o.entityType
  entityId : e.entityId = o.entityId
  actor : e.actor = o.actor
  timestamp : e.timestamp = o.now

/-- What the events of an update of a record say, at a time and for an actor. -/
structure Transition.Reported (policy : Policy) (sealer : Option Sealer) (actor : Option String)
    (now : Instant) (previous : Snapshot) (record : Record) (events : List Event) : Prop where
  differs : (∀ e ∈ previous.entries, e.2.KeysDistinct) →
    (∀ e ∈ record.snapshot.entries, e.2.KeysDistinct) → ∀ property,
      (policy.changed previous record.snapshot property = true ↔
        policy.isIgnored property = false ∧
          ¬ Json.Equal ((previous.get? property).getD .null)
            ((record.snapshot.get? property).getD .null))
  listed : ∀ property, property ∈ policy.changedProperties previous record.snapshot ↔
    policy.changed previous record.snapshot property = true
  once : (policy.changedProperties previous record.snapshot).Nodup
  covered : ∀ e ∈ events, Occasion.Covers ⟨.update, record.entityType, record.id, actor, now⟩ e
  each : policy.verbose = true →
    List.Forall₂ (Event.Reports policy sealer)
      ((policy.changedProperties previous record.snapshot).map
        (Change.between previous record.snapshot)) events
  summary : policy.verbose = false →
    (∃ property, policy.changed previous record.snapshot property = true) →
      ∃ e, events = [e] ∧ e.property = none ∧ e.oldValue = none ∧ e.newValue = none
  silence : policy.verbose = false →
    (∀ property, policy.changed previous record.snapshot property = false) → events = []

section

variable {policy : Policy} {sealer : Option Sealer}

theorem plainText_eq_none_iff {value : Json} : plainText value = none ↔ value = .null := by
  cases value <;> simp [plainText]

theorem plainText_eq_some_iff {value : Json} {text : String} :
    plainText value = some text ↔ value.WholeText text := by
  constructor
  · intro shown
    cases value with
    | null => nomatch shown
    | string s =>
      cases shown
      exact .string _
    | _ =>
      cases shown
      exact .written nofun nofun
  · rintro (_ | ⟨some, other⟩)
    · rfl
    · cases value with
      | null => exact absurd rfl some
      | string s => exact absurd rfl (other s)
      | _ => rfl

theorem Supply.nonce_length (supply : Supply) : supply.nonce.1.length = Envelope.nonceLength :=
  Cipher.Gcm.length_toBytes 12 supply.sealings

theorem showValue_shows (policy : Policy) (sealer : Option Sealer) (property : String)
    (value : Json) (supply : Supply) :
    policy.Shows sealer property value (showValue policy sealer property value supply).1 := by
  unfold showValue
  cases whole : plainText value with
  | none =>
    obtain rfl := plainText_eq_none_iff.1 whole
    exact .null
  | some text =>
    rw [plainText_eq_some_iff] at whole
    cases masked : policy.isMasked property with
    | false =>
      cases limited : policy.truncateLength with
      | none => exact .plain masked limited whole
      | some limit => exact .cut masked limited whole (toList_cutText limit text)
    | true =>
      cases sealer with
      | none => exact .hidden masked whole nofun
      | some sealWith =>
        simp only [if_true, maskText]
        cases sealing : sealWith supply.nonce.1 property text with
        | ok shown => exact .sealed masked whole rfl supply.nonce_length sealing
        | error e =>
          refine .hidden masked whole ?_
          rintro _ ⟨⟩
          exact ⟨_, e, sealing⟩

theorem changeEvents_reports (o : Occasion) (changes : List Change) (supply : Supply) :
    List.Forall₂ (Event.Reports policy sealer) changes
      (changeEvents policy sealer o changes supply).1 := by
  induction changes generalizing supply with
  | nil => exact .nil
  | cons c changes ih =>
    rw [changeEvents]
    refine .cons ⟨rfl, ?_, ?_⟩ (ih _)
    · exact showValue_shows policy sealer c.property c.old _
    · exact showValue_shows policy sealer c.property c.new _

theorem changeEvents_covers {o : Occasion} {changes : List Change} {supply : Supply} :
    ∀ e ∈ (changeEvents policy sealer o changes supply).1, o.Covers e := by
  induction changes generalizing supply with
  | nil => exact List.forall_mem_nil _
  | cons c changes ih =>
    rw [changeEvents]
    exact List.forall_mem_cons.2 ⟨⟨rfl, rfl, rfl, rfl, rfl⟩, ih⟩

/-- Under a verbose policy each change is reported by one event, in order. -/
theorem Transition.events_reports (transition : Transition) (verbose : policy.verbose = true)
    (actor : Option String) (now : Instant) (record : Record) (supply : Supply) :
    List.Forall₂ (Event.Reports policy sealer)
      ((policy.changedProperties (transition.before record.snapshot)
          (transition.after record.snapshot)).map
        (Change.between (transition.before record.snapshot) (transition.after record.snapshot)))
      (transition.events policy sealer actor now record supply).1 := by
  rw [transition.events_verbose verbose, transition.changes_eq]
  exact changeEvents_reports _ _ _

/-- An event that names a property reports its change. -/
theorem Transition.reports_of_mem (transition : Transition) (verbose : policy.verbose = true)
    {actor : Option String} {now : Instant} {record : Record} {supply : Supply} {e : Event}
    (member : e ∈ (transition.events policy sealer actor now record supply).1) {property : String}
    (named : e.property = some property) :
    Event.Reports policy sealer
      (Change.between (transition.before record.snapshot) (transition.after record.snapshot)
        property) e := by
  obtain ⟨c, listed, reports⟩ :=
    exists_related (transition.events_reports verbose actor now record supply) member
  obtain ⟨other, -, rfl⟩ := List.mem_map.1 listed
  obtain rfl := Option.some.inj (reports.property.symm.trans named)
  exact reports

theorem Transition.events_covers (transition : Transition) (actor : Option String) (now : Instant)
    (record : Record) (supply : Supply) :
    ∀ e ∈ (transition.events policy sealer actor now record supply).1,
      (transition.occasion actor now record).Covers e := by
  unfold events
  simp only
  split
  · exact changeEvents_covers
  · split
    · exact List.forall_mem_nil _
    · exact List.forall_mem_singleton.2 ⟨rfl, rfl, rfl, rfl, rfl⟩

/-- Changes that are not reported one by one are summed up in one event. -/
theorem Transition.events_summary {transition : Transition} (quiet : policy.verbose = false)
    {actor : Option String} {now : Instant} {record : Record} {supply : Supply}
    (some : transition.changes policy record.snapshot ≠ []) :
    ∃ e, (transition.events policy sealer actor now record supply).1 = [e] ∧
      e.property = none ∧ e.oldValue = none ∧ e.newValue = none := by
  have events := @events_quiet policy sealer transition quiet actor now record supply
  rw [if_neg fun none => some none.2] at events
  obtain ⟨e, events, content⟩ := List.map_eq_singleton_iff.1 events
  exact ⟨e, events, congrArg Event.property content, congrArg Event.oldValue content,
    congrArg Event.newValue content⟩

/-- An update that changes nothing is not summed up. -/
theorem Transition.events_silence {previous : Snapshot} (quiet : policy.verbose = false)
    {actor : Option String} {now : Instant} {record : Record} {supply : Supply}
    (none : (update previous).changes policy record.snapshot = []) :
    ((update previous).events policy sealer actor now record supply).1 = [] := by
  have events := @events_quiet policy sealer (update previous) quiet actor now record supply
  rw [if_pos ⟨rfl, none⟩] at events
  exact List.map_eq_nil_iff.1 events

/-- An update has changes exactly if some property changes. -/
theorem Transition.changes_update_ne_nil_iff {previous current : Snapshot} :
    (update previous).changes policy current ≠ [] ↔
      ∃ property, policy.changed previous current property = true := by
  rw [changes_eq, Ne, List.map_eq_nil_iff, ← Ne]
  constructor
  · intro some
    obtain ⟨property, listed⟩ := List.exists_mem_of_ne_nil _ some
    exact ⟨property, Policy.mem_changedProperties_iff.1 listed⟩
  · rintro ⟨property, changed⟩
    exact List.ne_nil_of_mem (Policy.mem_changedProperties_iff.2 changed)

end

/-- **An update reports each property that changes exactly once**: under a verbose policy there is
one event for each of them, first those of the entity in its order, then those that only the
previous snapshot has in its order, with the shown values before and after; under any other policy
there is one summary if some property changes, and none otherwise. All events share the entity, the
kind, the actor and the time. Objects with the same members in another order are no change. -/
theorem Transition.update_reported (policy : Policy) (sealer : Option Sealer)
    (actor : Option String) (now : Instant) (previous : Snapshot) (record : Record)
    (supply : Supply) :
    Reported policy sealer actor now previous record
      ((update previous).events policy sealer actor now record supply).1 where
  differs distinct distinct' := Policy.changed_iff distinct distinct'
  listed _ := Policy.mem_changedProperties_iff
  once := policy.nodup_changedProperties previous record.snapshot
  covered := (update previous).events_covers actor now record supply
  each verbose := (update previous).events_reports verbose actor now record supply
  summary quiet changed := events_summary quiet (changes_update_ne_nil_iff.2 changed)
  silence quiet := by
    intro unchanged
    apply events_silence quiet
    by_contra some
    obtain ⟨property, changed⟩ := changes_update_ne_nil_iff.1 some
    exact Bool.false_ne_true ((unchanged property).symm.trans changed)

end ChangeAudit
