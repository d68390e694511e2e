import ChangeAudit.Proofs.Instant
import ChangeAudit.Proofs.Json.Distinct
import ChangeAudit.Proofs.Transition.Unsealed
import Mathlib.Data.List.Nodup
import Mathlib.Data.List.Perm.Basic
import Mathlib.Data.Option.Basic

/-!
# Inserts, updates and deletes agree

An insert is an update from nothing and a delete one to nothing, sealed values included as long as
both begin at the same nonce. Without sealing, an update back reports what the update there
reported, with old and new exchanged (`Transition.events_exchange`): what changes is read off both
snapshots alone (`mem_updateChanges_iff`), and that says the same of both directions because equality
of values is symmetric.
-/

namespace ChangeAudit

/-- No value of the record has an object with a key twice. -/
def Record.KeysDistinct (r : Record) : Prop := ∀ p ∈ r.snapshot.entries, p.2.KeysDistinct

/-- The event without its id and its kind. -/
def Event.content (e : Event) : Event := { e with id := "", kind := .update }

/-- The event without its id, its old and new value exchanged. -/
def Event.reversed (e : Event) : Event :=
  { e with id := "", oldValue := e.newValue, newValue := e.oldValue }

/-- The change back. -/
def Change.reversed (c : Change) : Change := ⟨c.property, c.new, c.old⟩

/-! ## Updates from and to nothing -/

theorem insertChanges_eq_updateChanges (current : List (String × Json)) :
    insertChanges current = updateChanges [] current := by
  simp only [insertChanges, updateChanges, Entries.get?, Option.getD_none, List.filter_nil,
    List.map_nil, List.append_nil, List.filter_map, Function.comp_def, Json.null_same]

theorem deleteChanges_eq_updateChanges (current : List (String × Json)) :
    deleteChanges current = updateChanges current [] := by
  simp only [deleteChanges, updateChanges, Entries.get?, List.map_nil, List.filter_nil,
    List.nil_append, Option.isNone_none, Bool.true_and]

section Sealing

variable (policy : Policy) (sealer : Option Sealer) {s t : Supply}

/-- What a masked text shows, and how many nonces are left, depends on the nonces alone. -/
theorem maskText_sealings (property plain : String) (same : s.sealings = t.sealings) :
    (maskText sealer property plain s).1 = (maskText sealer property plain t).1 ∧
      (maskText sealer property plain s).2.sealings =
        (maskText sealer property plain t).2.sealings := by
  cases sealer with
  | none => exact ⟨rfl, same⟩
  | some sealWith =>
    simp only [maskText, Supply.nonce, same]
    cases sealWith _ property plain <;> exact ⟨rfl, rfl⟩

theorem showValue_sealings (property : String) (value : Json) (same : s.sealings = t.sealings) :
    (showValue policy sealer property value s).1 = (showValue policy sealer property value t).1 ∧
      (showValue policy sealer property value s).2.sealings =
        (showValue policy sealer property value t).2.sealings := by
  unfold showValue
  cases plainText value with
  | none => exact ⟨rfl, same⟩
  | some plain =>
    by_cases masked : policy.isMasked property = true
    · obtain ⟨shown, left⟩ := maskText_sealings sealer property plain same
      simp only [masked, if_true]
      exact ⟨congrArg some shown, left⟩
    · simp only [masked]
      exact ⟨rfl, same⟩

theorem Occasion.content_event (o : Occasion) (kind : EventKind) (id other : String)
    (property old new : Option String) :
    (o.event id property old new).content =
      ({ o with kind := kind }.event other property old new).content :=
  rfl

/-- The events of changes depend on the kind and on the supply only by their own kind, their ids and
the nonces. -/
theorem changeEvents_content (o : Occasion) (kind : EventKind) (changes : List Change)
    (same : s.sealings = t.sealings) :
    (changeEvents policy sealer o changes s).1.map Event.content =
      (changeEvents policy sealer { o with kind := kind } changes t).1.map Event.content := by
  induction changes generalizing s t with
  | nil => rfl
  | cons c changes ih =>
    obtain ⟨old, afterOld⟩ := showValue_sealings policy sealer c.property c.old same
    obtain ⟨new, afterNew⟩ := showValue_sealings policy sealer c.property c.new afterOld
    rw [changeEvents, changeEvents, List.map_cons, List.map_cons]
    refine congrArg₂ List.cons ?_ (ih afterNew)
    rw [old, new]
    exact o.content_event kind _ _ _ _ _

end Sealing

/-! ## Updates there and back -/

section Back

variable {previous current : List (String × Json)}

/-- What changes is said by the two snapshots: the properties whose values differ. -/
theorem mem_updateChanges_iff (distinct : (Entries.keys previous).Nodup)
    (distinct' : (Entries.keys current).Nodup) {c : Change} :
    c ∈ updateChanges previous current ↔
      c.old = (Entries.get? previous c.property).getD .null ∧
        c.new = (Entries.get? current c.property).getD .null ∧ c.old.same c.new = false := by
  simp only [updateChanges, List.mem_append, List.mem_filter, List.mem_map, Bool.not_eq_true',
    Bool.and_eq_true, Option.isNone_iff_eq_none]
  constructor
  · rintro (⟨⟨⟨name, value⟩, member, rfl⟩, differs⟩ | ⟨⟨name, value⟩, ⟨member, absent, kept⟩, rfl⟩)
    · have found : Entries.get? current name = some value := Entries.get?_of_mem distinct' member
      exact ⟨rfl, by rw [found]; rfl, differs⟩
    · have found : Entries.get? previous name = some value := Entries.get?_of_mem distinct member
      exact ⟨by rw [found]; rfl, by rw [absent]; rfl, (Json.same_null value).trans kept⟩
  · obtain ⟨name, old, new⟩ := c
    rintro ⟨wasOld, isNew, differs⟩
    simp only at wasOld isNew differs
    cases found : Entries.get? current name with
    | some value =>
      rw [found, Option.getD_some] at isNew
      subst isNew
      exact .inl ⟨⟨(name, new), Entries.mem_of_get? found, by rw [wasOld]⟩, differs⟩
    | none =>
      rw [found, Option.getD_none] at isNew
      subst isNew
      rw [Json.same_null] at differs
      cases before : Entries.get? previous name with
      | none =>
        rw [before] at wasOld
        rw [wasOld] at differs
        cases differs
      | some value =>
        rw [before, Option.getD_some] at wasOld
        subst wasOld
        exact .inr ⟨(name, old), ⟨Entries.mem_of_get? before, found, differs⟩, rfl⟩

/-- No property changes twice. -/
theorem nodup_updateChanges (distinct : (Entries.keys previous).Nodup)
    (distinct' : (Entries.keys current).Nodup) :
    ((updateChanges previous current).map Change.property).Nodup := by
  rw [updateChanges, List.map_append, List.nodup_append]
  refine ⟨?_, ?_, ?_⟩
  · have kept := (List.filter_sublist.map Change.property : List.Sublist
      (((current.map fun p => Change.mk p.1 ((Entries.get? previous p.1).getD .null) p.2).filter
        fun c => !c.old.same c.new).map Change.property) _)
    rw [List.map_map] at kept
    exact List.Nodup.sublist kept distinct'
  · rw [List.map_map]
    exact distinct.sublist (List.filter_sublist.map Prod.fst)
  -- what is gone is not in the current snapshot, what is kept is
  · intro name inKept other inGone same
    obtain ⟨c, listed, rfl⟩ := List.mem_map.1 inKept
    obtain ⟨p, member, rfl⟩ := List.mem_map.1 (List.mem_filter.1 listed).1
    obtain ⟨d, listed', rfl⟩ := List.mem_map.1 inGone
    obtain ⟨q, gone, rfl⟩ := List.mem_map.1 listed'
    have absent := (List.mem_filter.1 gone).2
    simp only [Bool.and_eq_true, Option.isNone_iff_eq_none] at absent
    have known : Entries.get? current p.1 = some p.2 := Entries.get?_of_mem distinct' member
    simp only at same
    rw [same, absent.1] at known
    cases known

/-- The changes back are the changes there, reversed. -/
theorem updateChanges_reversed (distinct : (Entries.keys previous).Nodup)
    (distinct' : (Entries.keys current).Nodup) (old : ∀ p ∈ previous, p.2.KeysDistinct)
    (new : ∀ p ∈ current, p.2.KeysDistinct) :
    ((updateChanges previous current).map Change.reversed).Perm
      (updateChanges current previous) := by
  have value {entries : List (String × Json)} (each : ∀ p ∈ entries, p.2.KeysDistinct)
      (name : String) : ((Entries.get? entries name).getD .null).KeysDistinct := by
    cases found : Entries.get? entries name with
    | none => exact .null
    | some v => exact each _ (Entries.mem_of_get? found)
  have back : ((updateChanges previous current).map Change.reversed).Nodup := by
    apply List.Nodup.of_map Change.property
    rw [List.map_map]
    exact nodup_updateChanges distinct distinct'
  rw [List.perm_ext_iff_of_nodup back (.of_map _ (nodup_updateChanges distinct' distinct))]
  intro c
  rw [mem_updateChanges_iff distinct' distinct]
  have same : c.new.same c.old = false ∧ c.new = (Entries.get? previous c.property).getD .null ∧
      c.old = (Entries.get? current c.property).getD .null ↔ c.old.same c.new = false ∧
        c.new = (Entries.get? previous c.property).getD .null ∧
        c.old = (Entries.get? current c.property).getD .null := by
    apply and_congr_left
    rintro ⟨isNew, isOld⟩
    rw [isNew, isOld, (value old c.property).same_comm (value new c.property)]
  constructor
  · intro member
    obtain ⟨d, listed, rfl⟩ := List.mem_map.1 member
    obtain ⟨wasOld, isNew, differs⟩ := (mem_updateChanges_iff distinct distinct').1 listed
    have swapped := same.1 ⟨differs, wasOld, isNew⟩
    exact ⟨isNew, wasOld, swapped.1⟩
  · rintro ⟨isOld, isNew, differs⟩
    refine List.mem_map.2 ⟨c.reversed, (mem_updateChanges_iff distinct distinct').2 ?_, rfl⟩
    have swapped := same.2 ⟨differs, isNew, isOld⟩
    exact ⟨isNew, isOld, swapped.1⟩

end Back

/-- Two lists of events that report the same properties, each once, with old and new exchanged. -/
structure Exchanged (there back : List Event) : Prop where
  named : ∀ e ∈ there ++ back, e.property.isSome = true
  once : (there.map Event.property).Nodup
  onceBack : (back.map Event.property).Nodup
  reversed : (there.map Event.reversed).Perm (back.map Event.withoutId)

section

variable {policy : Policy}

theorem Policy.nodup_watched (policy : Policy) (m : Snapshot) :
    (Entries.keys (policy.watched m.entries)).Nodup :=
  List.Nodup.sublist (List.filter_sublist.map Prod.fst) m.nodup

theorem Policy.watched_keysDistinct (policy : Policy) {r : Record} (distinct : r.KeysDistinct) :
    ∀ p ∈ policy.watched r.snapshot.entries, p.2.KeysDistinct := by
  intro p member
  exact distinct p (List.mem_filter.1 member).1

/-- What is reported of changes names each of them. -/
theorem property_changeEvents (sealer : Option Sealer) (o : Occasion) (changes : List Change)
    (supply : Supply) :
    (changeEvents policy sealer o changes supply).1.map Event.property =
      (changes.map Change.property).map some := by
  induction changes generalizing supply with
  | nil => rfl
  | cons c changes ih =>
    rw [changeEvents, List.map_cons, ih]
    rfl

theorem Transition.property_events (transition : Transition) (verbose : policy.verbose = true)
    (sealer : Option Sealer) (actor : Option String) (now : Instant) (r : Record)
    (supply : Supply) :
    (transition.events policy sealer actor now r supply).1.map Event.property =
      ((transition.changes policy r.snapshot).map Change.property).map some := by
  rw [transition.events_verbose verbose, property_changeEvents]

/-- Every event of a verbose policy names a property. -/
theorem Transition.isSome_property (transition : Transition) (verbose : policy.verbose = true)
    {actor : Option String} {now : Instant} {r : Record} {supply : Supply} {e : Event}
    (member : e ∈ (transition.events policy none actor now r supply).1) :
    e.property.isSome = true := by
  have listed := List.mem_map_of_mem (f := Event.property) member
  rw [transition.property_events verbose] at listed
  obtain ⟨name, -, isNamed⟩ := List.mem_map.1 listed
  rw [← isNamed]
  rfl

/-- An update names no property twice. -/
theorem Transition.nodup_property_update (verbose : policy.verbose = true) (actor : Option String)
    (now : Instant) (old : Snapshot) (r : Record) (supply : Supply) :
    (((update old).events policy none actor now r supply).1.map Event.property).Nodup := by
  rw [property_events _ verbose]
  apply List.Nodup.map (Option.some_injective String)
  exact nodup_updateChanges (policy.nodup_watched old) (policy.nodup_watched r.snapshot)

theorem Transition.updates_exchanged (verbose : policy.verbose = true) (actor : Option String)
    (now : Instant) {a b : Record} (sameType : a.entityType = b.entityType) (sameId : a.id = b.id)
    (distinct : a.KeysDistinct) (distinct' : b.KeysDistinct) (s t : Supply) :
    Exchanged ((update a.snapshot).events policy none actor now b s).1
      ((update b.snapshot).events policy none actor now a t).1 where
  named := by
    intro e member
    rcases List.mem_append.1 member with there | back
    · exact isSome_property _ verbose there
    · exact isSome_property _ verbose back
  once := nodup_property_update verbose actor now a.snapshot b s
  onceBack := nodup_property_update verbose actor now b.snapshot a t
  reversed := by
    have changes := updateChanges_reversed (policy.nodup_watched a.snapshot)
      (policy.nodup_watched b.snapshot) (policy.watched_keysDistinct distinct)
      (policy.watched_keysDistinct distinct')
    have occasion : (update a.snapshot).occasion actor now b =
        (update b.snapshot).occasion actor now a := by
      rw [occasion, occasion, sameType, sameId]
      rfl
    have there := (update a.snapshot).events_unsealed unsealed_none verbose actor now b s
    have back := (update b.snapshot).events_unsealed unsealed_none verbose actor now a t
    have reversed : ((update a.snapshot).events policy none actor now b s).1.map Event.reversed =
        (((update a.snapshot).events policy none actor now b s).1.map Event.withoutId).map
          Event.reversed := by
      rw [List.map_map]
      rfl
    rw [reversed, there, back, occasion, List.map_map]
    have both := changes.map (((update b.snapshot).occasion actor now a).changeEvent policy)
    rw [List.map_map] at both
    exact both

/-- **Inserts, updates and deletes agree** under a verbose policy, at one instant and for one actor:
an insert reports what an update from nothing does, and a delete what an update to nothing does,
apart from ids and kinds, from the same nonce on; and updates there and back between two records
report the same properties, each once, with old and new exchanged, if nothing is sealed. -/
theorem Transition.events_exchange (verbose : policy.verbose = true) (actor : Option String)
    (now : Instant) :
    (∀ (sealer : Option Sealer) (e : Record) (s t : Supply), s.sealings = t.sealings →
      (insert.events policy sealer actor now e s).1.map Event.content =
        ((update .empty).events policy sealer actor now e t).1.map Event.content) ∧
    (∀ (sealer : Option Sealer) (e : Record) (s t : Supply), s.sealings = t.sealings →
      (delete.events policy sealer actor now e s).1.map Event.content =
        ((update e.snapshot).events policy sealer actor now (.new e.entityType e.id) t).1.map
          Event.content) ∧
    (∀ (a b : Record) (s t : Supply), a.entityType = b.entityType → a.id = b.id →
      a.KeysDistinct → b.KeysDistinct →
      Exchanged ((update a.snapshot).events policy none actor now b s).1
        ((update b.snapshot).events policy none actor now a t).1) := by
  refine ⟨?_, ?_, ?_⟩
  · intro sealer e s t same
    rw [events_verbose _ verbose, events_verbose _ verbose]
    simp only [changes, insertChanges_eq_updateChanges]
    exact changeEvents_content _ _ _ .update _ same
  · intro sealer e s t same
    rw [events_verbose _ verbose, events_verbose _ verbose]
    simp only [changes, deleteChanges_eq_updateChanges]
    exact changeEvents_content _ _ _ .update _ same
  · intro a b s t sameType sameId distinct distinct'
    exact updates_exchanged verbose actor now sameType sameId distinct distinct' s t

end

/-- An order with a note, and the same order with a password in its place. -/
theorem Transition.events_exchange_order : ∃ (policy : Policy) (a b : Record),
    policy.verbose = true ∧ a.entityType = b.entityType ∧ a.id = b.id ∧ a.KeysDistinct ∧
      b.KeysDistinct ∧
      (insert.events policy (some fun _ _ plain => .ok plain) none .epoch b .fresh).1.map
          Event.content =
        ((update .empty).events policy (some fun _ _ plain => .ok plain) none .epoch b .fresh).1.map
          Event.content ∧
      (delete.events policy (some fun _ _ plain => .ok plain) none .epoch b .fresh).1.map
          Event.content =
        ((update b.snapshot).events policy (some fun _ _ plain => .ok plain) none .epoch
          (.new b.entityType b.id) .fresh).1.map Event.content ∧
      Exchanged ((update a.snapshot).events policy none none .epoch b .fresh).1
        ((update b.snapshot).events policy none none .epoch a .fresh).1 ∧
      ((update a.snapshot).events policy none none .epoch b .fresh).1.map Event.property =
        [some "password", some "note"] ∧
      ((update b.snapshot).events policy none none .epoch a .fresh).1.map Event.property =
        [some "note", some "password"] := by
  let a := ((Record.new "Order" "1").set "total" (.nat 3)).set "note" (.string "urgent")
  let b := ((Record.new "Order" "1").set "total" (.nat 3)).set "password" (.string "sesame")
  have distinct : a.KeysDistinct := by
    intro p member
    rcases List.mem_cons.1 member with rfl | member
    · exact .number _
    rcases List.mem_cons.1 member with rfl | member
    · exact .string _
    · cases member
  have distinct' : b.KeysDistinct := by
    intro p member
    rcases List.mem_cons.1 member with rfl | member
    · exact .number _
    rcases List.mem_cons.1 member with rfl | member
    · exact .string _
    · cases member
  let policy : Policy := { Policy.standard with verbose := true }
  have verbose : policy.verbose = true := rfl
  obtain ⟨inserts, deletes, updates⟩ := Transition.events_exchange verbose none .epoch
  refine ⟨policy, a, b, verbose, rfl, rfl, distinct, distinct', inserts _ b _ _ rfl,
    deletes _ b _ _ rfl, updates a b _ _ rfl rfl distinct distinct', ?_, ?_⟩
  · rw [Transition.property_events _ verbose]
    rfl
  · rw [Transition.property_events _ verbose]
    rfl

end ChangeAudit
