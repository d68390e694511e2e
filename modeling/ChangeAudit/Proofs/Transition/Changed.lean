import ChangeAudit.Proofs.Json.Equal
import ChangeAudit.Proofs.Transition.Exchange
import ChangeAudit.Proofs.Transition.Masking

/-!
# What a transition changes

A transition leads from one snapshot to another, an insert from nothing and a delete to nothing. A
property changes if it is not ignored and its values in the two snapshots differ, where null stands
for no value (`Policy.changed_iff`). The changes of a transition are those of the properties that
change, each once: first the properties of the snapshot after it, in its order, then those that only
the snapshot before it has (`Transition.changes_eq`). Ignored properties play no part, but looking a
property up among those that are not ignored finds what the whole snapshot has for it.
-/

namespace ChangeAudit

/-- What a property changes from and to between two snapshots; null stands for no value. -/
def Change.between (previous current : Snapshot) (property : String) : Change :=
  ⟨property, (previous.get? property).getD .null, (current.get? property).getD .null⟩

namespace Policy

/-- Whether a property that is not ignored changes from one snapshot to another. -/
def changed (policy : Policy) (previous current : Snapshot) (property : String) : Bool :=
  !policy.isIgnored property && changedBetween previous current property

/-- The properties that change: those of the current snapshot in its order, then those that only the
previous one has, in its order. -/
def changedProperties (policy : Policy) (previous current : Snapshot) : List String :=
  current.keys.filter (policy.changed previous current) ++
    (previous.keys.filter fun property => !current.contains property).filter
      (policy.changed previous current)

end Policy

/-- The snapshot from which a transition of a record leads. -/
def Transition.before (record : Snapshot) : Transition → Snapshot
  | .insert => .empty
  | .update previous => previous
  | .delete => record

/-- The snapshot to which a transition of a record leads. -/
def Transition.after (record : Snapshot) : Transition → Snapshot
  | .insert | .update _ => record
  | .delete => .empty

variable {policy : Policy} {previous current : Snapshot} {property : String}

theorem changedBetween_of_missing (before : previous.get? property = none)
    (after : current.get? property = none) : changedBetween previous current property = false := by
  rw [changedBetween, before, after]
  rfl

/-- What a snapshot has for a property is as well formed as its values. -/
theorem keysDistinct_getD {snapshot : Snapshot}
    (distinct : ∀ e ∈ snapshot.entries, e.2.KeysDistinct) (property : String) :
    ((snapshot.get? property).getD .null).KeysDistinct := by
  cases found : snapshot.get? property with
  | none => exact .null
  | some value => exact distinct _ (Entries.mem_of_get? found)

namespace Policy

/-- A property changes if it is not ignored and its values are not equal. -/
theorem changed_iff (distinct : ∀ e ∈ previous.entries, e.2.KeysDistinct)
    (distinct' : ∀ e ∈ current.entries, e.2.KeysDistinct) (property : String) :
    policy.changed previous current property = true ↔
      policy.isIgnored property = false ∧
        ¬ Json.Equal ((previous.get? property).getD .null)
          ((current.get? property).getD .null) := by
  have equal := (keysDistinct_getD distinct property).same_iff_equal
    (keysDistinct_getD distinct' property)
  rw [changed, changedBetween, ← equal, Bool.and_eq_true, Bool.not_eq_true', Bool.not_eq_true',
    Bool.not_eq_true]

theorem mem_changedProperties_iff :
    property ∈ policy.changedProperties previous current ↔
      policy.changed previous current property = true := by
  simp only [changedProperties, List.mem_append, List.mem_filter, Bool.not_eq_true']
  constructor
  · rintro (⟨-, changed⟩ | ⟨-, changed⟩) <;> exact changed
  · intro changed
    cases after : current.contains property with
    | true => exact .inl ⟨OrderedMap.contains_iff_mem_keys.1 after, changed⟩
    | false =>
      refine .inr ⟨⟨?_, rfl⟩, changed⟩
      by_contra absent
      -- in neither snapshot, it is null in both
      have missing : previous.get? property = none := Entries.get?_eq_none_of_not_mem absent
      have missing' : current.get? property = none := by
        simpa [OrderedMap.contains] using after
      rw [Policy.changed, changedBetween_of_missing missing missing', Bool.and_false] at changed
      nomatch changed

theorem nodup_changedProperties (policy : Policy) (previous current : Snapshot) :
    (policy.changedProperties previous current).Nodup := by
  rw [changedProperties, List.nodup_append]
  refine ⟨current.nodup.filter _, (previous.nodup.filter _).filter _, ?_⟩
  rintro property inCurrent _ inPrevious rfl
  have known := OrderedMap.contains_iff_mem_keys.2 (List.mem_filter.1 inCurrent).1
  have unknown := (List.mem_filter.1 (List.mem_filter.1 inPrevious).1).2
  rw [known] at unknown
  nomatch unknown

end Policy

/-! ## The changes of an update -/

section Update

variable {value : Json}

theorem Change.between_of_kept (listed : (property, value) ∈ current.entries) :
    between previous current property = ⟨property, (previous.get? property).getD .null, value⟩ := by
  have found : current.get? property = some value := Entries.get?_of_mem current.nodup listed
  rw [between, found, Option.getD_some]

theorem Change.between_of_gone (listed : (property, value) ∈ previous.entries)
    (gone : current.get? property = none) :
    between previous current property = ⟨property, value, .null⟩ := by
  have found : previous.get? property = some value := Entries.get?_of_mem previous.nodup listed
  rw [between, found, gone, Option.getD_some, Option.getD_none]

/-- A property that is gone changes unless it was null. -/
theorem changedBetween_of_gone (listed : (property, value) ∈ previous.entries)
    (gone : current.get? property = none) :
    changedBetween previous current property = !value.isNull := by
  have change := congrArg (fun c => !c.old.same c.new) (Change.between_of_gone listed gone)
  rw [← Json.same_null]
  exact change

variable (policy) (previous) (current)

/-- The changes of the properties that the current snapshot has. -/
theorem kept_watched :
    (((policy.watched current.entries).map fun p =>
        Change.mk p.1 ((Entries.get? (policy.watched previous.entries) p.1).getD .null) p.2).filter
      fun c => !c.old.same c.new) =
      (current.keys.filter (policy.changed previous current)).map
        (Change.between previous current) := by
  have between : ((policy.watched current.entries).map fun p =>
      Change.mk p.1 ((Entries.get? (policy.watched previous.entries) p.1).getD .null) p.2) =
        (policy.watched current.entries).map fun p => Change.between previous current p.1 := by
    apply List.map_congr_left
    rintro ⟨property, value⟩ member
    obtain ⟨listed, watched⟩ := List.mem_filter.1 member
    rw [Policy.get?_watched _ (by simpa using watched)]
    exact (Change.between_of_kept listed).symm
  rw [between, Policy.watched, List.filter_map, List.filter_filter, OrderedMap.keys, Entries.keys,
    List.filter_map, List.map_map]
  congr 2
  funext p
  exact Bool.and_comm _ _

/-- The changes of the properties that only the previous snapshot has. -/
theorem gone_watched :
    (((policy.watched previous.entries).filter fun p =>
        (Entries.get? (policy.watched current.entries) p.1).isNone && !p.2.isNull).map
      fun p => Change.mk p.1 p.2 .null) =
      ((previous.keys.filter fun property => !current.contains property).filter
        (policy.changed previous current)).map (Change.between previous current) := by
  have kept : ((policy.watched previous.entries).filter fun p =>
      (Entries.get? (policy.watched current.entries) p.1).isNone && !p.2.isNull) =
        previous.entries.filter fun p =>
          policy.changed previous current p.1 && !current.contains p.1 := by
    change (previous.entries.filter fun p => !policy.isIgnored p.1).filter _ = _
    rw [List.filter_filter]
    apply List.filter_congr
    rintro ⟨property, value⟩ listed
    rw [Policy.changed]
    cases ignored : policy.isIgnored property with
    | true => simp
    | false =>
      rw [Policy.get?_watched _ ignored, ← OrderedMap.get?, OrderedMap.contains]
      cases gone : current.get? property with
      | some now => simp
      | none => simp [changedBetween_of_gone listed gone]
  rw [kept, List.filter_filter, OrderedMap.keys, Entries.keys, List.filter_map, List.map_map]
  apply List.map_congr_left
  rintro ⟨property, value⟩ member
  obtain ⟨listed, test⟩ := List.mem_filter.1 member
  have gone : current.get? property = none := by
    simpa [OrderedMap.contains] using (Bool.and_eq_true_iff.1 test).2
  exact (Change.between_of_gone listed gone).symm

theorem updateChanges_watched :
    updateChanges (policy.watched previous.entries) (policy.watched current.entries) =
      (policy.changedProperties previous current).map (Change.between previous current) := by
  rw [updateChanges, kept_watched, gone_watched, Policy.changedProperties, List.map_append]

end Update

/-- The changes of a transition are those of the properties that change from the snapshot before it
to the one after it. -/
theorem Transition.changes_eq (policy : Policy) (record : Snapshot) (transition : Transition) :
    transition.changes policy record =
      (policy.changedProperties (transition.before record) (transition.after record)).map
        (Change.between (transition.before record) (transition.after record)) := by
  cases transition with
  | insert =>
    rw [changes, insertChanges_eq_updateChanges]
    exact updateChanges_watched policy .empty record
  | update previous => exact updateChanges_watched policy previous record
  | delete =>
    rw [changes, deleteChanges_eq_updateChanges]
    exact updateChanges_watched policy record .empty

theorem Transition.property_changes (policy : Policy) (record : Snapshot)
    (transition : Transition) :
    (transition.changes policy record).map Change.property =
      policy.changedProperties (transition.before record) (transition.after record) := by
  rw [transition.changes_eq, List.map_map]
  exact List.map_id _

/-- The address did not change, and a note of null is none. -/
example : Policy.standard.changedProperties
    (.ofList [("coupon", .string "free"), ("note", .null), ("status", .string "new"),
      ("address", .object [("city", .string "Bern"), ("street", .null)]), ("version", .nat 1)])
    (.ofList [("total", .nat 5), ("address", .object [("street", .null), ("city", .string "Bern")]),
      ("status", .string "paid"), ("version", .nat 2)]) = ["total", "status", "coupon"] := by
  decide

end ChangeAudit
