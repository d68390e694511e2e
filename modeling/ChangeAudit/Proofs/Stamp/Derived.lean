import ChangeAudit.Proofs.Stamp.Build

/-!
# What a plan derives

Whatever is derived from a plan that was built (names, accessors, constraints, column types, markers,
the question whether a property is a stamp field) says the same of the same roles: those that are
merged and not excluded, in their order (`StampPlan.build_derives`). A marker stands under the name
of its role, so there is one for each role only if the roles have different names. Roles that are
read from names do; of a custom role that was given the name of a standard one by hand the marker
replaces the other one's (`StampPlan.get?_markers`).
-/

namespace ChangeAudit

/-- The role is one that a name is read as. -/
def StampRole.IsRead (role : StampRole) : Prop := ∃ name, ofName name = role

/-- A role that is read from a name is known by its name. -/
theorem StampRole.IsRead.eq_of_name {role other : StampRole} (read : role.IsRead)
    (read' : other.IsRead) (same : role.name = other.name) : role = other := by
  obtain ⟨name, rfl⟩ := read
  obtain ⟨name', rfl⟩ := read'
  rw [name_ofName, name_ofName] at same
  rw [same]

namespace StampPlan

/-- What is derived from a plan, in terms of the roles that are merged and of those that are kept. -/
structure Derives (defaults : RoleSpecs) (overrides : OrderedMap StampRole FieldOverride)
    (plan : StampPlan) : Prop where
  fieldNames : plan.fieldNames = names (keptRoles defaults overrides.entries)
  accessors : plan.accessors.map Accessor.field = names (keptRoles defaults overrides.entries)
  rules : plan.rules.map FieldRule.field = names (keptRoles defaults overrides.entries)
  columns : plan.columns.map (fun c => (c.field, some c.sqlType)) =
    ((keptRoles defaults overrides.entries).filter fun e => e.2.sqlType.isSome).map
      fun e => (e.2.name, e.2.sqlType)
  isStampField : ∀ name, plan.isStampField name = true ↔
    ∃ e ∈ keptRoles defaults overrides.entries, e.2.name = name
  kept : ∀ e ∈ keptRoles defaults overrides.entries, plan.field? e.1 = some e.2
  excluded : ∀ e ∈ mergedRoles defaults overrides.entries, e.2.excluded = true →
    plan.field? e.1 = none
  markerNames : plan.markers.keys =
    ((keptRoles defaults overrides.entries).map fun e => e.1.name).eraseDups
  marked : ∀ name, plan.markers.get? name = Entries.get?
    ((keptRoles defaults overrides.entries).map fun e => (e.1.name, e.2.name)).reverse name
  markers : (∀ role ∈ overrides.keys, role.IsRead) →
    plan.markers.entries = (keptRoles defaults overrides.entries).map fun e => (e.1.name, e.2.name)
  unmarked : (∀ role ∈ overrides.keys, role.IsRead) →
    ∀ e ∈ mergedRoles defaults overrides.entries, e.2.excluded = true →
      plan.markers.get? e.1.name = none

variable {defaults : RoleSpecs} {overrides : OrderedMap StampRole FieldOverride} {plan : StampPlan}

/-! ## Merged roles -/

theorem nodup_keys_mergedRoles (known : unknown? defaults overrides.entries = none) :
    (Entries.keys (mergedRoles defaults overrides.entries)).Nodup := by
  rcases mergeRoles_cases defaults overrides.nodup with ⟨role, unknown, -⟩ | ⟨-, merged, -, same⟩
  · rw [known] at unknown
    nomatch unknown
  · rw [← same]
    exact merged.nodup

/-- A merged role has a default or an override. -/
theorem mem_keys_of_mem_mergedRoles {overrides : Overrides} {e : StampRole × FieldSpec}
    (member : e ∈ mergedRoles defaults overrides) :
    e.1 ∈ defaults.keys ∨ e.1 ∈ Entries.keys overrides := by
  rw [mergedRoles, List.mem_append, List.mem_map, List.mem_filterMap] at member
  rcases member with ⟨entry, listed, rfl⟩ | ⟨o, listed, added⟩
  · exact .inl (List.mem_map.2 ⟨entry, listed, rfl⟩)
  · unfold added? at added
    split at added
    · cases added
    · obtain ⟨kind, -, rfl⟩ := Option.map_eq_some_iff.1 added
      exact .inr (List.mem_map.2 ⟨o, listed, rfl⟩)

/-- A role that is excluded where it is merged is not kept. -/
theorem not_mem_keys_keptRoles (known : unknown? defaults overrides.entries = none)
    {e : StampRole × FieldSpec} (member : e ∈ mergedRoles defaults overrides.entries)
    (excluded : e.2.excluded = true) :
    e.1 ∉ Entries.keys (keptRoles defaults overrides.entries) := by
  intro kept
  obtain ⟨k, listed, same⟩ := List.mem_map.1 kept
  obtain ⟨merged, included⟩ := List.mem_filter.1 listed
  -- a role is merged once, so the kept one would be the excluded one
  obtain rfl := List.inj_on_of_nodup_map (nodup_keys_mergedRoles known) merged member same
  rw [excluded] at included
  nomatch included

/-! ## Derived from the fields -/

theorem accessors_field (plan : StampPlan) :
    plan.accessors.map Accessor.field = plan.fieldNames := by
  rw [StampPlan.accessors, List.map_map]
  rfl

theorem rules_field (plan : StampPlan) : plan.rules.map FieldRule.field = plan.fieldNames := by
  rw [StampPlan.rules, List.map_map]
  rfl

/-- The column types are those of the fields that have one. -/
theorem columns_eq (plan : StampPlan) :
    plan.columns.map (fun c => (c.field, some c.sqlType)) =
      (plan.specs.filter fun s => s.sqlType.isSome).map fun s => (s.name, s.sqlType) := by
  rw [columns]
  induction plan.specs with
  | nil => rfl
  | cons s specs ih =>
    cases typed : s.sqlType with
    | none => simpa [typed] using ih
    | some t => simpa [typed] using ih

theorem isStampField_iff {name : String} :
    plan.isStampField name = true ↔ name ∈ plan.fieldNames := by
  simp [isStampField, fieldNames]

/-- There is a marker for each name of a role, where it stands first. -/
theorem keys_markers (plan : StampPlan) :
    plan.markers.keys = (plan.fields.entries.map fun e => e.1.name).eraseDups := by
  have named : Entries.keys (plan.fields.entries.map fun e => (e.1.name, e.2.name)) =
      plan.fields.entries.map fun e => e.1.name := by
    rw [Entries.keys, List.map_map]
    rfl
  rw [← named]
  exact Entries.keys_insertAll_eraseDups OrderedMap.empty.nodup _

/-- Of the roles that have one name the last one is marked. -/
theorem get?_markers (plan : StampPlan) (name : String) :
    plan.markers.get? name =
      Entries.get? (plan.fields.entries.map fun e => (e.1.name, e.2.name)).reverse name :=
  (Entries.get?_insertAll_reverse [] _ name).trans Option.or_none

/-- If the kept roles have different names, each has a marker of its own. -/
theorem markers_entries (distinct : (plan.fields.keys.map StampRole.name).Nodup) :
    plan.markers.entries = plan.fields.entries.map fun e => (e.1.name, e.2.name) := by
  apply Entries.insertAll_nil
  rw [Entries.keys, List.map_map]
  rw [OrderedMap.keys, Entries.keys, List.map_map] at distinct
  exact distinct

section Read

variable (read : ∀ role ∈ defaults.keys, role.IsRead) (read' : ∀ role ∈ overrides.keys, role.IsRead)

include read read'

theorem isRead_of_mem_mergedRoles {e : StampRole × FieldSpec}
    (member : e ∈ mergedRoles defaults overrides.entries) : e.1.IsRead := by
  rcases mem_keys_of_mem_mergedRoles member with default | override
  · exact read e.1 default
  · exact read' e.1 override

/-- Merged roles that are read from names are told apart by their names. -/
theorem role_eq_of_name {e e' : StampRole × FieldSpec}
    (member : e ∈ mergedRoles defaults overrides.entries)
    (member' : e' ∈ mergedRoles defaults overrides.entries) (same : e.1.name = e'.1.name) :
    e.1 = e'.1 :=
  (isRead_of_mem_mergedRoles read read' member).eq_of_name
    (isRead_of_mem_mergedRoles read read' member') same

theorem markers_of_isRead (entries : plan.fields.entries = keptRoles defaults overrides.entries) :
    plan.markers.entries =
      (keptRoles defaults overrides.entries).map fun e => (e.1.name, e.2.name) := by
  have apart : (plan.fields.keys.map StampRole.name).Nodup := by
    apply List.Nodup.map_on _ plan.fields.nodup
    intro role left other right same
    rw [Entries.keys, entries] at left right
    obtain ⟨e, listed, rfl⟩ := List.mem_map.1 left
    obtain ⟨e', listed', rfl⟩ := List.mem_map.1 right
    exact role_eq_of_name read read' (List.mem_filter.1 listed).1 (List.mem_filter.1 listed').1 same
  rw [markers_entries apart, entries]

end Read

/-- **What is derived from a plan agrees with the roles that it keeps**: names, accessors and
constraints are those of the kept fields in their order, column types those of the fields that have
one, and the names of stamp fields are exactly those of the kept fields. Each kept role has its field
and an excluded one has none, also where the field of another role took over its name. There is one
marker for each name of a kept role, in the order of their first roles, with the field of the last
role of that name. So if overrides are given only to roles that are read from names, each kept role
has its own marker, and an excluded one has none. -/
theorem build_derives (read : ∀ role ∈ defaults.keys, role.IsRead)
    (built : build defaults overrides = .ok plan) : Derives defaults overrides plan := by
  obtain ⟨known, -, entries⟩ := build_eq_ok_iff.1 built
  have fieldNames : plan.fieldNames = names (keptRoles defaults overrides.entries) := by
    rw [StampPlan.fieldNames, specs, OrderedMap.values, List.map_map, entries]
    rfl
  constructor
  · exact fieldNames
  · exact (accessors_field plan).trans fieldNames
  · exact (rules_field plan).trans fieldNames
  · rw [columns_eq, specs, OrderedMap.values, entries, List.filter_map, List.map_map]
    rfl
  · intro name
    rw [isStampField_iff, fieldNames, names, List.mem_map]
  · intro e listed
    apply Entries.get?_of_mem plan.fields.nodup
    rw [entries]
    exact listed
  · intro e member excluded
    rw [field?, OrderedMap.get?, Entries.get?_eq_none_iff, entries]
    exact not_mem_keys_keptRoles known member excluded
  · rw [keys_markers, entries]
  · intro name
    rw [get?_markers, entries]
  · exact fun read' => markers_of_isRead read read' entries
  · intro read' e member excluded
    rw [OrderedMap.get?, Entries.get?_eq_none_iff, markers_of_isRead read read' entries,
      Entries.keys, List.map_map]
    intro taken
    obtain ⟨k, listed, same⟩ := List.mem_map.1 taken
    have role : k.1 = e.1 := role_eq_of_name read read' (List.mem_filter.1 listed).1 member same
    apply not_mem_keys_keptRoles known member excluded
    rw [← role]
    exact List.mem_map_of_mem listed

/-- The author is excluded, and the last editor's field gets the author's name. -/
def reusedOverrides : OrderedMap StampRole FieldOverride :=
  .ofList [(.createdBy, .exclude), (.lastUpdatedBy, .rename "createdBy"),
    (.custom "removed", { kind := some .flag, sqlType := some "boolean" })]

/-- A name that is given to another role leads to that role's field, and to no marker of the role
that had it. -/
theorem build_derives_reused : ∃ plan,
    (∀ role ∈ standardRoles.keys, role.IsRead) ∧ build standardRoles reusedOverrides = .ok plan ∧
      Derives standardRoles reusedOverrides plan ∧ plan.isStampField "createdBy" = true ∧
      plan.field? .createdBy = none ∧
      plan.markers.entries = [("dateCreated", "dateCreated"), ("lastUpdated", "lastUpdated"),
        ("lastUpdatedBy", "createdBy"), ("removed", "removed")] := by
  have named : ∀ role ∈ standardRoles.keys, StampRole.ofName role.name = role := by decide
  have read : ∀ role ∈ standardRoles.keys, role.IsRead := fun role listed =>
    ⟨role.name, named role listed⟩
  exact ⟨_, read, rfl, build_derives read rfl, rfl, rfl, rfl⟩

/-- A custom role that was given the name of a standard one by hand shares its marker: of five kept
roles four are marked, and an excluded role has the marker of the other one. -/
theorem markers_collide : ∃ plan excluding,
    let author : FieldOverride := { name := some "flagged", kind := some .flag }
    let added : OrderedMap StampRole FieldOverride := .ofList [(.custom "createdBy", author)]
    let replaced : OrderedMap StampRole FieldOverride :=
      .ofList [(.createdBy, .exclude), (.custom "createdBy", author)]
    (∀ role ∈ standardRoles.keys, role.IsRead) ∧
      (build standardRoles added = .ok plan ∧
        (keptRoles standardRoles added.entries).map (fun e => (e.1, e.2.name)) =
          [(.dateCreated, "dateCreated"), (.lastUpdated, "lastUpdated"), (.createdBy, "createdBy"),
            (.lastUpdatedBy, "lastUpdatedBy"), (.custom "createdBy", "flagged")] ∧
        plan.markers.entries = [("dateCreated", "dateCreated"), ("lastUpdated", "lastUpdated"),
          ("createdBy", "flagged"), ("lastUpdatedBy", "lastUpdatedBy")]) ∧
      (build standardRoles replaced = .ok excluding ∧ excluding.field? .createdBy = none ∧
        excluding.markers.get? StampRole.createdBy.name = some "flagged") := by
  have named : ∀ role ∈ standardRoles.keys, StampRole.ofName role.name = role := by decide
  exact ⟨_, _, fun role listed => ⟨role.name, named role listed⟩, ⟨rfl, rfl, rfl⟩, rfl, rfl, rfl⟩

end StampPlan

end ChangeAudit
