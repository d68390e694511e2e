import ChangeAudit.Proofs.Stamping.Effect

/-!
# What an insert leaves unset

An insert that succeeds sets every required field of the standard roles: it writes the times, and it
has demanded the actors. It sets the flags too, so what a plan misses in the record afterwards is
left to the host: the first required field of a role that the host defined, which is no flag and was
unset before (`StampPlan.missing?_of_stampAt`).
-/

namespace ChangeAudit.StampPlan

open Entries (keys)

/-- The role is one that the host defined, with a required field that is no flag and is unset. -/
def isLeftToHost (record : Record) (entry : StampRole × FieldSpec) : Bool :=
  !entry.1.isStandard && !entry.2.nullable && entry.2.kind ≠ .flag &&
    (record.stamp? entry.2.name).isNone

section Insert

variable {plan : StampPlan} {phase : StampPhase} {actor : Option String} {now : Instant}
  {record after : Record} {role : StampRole} {spec : FieldSpec}

theorem mem_keys_roleWrites {roles : List StampRole} (listed : role ∈ roles)
    (found : plan.field? role = some spec) (value : StampValue) :
    spec.name ∈ keys (plan.roleWrites value roles) := by
  rw [keys_roleWrites]
  exact List.mem_filterMap.2 ⟨role, listed, by rw [fieldName?, found]; rfl⟩

theorem mem_keys_writes {field : String} :
    field ∈ keys (plan.writes .beforeInsert actor now record) ↔
      field ∈ keys (plan.phaseWrites .beforeInsert actor now) ∨
        ∃ spec ∈ plan.specs,
          isUnsetFlag (plan.phaseWrites .beforeInsert actor now) record spec = true ∧
            spec.name = field := by
  rw [writes, Entries.keys_append, keys_flagWrites, List.mem_append]
  simp only [List.mem_map, List.mem_filter, and_assoc]

/-- The required fields of the standard roles are written by an insert. -/
theorem mem_phaseWrites_of_isStandard
    (stamped : stampAt plan .beforeInsert actor now record = .ok after)
    (found : plan.field? role = some spec) (standard : role.isStandard = true)
    (required : spec.nullable = false) :
    spec.name ∈ keys (plan.phaseWrites .beforeInsert actor now) := by
  rw [phaseWrites, Entries.keys_append, List.mem_append]
  have times (listed : role ∈ StampPhase.beforeInsert.timeRoles) :=
    mem_keys_roleWrites listed found (.timestamp now)
  have actors (listed : role ∈ StampPhase.beforeInsert.actorRoles) :
      spec.name ∈ keys (plan.actorWrites .beforeInsert actor) := by
    obtain ⟨name, rfl⟩ := actor_of_stampAt stamped listed found required
    exact mem_keys_roleWrites listed found (.actor name)
  cases role with
  | dateCreated => exact .inl (times (by decide))
  | lastUpdated => exact .inl (times (by decide))
  | createdBy => exact .inr (actors (by decide))
  | lastUpdatedBy => exact .inr (actors (by decide))
  | custom name => exact absurd standard Bool.false_ne_true

/-- The fields of the host's roles are not written for a phase. -/
theorem not_mem_phaseWrites_of_host (separate : plan.fields.Separate)
    (found : plan.field? role = some spec) (host : role.isStandard = false) :
    spec.name ∉ keys (plan.phaseWrites phase actor now) := by
  intro written
  obtain ⟨other, listed, named⟩ := List.mem_filterMap.1 (keys_phaseWrites_sublist.mem written)
  have same : role = other :=
    role_of_fieldName? separate (by rw [fieldName?, found]; rfl) named
  subst same
  have standard : ∀ r ∈ phase.timeRoles ++ phase.actorRoles, r.isStandard = true := by
    cases phase <;> decide
  rw [standard role listed] at host
  exact Bool.false_ne_true host.symm

variable (lane : StaysInLane plan .beforeInsert actor now record after)
include lane

theorem StaysInLane.isSome_of_mem {field : String}
    (member : field ∈ keys (plan.writes .beforeInsert actor now record)) :
    (after.stamp? field).isSome = true := by
  obtain ⟨w, listed, rfl⟩ := List.mem_map.1 member
  rw [lane.written w listed]
  rfl

/-- An insert leaves no flag unset. -/
theorem StaysInLane.isSome_of_flag (member : spec ∈ plan.specs) (flag : spec.kind = .flag) :
    (after.stamp? spec.name).isSome = true := by
  by_cases written : spec.name ∈ keys (plan.writes .beforeInsert actor now record)
  · exact lane.isSome_of_mem written
  · rw [lane.others _ written]
    rw [mem_keys_writes, not_or] at written
    by_contra unset
    apply written.2
    refine ⟨spec, member, ?_, rfl⟩
    simp [isUnsetFlag, flag, Entries.get?_eq_none_of_not_mem written.1,
      Option.not_isSome_iff_eq_none.1 unset]

/-- An insert leaves the fields of the host's roles that are no flags. -/
theorem StaysInLane.stamp?_of_host (separate : plan.fields.Separate)
    (distinct : plan.fieldNames.Nodup) (member : spec ∈ plan.specs)
    (found : plan.field? role = some spec) (host : role.isStandard = false)
    (noFlag : spec.kind ≠ .flag) : after.stamp? spec.name = record.stamp? spec.name := by
  apply lane.others
  intro written
  rcases mem_keys_writes.1 written with written | ⟨other, listed, unset, same⟩
  · exact not_mem_phaseWrites_of_host separate found host written
  · obtain rfl : other = spec := List.inj_on_of_nodup_map distinct listed member same
    simp [isUnsetFlag, noFlag] at unset

end Insert

/-- **What a plan misses after an insert is left to the host**: of a record that was stamped for its
insert, with or without an actor, it reports the first field, in the order of the plan, that belongs
to a role of the host, is required, is no flag and was unset before the stamping; if there is none, it
misses nothing. -/
theorem missing?_of_stampAt {defaults : RoleSpecs}
    {overrides : OrderedMap StampRole FieldOverride} {plan : StampPlan}
    (built : build defaults overrides = .ok plan) {actor : Option String} {now : Instant}
    {record after : Record} (stamped : stampAt plan .beforeInsert actor now record = .ok after) :
    plan.missing? after =
      (plan.fields.entries.find? (isLeftToHost record)).map fun e => e.2.name := by
  have separate := build_separate built
  have distinct := nodup_fieldNames built
  have lane := staysInLane_of_stampAt separate distinct stamped
  have each : ∀ e ∈ plan.fields.entries,
      (!e.2.nullable && (after.stamp? e.2.name).isNone) = isLeftToHost record e := by
    rintro ⟨role, spec⟩ listed
    have member : spec ∈ plan.specs := List.mem_map_of_mem listed
    have found : plan.field? role = some spec := Entries.get?_of_mem plan.fields.nodup listed
    cases required : spec.nullable with
    | true => simp [isLeftToHost, required]
    | false =>
      cases host : role.isStandard with
      | true =>
        have written := mem_phaseWrites_of_isStandard stamped found host required
        have set := lane.isSome_of_mem (mem_keys_writes.2 (.inl written))
        simp [isLeftToHost, host, Option.isNone_eq_false_iff.2 set]
      | false =>
        by_cases flag : spec.kind = .flag
        · have set := lane.isSome_of_flag member flag
          simp [isLeftToHost, flag, Option.isNone_eq_false_iff.2 set]
        · rw [lane.stamp?_of_host separate distinct member found host flag]
          simp [isLeftToHost, required, host, flag]
  rw [missing?, specs, OrderedMap.values, List.find?_map, Option.map_map, ← List.find?_congr each]
  rfl

/-- A plan with a required tenant and region, each of the host, and a flag. -/
def tenantOverrides : OrderedMap StampRole FieldOverride :=
  .ofList [(.custom "archived", { kind := some .flag, nullable := some false }),
    (.custom "tenant", { kind := some .custom, nullable := some false }),
    (.custom "region", { kind := some .custom, nullable := some false })]

/-- Nobody's order with a tenant still misses its region. -/
theorem missing?_of_stampAt_tenant : ∃ plan after,
    build standardRoles tenantOverrides = .ok plan ∧
      stampAt plan .beforeInsert none morning
        ((Record.new "Order" "1").setStamp "tenant" (.custom .null)) = .ok after ∧
      plan.missing? after = (plan.fields.entries.find? (isLeftToHost
        ((Record.new "Order" "1").setStamp "tenant" (.custom .null)))).map (fun e => e.2.name) ∧
      plan.missing? after = some "region" := by
  refine ⟨_, _, rfl, rfl, ?_, rfl⟩
  have built : build standardRoles tenantOverrides = .ok _ := rfl
  exact @missing?_of_stampAt _ _ _ built none morning _ _ rfl

end ChangeAudit.StampPlan
