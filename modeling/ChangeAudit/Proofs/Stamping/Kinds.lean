import ChangeAudit.Proofs.Stamp.Build
import ChangeAudit.Proofs.Stamping.Effect

/-!
# The kinds of the values written

A stamping chooses values by role: the time for the roles of a time, the actor for those of an actor.
The kind of a field is only looked at when flags are initialized. So the fields get values of their
kinds as long as the roles that are stamped keep the kinds they have by default
(`StampPlan.stampAt_kinds`); the kinds of the host's roles do not matter.
-/

namespace ChangeAudit

open Entries (keys)

/-- The kind of the fields that a value is for; what the host's own kind holds is up to the host. -/
def StampValue.kind? : StampValue → Option FieldKind
  | .timestamp _ => some .timestamp
  | .actor _ => some .actorId
  | .flag _ => some .flag
  | .custom _ => none

theorem StampValue.kind?_ne_custom (value : StampValue) : value.kind? ≠ some .custom := by
  cases value <;> simp [kind?]

/-- The kind of the role's field in a plan without overrides. -/
def StampRole.defaultKind? (role : StampRole) : Option FieldKind :=
  (StampPlan.standardRoles.get? role).map FieldSpec.kind

/-- The roles whose fields are written for the phase. -/
def StampPhase.stampedRoles (phase : StampPhase) : Option String → List StampRole
  | some _ => phase.timeRoles ++ phase.actorRoles
  | none => phase.timeRoles

namespace StampPhase

variable {phase : StampPhase} {role : StampRole}

theorem defaultKind?_of_mem_timeRoles (listed : role ∈ phase.timeRoles) :
    role.defaultKind? = some .timestamp := by
  have times : ∀ r ∈ phase.timeRoles, r.defaultKind? = some .timestamp := by
    cases phase <;> decide
  exact times role listed

theorem defaultKind?_of_mem_actorRoles (listed : role ∈ phase.actorRoles) :
    role.defaultKind? = some .actorId := by
  have actors : ∀ r ∈ phase.actorRoles, r.defaultKind? = some .actorId := by
    cases phase <;> decide
  exact actors role listed

end StampPhase

namespace StampPlan

/-- The role is not kept, or its field has the kind that it has by default. -/
def KeepsKind (plan : StampPlan) (role : StampRole) : Prop :=
  ∀ spec, plan.field? role = some spec → role.defaultKind? = some spec.kind

/-- Every value is written into a field of the plan that has its kind, and none into a field of the
host's own kind. -/
structure RespectsKinds (plan : StampPlan) (phase : StampPhase) (actor : Option String)
    (now : Instant) (record : Record) : Prop where
  kinds : ∀ w ∈ plan.writes phase actor now record,
    ∃ spec ∈ plan.specs, spec.name = w.1 ∧ w.2.kind? = some spec.kind
  custom : ∀ spec ∈ plan.specs, spec.kind = .custom →
    spec.name ∉ keys (plan.writes phase actor now record)

/-! ## What is written for a role -/

section Written

variable {plan : StampPlan} {phase : StampPhase} {actor : Option String} {now : Instant}
  {record : Record} {role : StampRole} {spec : FieldSpec} {w : String × StampValue}

theorem mem_specs_of_field? (found : plan.field? role = some spec) : spec ∈ plan.specs :=
  List.mem_map_of_mem (Entries.mem_of_get? found)

theorem mem_roleWrites_iff {value : StampValue} {roles : List StampRole} :
    w ∈ plan.roleWrites value roles ↔
      ∃ role ∈ roles, ∃ spec, plan.field? role = some spec ∧ (spec.name, value) = w := by
  simp [roleWrites, fieldName?, and_assoc]

/-- What is written for the phase is written for a role that is stamped, and is of its default
kind. -/
theorem role_of_mem_phaseWrites (member : w ∈ plan.phaseWrites phase actor now) :
    ∃ role ∈ phase.stampedRoles actor, ∃ spec,
      plan.field? role = some spec ∧ spec.name = w.1 ∧ w.2.kind? = role.defaultKind? := by
  rcases List.mem_append.1 member with timed | signed
  · obtain ⟨role, listed, spec, found, rfl⟩ := mem_roleWrites_iff.1 timed
    refine ⟨role, ?_, spec, found, rfl, (StampPhase.defaultKind?_of_mem_timeRoles listed).symm⟩
    cases actor with
    | none => exact listed
    | some name => exact List.mem_append_left _ listed
  · cases actor with
    | none => nomatch signed
    | some name =>
      obtain ⟨role, listed, spec, found, rfl⟩ := mem_roleWrites_iff.1 signed
      exact ⟨role, List.mem_append_right _ listed, spec, found, rfl,
        (StampPhase.defaultKind?_of_mem_actorRoles listed).symm⟩

/-- For a role that is stamped a value of its default kind is written. -/
theorem exists_mem_phaseWrites (now : Instant) (listed : role ∈ phase.stampedRoles actor)
    (found : plan.field? role = some spec) :
    ∃ value, (spec.name, value) ∈ plan.phaseWrites phase actor now ∧
      value.kind? = role.defaultKind? := by
  have written {value : StampValue} {roles : List StampRole} (member : role ∈ roles) :
      (spec.name, value) ∈ plan.roleWrites value roles :=
    mem_roleWrites_iff.2 ⟨role, member, spec, found, rfl⟩
  have timed (member : role ∈ phase.timeRoles) :
      ∃ value, (spec.name, value) ∈ plan.phaseWrites phase actor now ∧
        value.kind? = role.defaultKind? :=
    ⟨.timestamp now, List.mem_append_left _ (written member),
      (StampPhase.defaultKind?_of_mem_timeRoles member).symm⟩
  cases actor with
  | none => exact timed listed
  | some name =>
    rcases List.mem_append.1 listed with member | member
    · exact timed member
    · exact ⟨.actor name, List.mem_append_right _ (written member),
        (StampPhase.defaultKind?_of_mem_actorRoles member).symm⟩

/-- Whatever is not written for the phase is a flag's. -/
theorem mem_writes_cases (member : w ∈ plan.writes phase actor now record) :
    w ∈ plan.phaseWrites phase actor now ∨
      ∃ spec ∈ plan.specs, spec.kind = .flag ∧ (spec.name, .flag false) = w := by
  cases phase with
  | beforeUpdate => exact .inl member
  | beforeInsert =>
    rcases List.mem_append.1 member with member | member
    · exact .inl member
    · obtain ⟨spec, kept, rfl⟩ := List.mem_map.1 member
      obtain ⟨listed, unset⟩ := List.mem_filter.1 kept
      simp only [isUnsetFlag, Bool.and_eq_true, decide_eq_true_eq] at unset
      exact .inr ⟨spec, listed, unset.1.1, rfl⟩

theorem mem_writes_of_mem_phaseWrites (record : Record)
    (member : w ∈ plan.phaseWrites phase actor now) : w ∈ plan.writes phase actor now record := by
  cases phase with
  | beforeUpdate => exact member
  | beforeInsert => exact List.mem_append_left _ member

/-! ## When the kinds are respected -/

/-- With fields of their own, the host's own kind is left alone if every value is of its field's
kind. -/
theorem respectsKinds_of_kinds (distinct : plan.fieldNames.Nodup)
    (kinds : ∀ w ∈ plan.writes phase actor now record,
      ∃ spec ∈ plan.specs, spec.name = w.1 ∧ w.2.kind? = some spec.kind) :
    RespectsKinds plan phase actor now record where
  kinds := kinds
  custom := by
    intro spec listed own written
    obtain ⟨w, member, named⟩ := List.mem_map.1 written
    obtain ⟨other, otherListed, same, kind⟩ := kinds w member
    obtain rfl : other = spec :=
      List.inj_on_of_nodup_map distinct otherListed listed (same.trans named)
    rw [own] at kind
    exact w.2.kind?_ne_custom kind

theorem RespectsKinds.keepsKind (distinct : plan.fieldNames.Nodup)
    (respects : RespectsKinds plan phase actor now record)
    (listed : role ∈ phase.stampedRoles actor) : plan.KeepsKind role := by
  intro spec found
  obtain ⟨value, member, default⟩ := exists_mem_phaseWrites now listed found
  obtain ⟨other, otherListed, same, kind⟩ :=
    respects.kinds _ (mem_writes_of_mem_phaseWrites record member)
  obtain rfl : other = spec :=
    List.inj_on_of_nodup_map distinct otherListed (mem_specs_of_field? found) same
  exact default.symm.trans kind

theorem respectsKinds_of_keepsKind (distinct : plan.fieldNames.Nodup)
    (keeps : ∀ role ∈ phase.stampedRoles actor, plan.KeepsKind role) :
    RespectsKinds plan phase actor now record := by
  apply respectsKinds_of_kinds distinct
  intro w member
  rcases mem_writes_cases member with member | ⟨spec, listed, flag, rfl⟩
  · obtain ⟨role, listed, spec, found, named, default⟩ := role_of_mem_phaseWrites member
    exact ⟨spec, mem_specs_of_field? found, named, default.trans (keeps role listed spec found)⟩
  · exact ⟨spec, listed, rfl, congrArg some flag.symm⟩

end Written

/-- **A stamping writes by role, not by kind**: with a plan that was built it changes the stamp fields
that it writes and nothing else, and every value it writes is of the kind of its field, with no field
of the host's own kind among them, exactly if each role that it stamps (those of a time, and if there
is an actor those of an actor) keeps the kind that it has by default. -/
theorem stampAt_kinds {defaults : RoleSpecs} {overrides : OrderedMap StampRole FieldOverride}
    {plan : StampPlan} (built : build defaults overrides = .ok plan) {phase : StampPhase}
    {actor : Option String} {now : Instant} {record after : Record}
    (stamped : stampAt plan phase actor now record = .ok after) :
    StaysInLane plan phase actor now record after ∧
      (RespectsKinds plan phase actor now record ↔
        ∀ role ∈ phase.stampedRoles actor, plan.KeepsKind role) := by
  have distinct := nodup_fieldNames built
  refine ⟨staysInLane_of_stampAt (build_separate built) distinct stamped, ?_, ?_⟩
  · intro respects role listed
    exact respects.keepsKind distinct listed
  · exact respectsKinds_of_keepsKind distinct

/-- A plan with a creator that is a flag and a tenant of the host's own kind. -/
def flaggedCreator : OrderedMap StampRole FieldOverride :=
  .ofList [(.createdBy, { kind := some .flag }), (.custom "tenant", { kind := some .custom })]

/-- Nobody's insert leaves the creator a flag and the tenant alone. -/
theorem stampAt_kinds_flagged : ∃ plan after, build standardRoles flaggedCreator = .ok plan ∧
    stampAt plan .beforeInsert none morning (Record.new "Order" "1") = .ok after ∧
    (StaysInLane plan .beforeInsert none morning (Record.new "Order" "1") after ∧
      (RespectsKinds plan .beforeInsert none morning (Record.new "Order" "1") ↔
        ∀ role ∈ StampPhase.beforeInsert.stampedRoles none, plan.KeepsKind role)) ∧
    after.stamps.entries = [("dateCreated", .timestamp morning),
      ("lastUpdated", .timestamp morning), ("createdBy", .flag false)] := by
  refine ⟨_, _, rfl, rfl, ?_, rfl⟩
  have built : build standardRoles flaggedCreator = .ok _ := rfl
  exact stampAt_kinds built rfl

/-- A plan whose time of creation is of the host's own kind and may be missing. -/
def ownCreation : OrderedMap StampRole FieldOverride :=
  .ofList [(.dateCreated, { kind := some .custom, nullable := some true })]

/-- An insert by alice writes the time into the field of the host's own kind. -/
theorem writes_own_kind : ∃ plan after spec, build standardRoles ownCreation = .ok plan ∧
    stampAt plan .beforeInsert (some "alice") morning (Record.new "Order" "1") = .ok after ∧
    spec ∈ plan.specs ∧ spec.kind = .custom ∧
    spec.name ∈ keys (plan.writes .beforeInsert (some "alice") morning (Record.new "Order" "1")) ∧
    after.stamp? spec.name = some (.timestamp morning) ∧
    ¬ RespectsKinds plan .beforeInsert (some "alice") morning (Record.new "Order" "1") := by
  have built : build standardRoles ownCreation = .ok _ := rfl
  refine ⟨_, _, ⟨"dateCreated", .custom, true, false, none⟩, built, rfl, by decide, rfl, by decide,
    rfl, ?_⟩
  intro respects
  exact respects.custom ⟨"dateCreated", .custom, true, false, none⟩ (by decide) rfl (by decide)

end StampPlan

end ChangeAudit
