import ChangeAudit.Proofs.Stamping.Kinds

/-!
# Who signs a required field

The constraints of a plan say which fields may be neither null nor blank. For the actor fields of its
phase a stamping sees to it that there is an actor, or on an update that the field is set: the actor
is written, and without one the field keeps what it held, which need not be an actor
(`StampPlan.stampAt_signed`).
-/

namespace ChangeAudit

/-- The stamp field holds the name of an actor. -/
def Record.Names (r : Record) (field : String) : Prop :=
  ∃ name, name ≠ "" ∧ r.stamp? field = some (.actor name)

namespace StampPlan

/-- The constraints want the field to be neither null nor blank. -/
def Demands (plan : StampPlan) (field : String) : Prop :=
  (⟨field, false, false⟩ : FieldRule) ∈ plan.rules

instance (plan : StampPlan) (field : String) : Decidable (plan.Demands field) :=
  inferInstanceAs (Decidable (_ ∈ plan.rules))

/-- What a stamping leaves in a required actor field: the actor, or without one what was there, which
is demanded of an update only. -/
structure Signed (phase : StampPhase) (actor : Option String) (before after : Record)
    (field : String) : Prop where
  someone : ∀ name, actor = some name → name ≠ "" → after.stamp? field = some (.actor name)
  nobody : actor = none → phase = .beforeUpdate ∧ (before.stamp? field).isSome = true ∧
    after.stamp? field = before.stamp? field
  names : actor ≠ some "" → (after.Names field ↔ actor.isSome = true ∨ before.Names field)

section Stamped

variable {plan : StampPlan} {phase : StampPhase} {actor : Option String} {now : Instant}
  {record after : Record} {role : StampRole} {spec : FieldSpec}

/-- The constraint of a field tells whether its role needs it. -/
theorem nullable_of_demands (distinct : plan.fieldNames.Nodup) (found : plan.field? role = some spec)
    (demands : plan.Demands spec.name) : spec.nullable = false := by
  obtain ⟨other, listed, rule⟩ := List.mem_map.1 demands
  obtain ⟨same, free, -⟩ := FieldRule.mk.inj rule
  obtain rfl : other = spec :=
    List.inj_on_of_nodup_map distinct listed (mem_specs_of_field? found) same
  exact free

/-- The actor fields of the phase hold the actor. -/
theorem StaysInLane.stamp?_of_actor {name : String}
    (lane : StaysInLane plan phase (some name) now record after)
    (listed : role ∈ phase.actorRoles) (found : plan.field? role = some spec) :
    after.stamp? spec.name = some (.actor name) := by
  have signed : (spec.name, .actor name) ∈ plan.phaseWrites phase (some name) now :=
    List.mem_append_right _ (mem_roleWrites_iff.2 ⟨role, listed, spec, found, rfl⟩)
  exact lane.written _ (mem_writes_of_mem_phaseWrites record signed)

/-- An update by nobody leaves the actor fields. -/
theorem StaysInLane.stamp?_of_nobody (separate : plan.fields.Separate)
    (lane : StaysInLane plan .beforeUpdate none now record after)
    (listed : role ∈ StampPhase.beforeUpdate.actorRoles) (found : plan.field? role = some spec) :
    after.stamp? spec.name = record.stamp? spec.name := by
  apply lane.others
  intro written
  obtain ⟨w, member, named⟩ := List.mem_map.1 written
  obtain ⟨other, timed, spec', found', named', -⟩ := role_of_mem_phaseWrites member
  obtain rfl : role = other :=
    separate role other spec spec' found found' (named.symm.trans named'.symm)
  have apart : ∀ r ∈ StampPhase.beforeUpdate.actorRoles,
      r ∉ StampPhase.beforeUpdate.stampedRoles none := by decide
  exact apart role listed timed

end Stamped

/-- **A stamping signs the required fields**: after a stamping with a plan that was built, an actor
field of the phase that the constraints want neither null nor blank holds the actor, if one with a
name was given. Without an actor a stamping succeeds only as an update that finds the field set, and
leaves it as it was. So unless the actor's name is empty the field holds a name, except where nobody
updates a record that had none there. -/
theorem stampAt_signed {defaults : RoleSpecs} {overrides : OrderedMap StampRole FieldOverride}
    {plan : StampPlan} (built : build defaults overrides = .ok plan) {phase : StampPhase}
    {actor : Option String} {now : Instant} {record after : Record}
    (stamped : stampAt plan phase actor now record = .ok after) {role : StampRole}
    (listed : role ∈ phase.actorRoles) {field : String} (named : plan.fieldName? role = some field)
    (demands : plan.Demands field) : Signed phase actor record after field := by
  have separate := build_separate built
  have distinct := nodup_fieldNames built
  have lane := staysInLane_of_stampAt separate distinct stamped
  obtain ⟨spec, found, rfl⟩ := Option.map_eq_some_iff.1 named
  have required := nullable_of_demands distinct found demands
  cases actor with
  | some given =>
    have signed := lane.stamp?_of_actor listed found
    constructor
    · rintro name ⟨⟩ -
      exact signed
    · rintro ⟨⟩
    · intro named
      have isName : given ≠ "" := fun blank => named (congrArg some blank)
      exact iff_of_true ⟨given, isName, signed⟩ (.inl rfl)
  | none =>
    have waits := canWait_of_stampAt stamped listed found
    simp only [canWait, required, Bool.false_or, Bool.and_eq_true, decide_eq_true_eq] at waits
    obtain ⟨rfl, set⟩ := waits
    have kept := lane.stamp?_of_nobody separate listed found
    constructor
    · rintro name ⟨⟩
    · intro _
      exact ⟨rfl, set, kept⟩
    · intro _
      simp only [Record.Names, kept, Option.isSome_none, Bool.false_eq_true, false_or]

/-- A plan that needs to know who creates, under another name, and who changed last. -/
def signedOverrides : OrderedMap StampRole FieldOverride :=
  .ofList [(.createdBy, { name := some "author", nullable := some false }),
    (.lastUpdatedBy, { nullable := some false })]

/-- An order that alice changed last. -/
def signedOrder : Record :=
  (Record.new "Order" "1").setStamp "lastUpdatedBy" (.actor "alice")

/-- Nobody updates alice's order, which stays hers, and bob inserts it. -/
theorem stampAt_signed_order : ∃ plan updated inserted,
    build standardRoles signedOverrides = .ok plan ∧
      stampAt plan .beforeUpdate none morning signedOrder = .ok updated ∧
      Signed .beforeUpdate none signedOrder updated "lastUpdatedBy" ∧
      updated.stamp? "lastUpdatedBy" = some (.actor "alice") ∧
      stampAt plan .beforeInsert (some "bob") morning signedOrder = .ok inserted ∧
      Signed .beforeInsert (some "bob") signedOrder inserted "author" ∧
      inserted.stamp? "author" = some (.actor "bob") := by
  have built : build standardRoles signedOverrides = .ok _ := rfl
  refine ⟨_, _, _, built, rfl, ?_, rfl, rfl, ?_, rfl⟩
  · exact @stampAt_signed _ _ _ built .beforeUpdate none morning _ _ rfl .lastUpdatedBy (by decide) _
      rfl (by decide)
  · exact @stampAt_signed _ _ _ built .beforeInsert (some "bob") morning _ _ rfl .createdBy
      (by decide) _ rfl (by decide)

/-- An order whose last change a host has marked with a value of its own. -/
def markedOrder : Record :=
  (Record.new "Order" "1").setStamp "lastUpdatedBy" (.custom .null)

/-- Nobody updates an order that was signed by no actor, and an order is inserted without a name. -/
theorem stampAt_unsigned : ∃ plan updated inserted,
    build standardRoles signedOverrides = .ok plan ∧
      plan.Demands "lastUpdatedBy" ∧ plan.fieldName? .lastUpdatedBy = some "lastUpdatedBy" ∧
      stampAt plan .beforeUpdate none morning markedOrder = .ok updated ∧
      ¬ updated.Names "lastUpdatedBy" ∧
      plan.Demands "author" ∧ plan.fieldName? .createdBy = some "author" ∧
      stampAt plan .beforeInsert (some "") morning markedOrder = .ok inserted ∧
      ¬ inserted.Names "author" := by
  have built : build standardRoles signedOverrides = .ok _ := rfl
  refine ⟨_, _, _, built, by decide, rfl, rfl, ?_, by decide, rfl, rfl, ?_⟩
  · rintro ⟨name, -, held⟩
    have kept : some (StampValue.custom .null) = some (.actor name) := held
    nomatch kept
  · rintro ⟨name, isName, held⟩
    have blank : some (StampValue.actor "") = some (.actor name) := held
    obtain rfl : "" = name := by simpa using blank
    exact isName rfl

end StampPlan

end ChangeAudit
