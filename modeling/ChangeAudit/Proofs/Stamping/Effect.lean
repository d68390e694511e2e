import ChangeAudit.Proofs.Stamp.Build
import ChangeAudit.Proofs.Stamping

/-!
# The effect of a stamping

A stamping writes the time fields of its phase, the actor fields if there is an actor, and on an
insert the flags that are still unset after that (`StampPlan.writes`). In a plan that was built these
are fields of their own, so nothing is written twice, and every other part of the record is as it was
(`StaysInLane`). All that can fail is the demand for an actor, which comes before the first write:
also a stamping that changes the record in place (`StampPlan.stampInPlace`) fails with the record
untouched (`StampPlan.stampAt_atomic`).
-/

namespace ChangeAudit

open Entries (keys)

/-- The record with values written into stamp fields, one after the other. -/
def Record.setStamps (r : Record) (pairs : List (String × StampValue)) : Record :=
  { r with stamps := r.stamps.insertAll pairs }

namespace Record

theorem setStamps_append (r : Record) (pairs more : List (String × StampValue)) :
    r.setStamps (pairs ++ more) = (r.setStamps pairs).setStamps more := by
  have stamps : r.stamps.insertAll (pairs ++ more) =
      (r.stamps.insertAll pairs).insertAll more := OrderedMap.ext List.foldl_append
  rw [setStamps, stamps]
  rfl

theorem stamp?_setStamps (r : Record) {pairs : List (String × StampValue)}
    (distinct : (keys pairs).Nodup) (field : String) :
    (r.setStamps pairs).stamp? field = (Entries.get? pairs field).or (r.stamp? field) :=
  Entries.get?_insertAll r.stamps.entries distinct field

end Record

namespace StampPlan

/-! ## What is written -/

/-- A value for the fields of roles. -/
def roleWrites (plan : StampPlan) (value : StampValue) (roles : List StampRole) :
    List (String × StampValue) :=
  (roles.filterMap plan.fieldName?).map fun field => (field, value)

/-- The actor, if there is one, for the actor fields of the phase. -/
def actorWrites (plan : StampPlan) (phase : StampPhase) :
    Option String → List (String × StampValue)
  | some name => plan.roleWrites (.actor name) phase.actorRoles
  | none => []

/-- The time for the time fields of the phase, and the actor for its actor fields. -/
def phaseWrites (plan : StampPlan) (phase : StampPhase) (actor : Option String) (now : Instant) :
    List (String × StampValue) :=
  plan.roleWrites (.timestamp now) phase.timeRoles ++ plan.actorWrites phase actor

/-- Whether a field is a flag that neither a write nor the record has set. -/
def isUnsetFlag (written : List (String × StampValue)) (record : Record) (spec : FieldSpec) : Bool :=
  spec.kind = .flag && (Entries.get? written spec.name).isNone && (record.stamp? spec.name).isNone

/-- No for flags. -/
def flagWrites (specs : List FieldSpec) : List (String × StampValue) :=
  specs.map fun spec => (spec.name, .flag false)

/-- Everything that a stamping writes, in order: to what is written for the phase an insert adds the
flags that are then unset. -/
def writes (plan : StampPlan) (phase : StampPhase) (actor : Option String) (now : Instant)
    (record : Record) : List (String × StampValue) :=
  let written := plan.phaseWrites phase actor now
  match phase with
  | .beforeInsert => written ++ flagWrites (plan.specs.filter (isUnsetFlag written record))
  | .beforeUpdate => written

section Written

variable {plan : StampPlan} {phase : StampPhase} {actor : Option String} {now : Instant}
  {record : Record}

theorem keys_roleWrites (value : StampValue) (roles : List StampRole) :
    keys (plan.roleWrites value roles) = roles.filterMap plan.fieldName? := by
  rw [roleWrites, keys, List.map_map]
  exact List.map_id _

theorem keys_flagWrites (specs : List FieldSpec) :
    keys (flagWrites specs) = specs.map FieldSpec.name := by
  rw [flagWrites, keys, List.map_map]
  rfl

/-- The fields of a phase are those of some of its roles. -/
theorem keys_phaseWrites_sublist :
    (keys (plan.phaseWrites phase actor now)).Sublist
      ((phase.timeRoles ++ phase.actorRoles).filterMap plan.fieldName?) := by
  rw [phaseWrites, Entries.keys_append, keys_roleWrites, List.filterMap_append]
  refine (List.Sublist.refl _).append ?_
  cases actor with
  | none => exact List.nil_sublist _
  | some name =>
    rw [actorWrites, keys_roleWrites]

theorem nodup_keys_phaseWrites (separate : plan.fields.Separate) (phase : StampPhase)
    (actor : Option String) (now : Instant) :
    (keys (plan.phaseWrites phase actor now)).Nodup := by
  have roles : (phase.timeRoles ++ phase.actorRoles).Nodup := by cases phase <;> decide
  refine List.Nodup.sublist keys_phaseWrites_sublist (List.Nodup.filterMap ?_ roles)
  intro role other field left right
  exact role_of_fieldName? separate left right

theorem nodup_keys_writes (separate : plan.fields.Separate) (distinct : plan.fieldNames.Nodup) :
    (keys (plan.writes phase actor now record)).Nodup := by
  have own := nodup_keys_phaseWrites separate phase actor now
  cases phase with
  | beforeUpdate => exact own
  | beforeInsert =>
    apply Entries.nodup_keys_append own
    · rw [keys_flagWrites]
      exact distinct.sublist (List.filter_sublist.map _)
    · intro w flag
      obtain ⟨spec, member, rfl⟩ := List.mem_map.1 flag
      have unset := (List.mem_filter.1 member).2
      simp only [isUnsetFlag, Bool.and_eq_true, Option.isNone_iff_eq_none] at unset
      exact Entries.get?_eq_none_iff.1 unset.1.2

/-! ## Writing -/

theorem writeRoles_eq (value : StampValue) (roles : List StampRole) :
    plan.writeRoles value record roles = record.setStamps (plan.roleWrites value roles) := by
  rw [writeRoles, roleWrites]
  induction roles.filterMap plan.fieldName? generalizing record with
  | nil => rfl
  | cons field fields ih => exact ih

theorem isUnsetFlag_nil_iff {spec : FieldSpec} :
    isUnsetFlag [] record spec = true ↔ spec.kind = .flag ∧ (record.stamp? spec.name).isNone := by
  simp [isUnsetFlag, Entries.get?]

/-- With names of their own, flags are initialized independently of each other. -/
theorem foldl_initFlag {specs : List FieldSpec} (distinct : (specs.map FieldSpec.name).Nodup)
    (record : Record) :
    specs.foldl initFlag record =
      record.setStamps (flagWrites (specs.filter (isUnsetFlag [] record))) := by
  induction specs generalizing record with
  | nil => rfl
  | cons spec specs ih =>
    obtain ⟨fresh, distinct⟩ := List.nodup_cons.1 distinct
    rw [List.foldl_cons, ih distinct, initFlag]
    by_cases unset : spec.kind = .flag ∧ (record.stamp? spec.name).isNone
    · have others : specs.filter (isUnsetFlag [] (record.setStamp spec.name (.flag false))) =
          specs.filter (isUnsetFlag [] record) := by
        apply List.filter_congr
        intro other member
        have differs : spec.name ≠ other.name := by
          intro same
          exact fresh (List.mem_map.2 ⟨other, member, same.symm⟩)
        rw [isUnsetFlag, isUnsetFlag, Record.stamp?_setStamp, if_neg differs]
      rw [if_pos unset, others, List.filter_cons_of_pos (isUnsetFlag_nil_iff.2 unset)]
      rfl
    · rw [if_neg unset, List.filter_cons_of_neg fun kept => unset (isUnsetFlag_nil_iff.1 kept)]

/-- After other writes the flags are initialized that these have not set. -/
theorem initFlags_setStamps (distinct : plan.fieldNames.Nodup)
    {written : List (String × StampValue)} (once : (keys written).Nodup) :
    plan.specs.foldl initFlag (record.setStamps written) =
      record.setStamps (written ++ flagWrites (plan.specs.filter (isUnsetFlag written record))) := by
  have unset : plan.specs.filter (isUnsetFlag [] (record.setStamps written)) =
      plan.specs.filter (isUnsetFlag written record) := by
    apply List.filter_congr
    intro spec _
    rw [isUnsetFlag, isUnsetFlag, Record.stamp?_setStamps record once]
    cases Entries.get? written spec.name <;> simp [Entries.get?]
  rw [foldl_initFlag distinct, unset, Record.setStamps_append]

/-- A stamping comes down to its writes. -/
theorem write_eq (separate : plan.fields.Separate) (distinct : plan.fieldNames.Nodup) :
    plan.write phase actor now record = record.setStamps (plan.writes phase actor now record) := by
  have once := nodup_keys_phaseWrites separate phase actor now
  have roles : plan.write phase actor now record = match phase with
      | .beforeInsert =>
        plan.specs.foldl initFlag (record.setStamps (plan.phaseWrites phase actor now))
      | .beforeUpdate => record.setStamps (plan.phaseWrites phase actor now) := by
    cases actor <;> cases phase <;> simp only [write, writeRoles_eq, phaseWrites, actorWrites,
      Record.setStamps_append, List.append_nil]
  cases phase with
  | beforeUpdate => exact roles
  | beforeInsert => exact roles.trans (initFlags_setStamps distinct once)

end Written

/-! ## What is demanded -/

/-- The field cannot stay without an actor: it may not be null, and is not an update's that is set. -/
def NeedsActor (record : Record) (phase : StampPhase) (spec : FieldSpec) : Prop :=
  spec.nullable = false ∧ ¬ (phase = .beforeUpdate ∧ (record.stamp? spec.name).isSome = true)

/-- The field is that of the first role of the phase whose field cannot stay without an actor. -/
def FirstNeed (plan : StampPlan) (record : Record) (phase : StampPhase) (field : String) : Prop :=
  ∃ before role after spec, phase.actorRoles = before ++ role :: after ∧
    plan.field? role = some spec ∧ spec.name = field ∧ NeedsActor record phase spec ∧
    ∀ earlier ∈ before, ∀ other, plan.field? earlier = some other → ¬ NeedsActor record phase other

theorem canWait_eq_false_iff {record : Record} {phase : StampPhase} {spec : FieldSpec} :
    canWait record phase spec = false ↔ NeedsActor record phase spec := by
  simp [canWait, NeedsActor]

theorem neededActor?_eq_some_iff {plan : StampPlan} {record : Record} {phase : StampPhase}
    {field : String} :
    plan.neededActor? record phase = some field ↔ FirstNeed plan record phase field := by
  constructor
  · intro needed
    obtain ⟨spec, found, rfl⟩ := Option.map_eq_some_iff.1 needed
    rw [List.find?_filterMap, Option.bind_eq_some_iff] at found
    obtain ⟨role, first, found⟩ := found
    obtain ⟨needs, before, after, split, waits⟩ := List.find?_eq_some_iff_append.1 first
    refine ⟨before, role, after, spec, split, found, rfl, ?_, ?_⟩
    · exact canWait_eq_false_iff.1 (by simpa [found] using needs)
    · intro earlier member other found' needs'
      have wait := waits earlier member
      simp [found', canWait_eq_false_iff.2 needs'] at wait
  · rintro ⟨before, role, after, spec, split, found, rfl, needs, waits⟩
    have first : phase.actorRoles.find?
        (fun r => (plan.field? r).any fun s => !canWait record phase s) = some role := by
      refine List.find?_eq_some_iff_append.2
        ⟨by simp [found, canWait_eq_false_iff.2 needs], before, after, split, ?_⟩
      intro earlier member
      cases found' : plan.field? earlier with
      | none => rfl
      | some other =>
        have wait := waits earlier member other found'
        rw [← canWait_eq_false_iff, Bool.not_eq_false] at wait
        simp [wait]
    rw [neededActor?, List.find?_filterMap, first, Option.bind_some, found]
    rfl

/-! ## Stamping in place -/

/-- Refuses if the field of a role cannot stay without an actor. -/
def demandActor (plan : StampPlan) (phase : StampPhase) (role : StampRole) :
    EStateM Fault Record Unit := do
  let record ← get
  match plan.field? role with
  | some spec =>
    if canWait record phase spec then pure ()
    else throw (.missingActor record.entityType spec.name)
  | none => pure ()

/-- Writes the field of a role. -/
def writeRole (plan : StampPlan) (value : StampValue) (role : StampRole) :
    EStateM Fault Record Unit :=
  match plan.fieldName? role with
  | some field => modify fun r => r.setStamp field value
  | none => pure ()

/-- Demands an actor where there is none. -/
def demandActors (plan : StampPlan) (phase : StampPhase) :
    Option String → EStateM Fault Record Unit
  | some _ => pure ()
  | none => forM phase.actorRoles (plan.demandActor phase)

/-- Writes the actor where there is one. -/
def writeActor (plan : StampPlan) (phase : StampPhase) :
    Option String → EStateM Fault Record Unit
  | some name => forM phase.actorRoles (plan.writeRole (.actor name))
  | none => pure ()

/-- Initializes the flags of a record that is to be inserted. -/
def initFlags (plan : StampPlan) : StampPhase → EStateM Fault Record Unit
  | .beforeInsert => forM plan.specs fun spec => modify fun r => initFlag r spec
  | .beforeUpdate => pure ()

/-- Stamps a record in place, field by field. -/
def stampInPlace (plan : StampPlan) (phase : StampPhase) (actor : Option String) (now : Instant) :
    EStateM Fault Record Unit := do
  plan.demandActors phase actor
  forM phase.timeRoles (plan.writeRole (.timestamp now))
  plan.writeActor phase actor
  plan.initFlags phase

section InPlace

variable {plan : StampPlan} {phase : StampPhase} {actor : Option String} {now : Instant}
  {record : Record}

theorem run_demandRoles (roles : List StampRole) :
    (forM roles (plan.demandActor phase)).run record =
      match (roles.filterMap plan.field?).find? fun s => !canWait record phase s with
      | some spec => .error (.missingActor record.entityType spec.name) record
      | none => .ok () record := by
  induction roles with
  | nil => rfl
  | cons role roles ih =>
    rw [List.forM_cons, EStateM.run_bind]
    cases found : plan.field? role with
    | none =>
      have passed : (plan.demandActor phase role).run record = .ok () record := by
        simp [demandActor, found]
      rw [passed, List.filterMap_cons_none found]
      exact ih
    | some spec =>
      rw [List.filterMap_cons_some found]
      cases waits : canWait record phase spec with
      | true =>
        have passed : (plan.demandActor phase role).run record = .ok () record := by
          simp [demandActor, found, waits]
        rw [passed, List.find?_cons_of_neg (by simp [waits])]
        exact ih
      | false =>
        have refused : (plan.demandActor phase role).run record =
            .error (.missingActor record.entityType spec.name) record := by
          simp [demandActor, found, waits]
        rw [refused, List.find?_cons_of_pos (by simp [waits])]

theorem run_writeRoles (value : StampValue) (roles : List StampRole) :
    (forM roles (plan.writeRole value)).run record =
      .ok () (plan.writeRoles value record roles) := by
  induction roles generalizing record with
  | nil => rfl
  | cons role roles ih =>
    rw [List.forM_cons, EStateM.run_bind]
    cases named : plan.fieldName? role with
    | none =>
      have skipped : (plan.writeRole value role).run record = .ok () record := by
        simp [writeRole, named]
      rw [skipped, writeRoles, List.filterMap_cons_none named]
      exact ih
    | some field =>
      have wrote : (plan.writeRole value role).run record =
          .ok () (record.setStamp field value) := by
        simp [writeRole, named]
      rw [wrote, writeRoles, List.filterMap_cons_some named]
      exact ih

theorem run_initFlags :
    (plan.initFlags phase).run record = .ok () (match phase with
      | .beforeInsert => plan.specs.foldl initFlag record
      | .beforeUpdate => record) := by
  cases phase with
  | beforeUpdate => rfl
  | beforeInsert =>
    rw [initFlags]
    induction plan.specs generalizing record with
    | nil => rfl
    | cons spec specs ih =>
      rw [List.forM_cons, EStateM.run_bind, EStateM.run_modify]
      exact ih

theorem run_writeActor :
    (plan.writeActor phase actor).run record = .ok () (match actor with
      | some name => plan.writeRoles (.actor name) record phase.actorRoles
      | none => record) := by
  cases actor with
  | some name => exact run_writeRoles (.actor name) phase.actorRoles
  | none => rfl

theorem run_demandActors (now : Instant) :
    (plan.demandActors phase actor).run record =
      match stampAt plan phase actor now record with
      | .ok _ => .ok () record
      | .error e => .error e record := by
  cases actor with
  | some name => rfl
  | none =>
    rw [demandActors, run_demandRoles]
    simp only [stampAt, neededActor?]
    cases (phase.actorRoles.filterMap plan.field?).find? fun s => !canWait record phase s <;> rfl

/-- Stamping in place is stamping, and where it fails it leaves the record as it was. -/
theorem run_stampInPlace (plan : StampPlan) (phase : StampPhase) (actor : Option String)
    (now : Instant) (record : Record) :
    (plan.stampInPlace phase actor now).run record =
      match stampAt plan phase actor now record with
      | .ok after => .ok () after
      | .error e => .error e record := by
  rw [stampInPlace, EStateM.run_bind, run_demandActors now]
  cases stamped : stampAt plan phase actor now record with
  | error e => rfl
  | ok after =>
    simp only [EStateM.run_bind, run_writeRoles, run_writeActor, run_initFlags]
    rw [stampAt_eq_ok stamped]
    cases actor <;> cases phase <;> rfl

end InPlace

/-! ## All or nothing -/

/-- A stamping changes the stamp fields that it writes and nothing else. -/
structure StaysInLane (plan : StampPlan) (phase : StampPhase) (actor : Option String)
    (now : Instant) (before after : Record) : Prop where
  entityType : after.entityType = before.entityType
  id : after.id = before.id
  properties : after.properties = before.properties
  written : ∀ w ∈ plan.writes phase actor now before, after.stamp? w.1 = some w.2
  others : ∀ field, field ∉ keys (plan.writes phase actor now before) →
    after.stamp? field = before.stamp? field
  order : after.stamps.keys = before.stamps.keys ++
    (keys (plan.writes phase actor now before)).filter fun field => field ∉ before.stamps.keys

/-- A stamping fails exactly for the first need of an actor where there is none, and leaves the record
untouched then; otherwise it stays in its lane. -/
structure IsAtomic (plan : StampPlan) (phase : StampPhase) (actor : Option String) (now : Instant)
    (record : Record) : Prop where
  fails : ∀ e, stampAt plan phase actor now record = .error e ↔
    actor = none ∧ ∃ field, FirstNeed plan record phase field ∧
      e = .missingActor record.entityType field
  untouched : ∀ e, stampAt plan phase actor now record = .error e →
    (plan.stampInPlace phase actor now).run record = .error e record
  succeeds : ∀ after, stampAt plan phase actor now record = .ok after →
    (plan.stampInPlace phase actor now).run record = .ok () after ∧
      StaysInLane plan phase actor now record after

theorem stampAt_eq_error_iff {plan : StampPlan} {phase : StampPhase} {actor : Option String}
    {now : Instant} {record : Record} {e : Fault} :
    stampAt plan phase actor now record = .error e ↔
      actor = none ∧ ∃ field, FirstNeed plan record phase field ∧
        e = .missingActor record.entityType field := by
  simp only [← neededActor?_eq_some_iff]
  cases actor with
  | some name => simp [stampAt]
  | none =>
    cases needed : plan.neededActor? record phase with
    | none => simp [stampAt, needed]
    | some field => simp [stampAt, needed, eq_comm]

theorem staysInLane_of_stampAt {plan : StampPlan} (separate : plan.fields.Separate)
    (distinct : plan.fieldNames.Nodup) {phase : StampPhase} {actor : Option String} {now : Instant}
    {record after : Record} (stamped : stampAt plan phase actor now record = .ok after) :
    StaysInLane plan phase actor now record after := by
  have written := stampAt_eq_ok stamped
  rw [write_eq separate distinct] at written
  subst written
  have once : (keys (plan.writes phase actor now record)).Nodup :=
    nodup_keys_writes separate distinct
  constructor
  · rfl
  · rfl
  · rfl
  · intro w member
    rw [Record.stamp?_setStamps record once, Entries.get?_of_mem once member, Option.some_or]
  · intro field unwritten
    rw [Record.stamp?_setStamps record once, Entries.get?_eq_none_of_not_mem unwritten,
      Option.none_or]
  · exact Entries.keys_insertAll record.stamps.entries once

/-- **Stamping is atomic and stays in its lane**: with a plan that was built it fails exactly if there
is no actor and a role of the phase cannot do without, names the field of the first such role, and
has touched nothing by then. If it succeeds, identity and properties are as before, the time, the
actor and unset flags are written to the fields of their own, every other field keeps its value, the
fields that were set keep their places, and new ones follow in the order in which they were
written. -/
theorem stampAt_atomic {defaults : RoleSpecs} {overrides : OrderedMap StampRole FieldOverride}
    {plan : StampPlan} (built : build defaults overrides = .ok plan) (phase : StampPhase)
    (actor : Option String) (now : Instant) (record : Record) :
    IsAtomic plan phase actor now record where
  fails _ := stampAt_eq_error_iff
  untouched e failed := by rw [run_stampInPlace, failed]
  succeeds after stamped := by
    refine ⟨by rw [run_stampInPlace, stamped], ?_⟩
    exact staysInLane_of_stampAt (build_separate built) (nodup_fieldNames built) stamped

/-- A plan that needs to know who creates, with the creation under a name of its own and a flag. -/
def guardedOverrides : OrderedMap StampRole FieldOverride :=
  .ofList [(.createdBy, { nullable := some false }), (.dateCreated, .rename "createdAt"),
    (.custom "archived", { kind := some .flag })]

/-- An order that an update without an insert has stamped, with a stamp of the host. -/
def importedOrder : Record :=
  { Record.new "Order" "1" with
    properties := .ofList [("createdBy", .string "someone")]
    stamps := .ofList [("lastUpdated", .timestamp morning), ("source", .custom .null)] }

/-- Nobody may insert the order, and alice's insert appends to its stamps. -/
theorem stampAt_atomic_imported : ∃ plan after, build standardRoles guardedOverrides = .ok plan ∧
    IsAtomic plan .beforeInsert none evening importedOrder ∧
    IsAtomic plan .beforeInsert (some "alice") evening importedOrder ∧
    stampAt plan .beforeInsert none evening importedOrder =
      .error (.missingActor "Order" "createdBy") ∧
    stampAt plan .beforeInsert (some "alice") evening importedOrder = .ok after ∧
    after.stamps.entries = [("lastUpdated", .timestamp evening), ("source", .custom .null),
      ("createdAt", .timestamp evening), ("createdBy", .actor "alice"),
      ("lastUpdatedBy", .actor "alice"), ("archived", .flag false)] := by
  have built : build standardRoles guardedOverrides = .ok _ := rfl
  refine ⟨_, _, rfl, ?_, ?_, rfl, rfl, rfl⟩
  · exact stampAt_atomic built .beforeInsert none evening importedOrder
  · exact stampAt_atomic built .beforeInsert (some "alice") evening importedOrder

end StampPlan

end ChangeAudit
