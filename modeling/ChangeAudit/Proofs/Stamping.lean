import ChangeAudit.Proofs.Stamp.Plan
import ChangeAudit.Stamping

/-!
# Stamps over the life of a record

An insert writes the four standard roles, an update the two of the last change. The fields of a plan
that was built keep roles apart, so what one stamping leaves can be told role by role (`Inserted`,
`Updated`). Along a run of updates the fields of the creation stay, and those of the last change
follow the calls that succeed (`run_lifetime`).
-/

namespace ChangeAudit

theorem Record.stamp?_setStamp (r : Record) (field : String) (value : StampValue) (other : String) :
    (r.setStamp field value).stamp? other =
      if field = other then some value else r.stamp? other :=
  OrderedMap.get?_insert r.stamps field value other

/-- Who stamps, and when. -/
structure StampCall where
  actor : Option String
  now : Instant

namespace StampPlan

variable {plan : StampPlan}

/-! ## One stamping -/

theorem stampAt_eq_ok {phase : StampPhase} {actor : Option String} {now : Instant}
    {record r : Record} (stamped : stampAt plan phase actor now record = .ok r) :
    r = plan.write phase actor now record := by
  unfold stampAt at stamped
  split at stamped
  · nomatch stamped
  · cases stamped
    rfl

/-- A stamping fails only without an actor. -/
theorem stampAt_of_no_need {phase : StampPhase} (call : StampCall) {record : Record}
    (unneeded : call.actor = none → plan.neededActor? record phase = none) :
    stampAt plan phase call.actor call.now record =
      .ok (plan.write phase call.actor call.now record) := by
  unfold stampAt
  split
  · rename_i field nobody needed
    rw [unneeded nobody] at needed
    nomatch needed
  · rfl

/-- Writing roles sets their fields and leaves the others. -/
theorem stamp?_writeRoles (plan : StampPlan) (value : StampValue) (record : Record)
    (roles : List StampRole) (field : String) :
    (plan.writeRoles value record roles).stamp? field =
      if field ∈ roles.filterMap plan.fieldName? then some value else record.stamp? field := by
  rw [writeRoles]
  induction roles.filterMap plan.fieldName? generalizing record with
  | nil => simp
  | cons name names ih =>
    rw [List.foldl_cons, ih, Record.stamp?_setStamp]
    by_cases later : field ∈ names
    · simp [later]
    · by_cases first : name = field
      · simp [first]
      · simp [later, first, Ne.symm first]

/-- A field that is set is no flag to be initialized. -/
theorem stamp?_initFlags {specs : List FieldSpec} {record : Record} {field : String}
    {value : StampValue} (set : record.stamp? field = some value) :
    (specs.foldl initFlag record).stamp? field = some value := by
  induction specs generalizing record with
  | nil => exact set
  | cons spec specs ih =>
    apply ih
    rw [initFlag]
    split
    · rename_i flag
      have unset : spec.name ≠ field := by
        rintro rfl
        simp [set] at flag
      rw [Record.stamp?_setStamp, if_neg unset, set]
    · exact set

/-- What an insert leaves in the fields of the standard roles. -/
structure Inserted (plan : StampPlan) (call : StampCall) (r : Record) : Prop where
  dateCreated : ∀ field, plan.fieldName? .dateCreated = some field →
    r.stamp? field = some (.timestamp call.now)
  lastUpdated : ∀ field, plan.fieldName? .lastUpdated = some field →
    r.stamp? field = some (.timestamp call.now)
  createdBy : ∀ field actor, plan.fieldName? .createdBy = some field → call.actor = some actor →
    r.stamp? field = some (.actor actor)
  lastUpdatedBy : ∀ field actor, plan.fieldName? .lastUpdatedBy = some field →
    call.actor = some actor → r.stamp? field = some (.actor actor)

theorem inserted_of_stampAt (separate : plan.fields.Separate) {call : StampCall}
    {record r : Record} (stamped : stampAt plan .beforeInsert call.actor call.now record = .ok r) :
    Inserted plan call r := by
  have written := stampAt_eq_ok stamped
  have apart {role other : StampRole} {field : String} (left : plan.fieldName? role = some field)
      (right : plan.fieldName? other = some field) : role = other :=
    role_of_fieldName? separate left right
  -- a time field is no actor field, so the actor is not written over it
  have time (role : StampRole) (field : String) (listed : role ∈ StampPhase.beforeInsert.timeRoles)
      (named : plan.fieldName? role = some field) : r.stamp? field = some (.timestamp call.now) := by
    rw [written]
    apply stamp?_initFlags
    have timed := stamp?_writeRoles plan (.timestamp call.now) record
      StampPhase.beforeInsert.timeRoles field
    rw [if_pos (List.mem_filterMap.2 ⟨role, listed, named⟩)] at timed
    cases call.actor with
    | none => exact timed
    | some actor =>
      have unsigned : field ∉ StampPhase.beforeInsert.actorRoles.filterMap plan.fieldName? := by
        intro signed
        obtain ⟨other, otherListed, otherNamed⟩ := List.mem_filterMap.1 signed
        have same := apart named otherNamed
        subst same
        simp only [StampPhase.timeRoles, List.mem_cons, List.not_mem_nil, or_false] at listed
        rcases listed with rfl | rfl <;> simp [StampPhase.actorRoles] at otherListed
      show (plan.writeRoles (.actor actor) _ _).stamp? field = _
      rw [stamp?_writeRoles, if_neg unsigned, timed]
  have signature (role : StampRole) (field actor : String)
      (listed : role ∈ StampPhase.beforeInsert.actorRoles) (named : plan.fieldName? role = some field)
      (given : call.actor = some actor) : r.stamp? field = some (.actor actor) := by
    rw [written, given]
    apply stamp?_initFlags
    show (plan.writeRoles (.actor actor) _ _).stamp? field = _
    rw [stamp?_writeRoles, if_pos (List.mem_filterMap.2 ⟨role, listed, named⟩)]
  constructor
  · intro field
    exact time .dateCreated field (by simp [StampPhase.timeRoles])
  · intro field
    exact time .lastUpdated field (by simp [StampPhase.timeRoles])
  · intro field actor
    exact signature .createdBy field actor (by simp [StampPhase.actorRoles])
  · intro field actor
    exact signature .lastUpdatedBy field actor (by simp [StampPhase.actorRoles])

/-- What an update changes. -/
structure Updated (plan : StampPlan) (call : StampCall) (before after : Record) : Prop where
  lastUpdated : ∀ field, plan.fieldName? .lastUpdated = some field →
    after.stamp? field = some (.timestamp call.now)
  lastUpdatedBy : ∀ field, plan.fieldName? .lastUpdatedBy = some field →
    after.stamp? field = (call.actor.map StampValue.actor).or (before.stamp? field)
  others : ∀ field, plan.fieldName? .lastUpdated ≠ some field →
    plan.fieldName? .lastUpdatedBy ≠ some field → after.stamp? field = before.stamp? field

theorem updated_of_stampAt (separate : plan.fields.Separate) {call : StampCall}
    {before after : Record}
    (stamped : stampAt plan .beforeUpdate call.actor call.now before = .ok after) :
    Updated plan call before after := by
  have written (field : String) : after.stamp? field =
      if plan.fieldName? .lastUpdatedBy = some field ∧ call.actor.isSome then
        call.actor.map StampValue.actor
      else if plan.fieldName? .lastUpdated = some field then some (.timestamp call.now)
      else before.stamp? field := by
    have timed := stamp?_writeRoles plan (.timestamp call.now) before
      StampPhase.beforeUpdate.timeRoles field
    have timeField : field ∈ StampPhase.beforeUpdate.timeRoles.filterMap plan.fieldName? ↔
        plan.fieldName? .lastUpdated = some field := by
      simp [StampPhase.timeRoles, List.mem_filterMap]
    have actorField : field ∈ StampPhase.beforeUpdate.actorRoles.filterMap plan.fieldName? ↔
        plan.fieldName? .lastUpdatedBy = some field := by
      simp [StampPhase.actorRoles, List.mem_filterMap]
    simp only [timeField] at timed
    rw [stampAt_eq_ok stamped]
    cases call.actor with
    | none =>
      show (plan.writeRoles (.timestamp call.now) before _).stamp? field = _
      rw [timed]
      simp
    | some actor =>
      show (plan.writeRoles (.actor actor) _ _).stamp? field = _
      rw [stamp?_writeRoles, timed]
      simp only [actorField, Option.isSome_some, and_true, Option.map_some]
  constructor
  · intro field named
    have unsigned : plan.fieldName? .lastUpdatedBy ≠ some field := by
      intro signed
      nomatch role_of_fieldName? separate named signed
    rw [written, if_neg (fun signed => unsigned signed.1), if_pos named]
  · intro field named
    have untimed : plan.fieldName? .lastUpdated ≠ some field := by
      intro timed
      nomatch role_of_fieldName? separate timed named
    rw [written]
    cases call.actor with
    | none => simp [untimed]
    | some actor => simp [named]
  · intro field untimed unsigned
    rw [written, if_neg (fun signed => unsigned signed.1), if_neg untimed]

/-! ## A run of updates -/

/-- The record after an update is stamped; a stamping that fails leaves it. -/
def update (plan : StampPlan) (record : Record) (call : StampCall) : Record :=
  match stampAt plan .beforeUpdate call.actor call.now record with
  | .ok next => next
  | .error _ => record

/-- The record after updates, one after the other. -/
def updates (plan : StampPlan) (record : Record) (calls : List StampCall) : Record :=
  calls.foldl plan.update record

/-- The calls of a run of updates that succeed. -/
def succeeded (plan : StampPlan) (record : Record) : List StampCall → List StampCall
  | [] => []
  | call :: calls =>
    match stampAt plan .beforeUpdate call.actor call.now record with
    | .ok next => call :: succeeded plan next calls
    | .error _ => succeeded plan record calls

/-- The time of the last call. -/
def lastTime (first : StampCall) (later : List StampCall) : Instant :=
  (later.getLast?.getD first).now

/-- The actor of the last call that had one. -/
def lastActor? (first : StampCall) (later : List StampCall) : Option String :=
  (first :: later).reverse.findSome? StampCall.actor

theorem lastTime_snoc (first : StampCall) (later : List StampCall) (call : StampCall) :
    lastTime first (later ++ [call]) = call.now := by
  simp [lastTime]

theorem lastActor?_snoc (first : StampCall) (later : List StampCall) (call : StampCall) :
    lastActor? first (later ++ [call]) = call.actor.or (lastActor? first later) := by
  have last : (first :: (later ++ [call])).reverse = call :: (first :: later).reverse := by simp
  rw [lastActor?, last, List.findSome?_cons]
  cases call.actor <;> rfl

/-- What the stamp fields of a record hold, told by the insert and by the updates that succeeded
since. -/
structure Lifetime (plan : StampPlan) (first : StampCall) (inserted : Record)
    (later : List StampCall) (r : Record) : Prop where
  dateCreated : ∀ field, plan.fieldName? .dateCreated = some field →
    r.stamp? field = some (.timestamp first.now)
  createdBy : ∀ field, plan.fieldName? .createdBy = some field →
    r.stamp? field = (first.actor.map StampValue.actor).or (inserted.stamp? field)
  lastUpdated : ∀ field, plan.fieldName? .lastUpdated = some field →
    r.stamp? field = some (.timestamp (lastTime first later))
  lastUpdatedBy : ∀ field, plan.fieldName? .lastUpdatedBy = some field →
    r.stamp? field = ((lastActor? first later).map StampValue.actor).or (inserted.stamp? field)
  others : ∀ field, plan.fieldName? .lastUpdated ≠ some field →
    plan.fieldName? .lastUpdatedBy ≠ some field → r.stamp? field = inserted.stamp? field

variable {first : StampCall} {inserted : Record}

theorem Inserted.lifetime (h : Inserted plan first inserted) :
    Lifetime plan first inserted [] inserted := by
  have signed (field : String)
      (written : ∀ actor, first.actor = some actor → inserted.stamp? field = some (.actor actor)) :
      inserted.stamp? field = (first.actor.map StampValue.actor).or (inserted.stamp? field) := by
    cases given : first.actor with
    | none => rfl
    | some actor =>
      rw [written actor given]
      rfl
  constructor
  · exact h.dateCreated
  · intro field named
    exact signed field fun actor => h.createdBy field actor named
  · exact h.lastUpdated
  · intro field named
    have only : lastActor? first [] = first.actor := by
      cases given : first.actor <;> simp [lastActor?, given]
    rw [only]
    exact signed field fun actor => h.lastUpdatedBy field actor named
  · intro field _ _
    rfl

/-- An update that succeeds is the last call. -/
theorem Lifetime.step (separate : plan.fields.Separate) {later : List StampCall} {r next : Record}
    (h : Lifetime plan first inserted later r) {call : StampCall}
    (stamped : stampAt plan .beforeUpdate call.actor call.now r = .ok next) :
    Lifetime plan first inserted (later ++ [call]) next := by
  have updated := updated_of_stampAt separate stamped
  have kept {role : StampRole} {field : String} (named : plan.fieldName? role = some field)
      (untimed : role ≠ .lastUpdated) (unsigned : role ≠ .lastUpdatedBy) :
      next.stamp? field = r.stamp? field := by
    apply updated.others
    · intro timed
      exact untimed (role_of_fieldName? separate named timed)
    · intro signed
      exact unsigned (role_of_fieldName? separate named signed)
  constructor
  · intro field named
    rw [kept named (by simp) (by simp), h.dateCreated field named]
  · intro field named
    rw [kept named (by simp) (by simp), h.createdBy field named]
  · intro field named
    rw [updated.lastUpdated field named, lastTime_snoc]
  · intro field named
    rw [updated.lastUpdatedBy field named, h.lastUpdatedBy field named, lastActor?_snoc]
    cases call.actor <;> rfl
  · intro field untimed unsigned
    rw [updated.others field untimed unsigned, h.others field untimed unsigned]

theorem Lifetime.run (separate : plan.fields.Separate) {later : List StampCall} {r : Record}
    (h : Lifetime plan first inserted later r) (calls : List StampCall) :
    Lifetime plan first inserted (later ++ plan.succeeded r calls) (plan.updates r calls) := by
  induction calls generalizing later r with
  | nil =>
    rw [succeeded, List.append_nil]
    exact h
  | cons call calls ih =>
    rw [succeeded, updates, List.foldl_cons, update]
    cases stamped : stampAt plan .beforeUpdate call.actor call.now r with
    | ok next =>
      have step := ih (h.step separate stamped)
      rwa [List.append_assoc] at step
    | error e => exact ih h

/-! ## No update fails after an insert -/

/-- A stamping by nobody succeeds only if the actor fields of its phase can wait. -/
theorem canWait_of_stampAt {phase : StampPhase} {now : Instant} {record r : Record}
    (stamped : stampAt plan phase none now record = .ok r) {role : StampRole}
    (listed : role ∈ phase.actorRoles) {spec : FieldSpec} (found : plan.field? role = some spec) :
    canWait record phase spec = true := by
  cases needed : plan.neededActor? record phase with
  | some field => simp only [stampAt, needed, reduceCtorEq] at stamped
  | none =>
    rw [neededActor?, Option.map_eq_none_iff, List.find?_eq_none] at needed
    have waits := needed spec (List.mem_filterMap.2 ⟨role, listed, found⟩)
    simpa using waits

/-- An insert with a plan that requires an actor had one. -/
theorem actor_of_stampAt {actor : Option String} {now : Instant} {record r : Record}
    (stamped : stampAt plan .beforeInsert actor now record = .ok r) {role : StampRole}
    (listed : role ∈ StampPhase.beforeInsert.actorRoles) {spec : FieldSpec}
    (found : plan.field? role = some spec) (required : spec.nullable = false) :
    ∃ name, actor = some name := by
  cases actor with
  | some name => exact ⟨name, rfl⟩
  | none =>
    have waits := canWait_of_stampAt stamped listed found
    simp [canWait, required] at waits

/-- A record in its lifetime can be updated by nobody in particular. -/
theorem Lifetime.neededActor?_eq_none {record r : Record} {later : List StampCall}
    (stamped : stampAt plan .beforeInsert first.actor first.now record = .ok inserted)
    (h : Lifetime plan first inserted later r) : plan.neededActor? r .beforeUpdate = none := by
  rw [neededActor?, Option.map_eq_none_iff, List.find?_eq_none]
  intro spec member
  obtain ⟨role, listed, found⟩ := List.mem_filterMap.1 member
  obtain rfl : role = .lastUpdatedBy := by simpa [StampPhase.actorRoles] using listed
  cases required : spec.nullable with
  | true => simp [canWait, required]
  | false =>
    obtain ⟨actor, given⟩ :=
      actor_of_stampAt stamped (by simp [StampPhase.actorRoles]) found required
    have named : plan.fieldName? .lastUpdatedBy = some spec.name := by rw [fieldName?, found]; rfl
    have someone : (lastActor? first later).isSome = true := by
      rw [lastActor?, List.findSome?_isSome_iff]
      exact ⟨first, by simp, by simp [given]⟩
    have set : (r.stamp? spec.name).isSome = true := by
      rw [h.lastUpdatedBy _ named, Option.isSome_or, Option.isSome_map, someone, Bool.true_or]
    simp [canWait, set]

theorem Lifetime.succeeded_eq (separate : plan.fields.Separate) {record r : Record}
    {later : List StampCall}
    (stamped : stampAt plan .beforeInsert first.actor first.now record = .ok inserted)
    (h : Lifetime plan first inserted later r) (calls : List StampCall) :
    plan.succeeded r calls = calls := by
  induction calls generalizing later r with
  | nil => rfl
  | cons call calls ih =>
    have unneeded := h.neededActor?_eq_none stamped
    have next := stampAt_of_no_need call fun _ => unneeded
    rw [succeeded, next]
    exact congrArg (call :: ·) (ih (h.step separate next))

/-- **The stamps of a record tell its life.** After a successful insert and any run of updates with a
plan that was built, the fields of the creation hold the insert's time and actor, those of the last
change the time of the last call that succeeded and the actor of the last one that had an actor, and
every other field is as the insert left it. No update of the run fails. -/
theorem run_lifetime {defaults : RoleSpecs} {overrides : OrderedMap StampRole FieldOverride}
    (built : build defaults overrides = .ok plan) {record : Record}
    (stamped : stampAt plan .beforeInsert first.actor first.now record = .ok inserted)
    (calls : List StampCall) :
    Lifetime plan first inserted (plan.succeeded inserted calls) (plan.updates inserted calls) ∧
      plan.succeeded inserted calls = calls := by
  have separate := build_separate built
  have start := (inserted_of_stampAt separate stamped).lifetime
  constructor
  · have run := start.run separate calls
    rwa [List.nil_append] at run
  · exact start.succeeded_eq separate stamped calls

/-- A plan that keeps the two times in each other's fields and needs to know who changed last. -/
def swappedTimes : OrderedMap StampRole FieldOverride :=
  .ofList [(.dateCreated, .rename "lastUpdated"), (.lastUpdated, .rename "dateCreated"),
    (.lastUpdatedBy, { nullable := some false })]

/-- Nine in the morning of a day. -/
def morning : Instant := ⟨⟨2024, 3, 1, by decide⟩, 32400, 0, by decide, by decide⟩

/-- Nine in the evening of that day. -/
def evening : Instant := ⟨⟨2024, 3, 1, by decide⟩, 75600, 0, by decide, by decide⟩

/-- An insert by alice, an update by bob and one by nobody. -/
theorem run_lifetime_swapped : ∃ plan inserted,
    build standardRoles swappedTimes = .ok plan ∧
      stampAt plan .beforeInsert (some "alice") morning (Record.new "Order" "1") = .ok inserted ∧
      (Lifetime plan ⟨some "alice", morning⟩ inserted
          (plan.succeeded inserted [⟨some "bob", morning⟩, ⟨none, evening⟩])
          (plan.updates inserted [⟨some "bob", morning⟩, ⟨none, evening⟩]) ∧
        plan.succeeded inserted [⟨some "bob", morning⟩, ⟨none, evening⟩] =
          [⟨some "bob", morning⟩, ⟨none, evening⟩]) ∧
      ["dateCreated", "lastUpdated", "createdBy", "lastUpdatedBy"].map
          (plan.updates inserted [⟨some "bob", morning⟩, ⟨none, evening⟩]).stamp? =
        [some (.timestamp evening), some (.timestamp morning), some (.actor "alice"),
          some (.actor "bob")] := by
  refine ⟨_, _, rfl, rfl, ?_, rfl⟩
  have built : build standardRoles swappedTimes = .ok _ := rfl
  exact run_lifetime built rfl _

end StampPlan

end ChangeAudit
