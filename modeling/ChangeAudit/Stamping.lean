import ChangeAudit.Record
import ChangeAudit.Stamp.Plan

/-!
# Stamping

`stampAt` fills the stamp fields of a record before it is inserted or updated, as a plan says. The
actors that the phase needs are checked first, so a missing actor leaves the record as it was.
`StampPlan.missing?` is the first required field that is still unset.
-/

namespace ChangeAudit

/-- The transition that a stamp precedes. -/
inductive StampPhase where
  | beforeInsert
  | beforeUpdate
  deriving DecidableEq

namespace StampPhase

/-- The name of a phase in documents. -/
def name : StampPhase → String
  | .beforeInsert => "beforeInsert"
  | .beforeUpdate => "beforeUpdate"

/-- Reads the name of a phase. -/
def decode? (t : Term) : Option StampPhase :=
  t.name?.bind fun n => [beforeInsert, beforeUpdate].find? fun p => p.name = n

/-- The roles that hold the time of the transition. -/
def timeRoles : StampPhase → List StampRole
  | .beforeInsert => [.dateCreated, .lastUpdated]
  | .beforeUpdate => [.lastUpdated]

/-- The roles that hold its actor. -/
def actorRoles : StampPhase → List StampRole
  | .beforeInsert => [.createdBy, .lastUpdatedBy]
  | .beforeUpdate => [.lastUpdatedBy]

end StampPhase

namespace StampPlan

/-- Whether a field may stay without an actor: it is nullable, or an update finds it set. -/
def canWait (record : Record) (phase : StampPhase) (spec : FieldSpec) : Bool :=
  spec.nullable || (phase = .beforeUpdate && (record.stamp? spec.name).isSome)

/-- The first actor field of the phase that cannot stay without an actor. -/
def neededActor? (plan : StampPlan) (record : Record) (phase : StampPhase) : Option String :=
  ((phase.actorRoles.filterMap plan.field?).find? fun s => !canWait record phase s).map
    FieldSpec.name

/-- The first required field that is not set. -/
def missing? (plan : StampPlan) (record : Record) : Option String :=
  (plan.specs.find? fun s => !s.nullable && (record.stamp? s.name).isNone).map FieldSpec.name

/-- Writes one value into the fields of the given roles. -/
def writeRoles (plan : StampPlan) (value : StampValue) (record : Record) (roles : List StampRole) :
    Record :=
  (roles.filterMap plan.fieldName?).foldl (fun r name => r.setStamp name value) record

/-- Sets a flag field that has no value yet. -/
def initFlag (record : Record) (spec : FieldSpec) : Record :=
  if spec.kind = .flag ∧ (record.stamp? spec.name).isNone then
    record.setStamp spec.name (.flag false)
  else record

/-- The record with the fields of the phase written. -/
def write (plan : StampPlan) (phase : StampPhase) (actor : Option String) (now : Instant)
    (record : Record) : Record :=
  let timed := plan.writeRoles (.timestamp now) record phase.timeRoles
  let signed :=
    match actor with
    | some a => plan.writeRoles (.actor a) timed phase.actorRoles
    | none => timed
  match phase with
  | .beforeInsert => plan.specs.foldl initFlag signed
  | .beforeUpdate => signed

end StampPlan

/-- Stamps a record at an instant. -/
def stampAt (plan : StampPlan) (phase : StampPhase) (actor : Option String) (now : Instant)
    (record : Record) : Except Fault Record :=
  match actor, plan.neededActor? record phase with
  | none, some field => .error (.missingActor record.entityType field)
  | _, _ => .ok (plan.write phase actor now record)

end ChangeAudit
